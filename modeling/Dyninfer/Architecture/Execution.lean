/-
Executing a graph: its operations run in the order they are listed, each on
the values it names. What the checks of `verify_architecture_graph` settle of
that, and what they leave open.
-/
import Dyninfer.Architecture.GraphChecks
import Dyninfer.Lib.Dataflow

namespace Dyninfer

namespace ArchitectureGraph

variable {V : Type}

/-- The values after the operations have run in turn, whatever each operation computes. -/
def execute (denote : ArchitectureOperation → List V → Nat → V) (graph : ArchitectureGraph) :
    Option (String → Option V) :=
  Dataflow.evaluate (·.inputs) (·.outputs) denote (fun _ => none) graph.operations

/-- The graph runs to its end whatever its operations compute, no value is produced twice, and every
parameter read is declared. -/
structure Executable (graph : ArchitectureGraph) : Prop where
  runs : ∀ (V : Type) (denote : ArchitectureOperation → List V → Nat → V), (graph.execute denote).isSome
  outputs : (graph.operations.flatMap (·.outputs)).Nodup
  parameters : ∀ operation ∈ graph.operations, ∀ parameter ∈ operation.parameters,
    parameter ∈ graph.parameterSlots.map (·.id)

/-- Every operation reads outputs of earlier operations. -/
def InOrder (graph : ArchitectureGraph) : Prop :=
  Dataflow.Ordered (·.inputs) (·.outputs) graph.operations

/-- Some operation reads an output of its own, or of an operation listed after it. -/
def ReadsBack (graph : ArchitectureGraph) : Prop :=
  Dataflow.ReadsBack (·.inputs) (·.outputs) graph.operations

theorem execute_isSome_iff {graph : ArchitectureGraph} {denote : ArchitectureOperation → List V → Nat → V} :
    (graph.execute denote).isSome ↔ graph.InOrder := Dataflow.evaluate_isSome_iff

theorem Verified.inOrder_iff {graph : ArchitectureGraph} (h : graph.Verified) :
    graph.InOrder ↔ ¬ graph.ReadsBack :=
  Dataflow.ordered_iff (fun operation hop input hi => h.produced input (h.inputs operation hop input hi)) h.outputs

theorem Verified.executable_of_inOrder {graph : ArchitectureGraph} (h : graph.Verified) (horder : graph.InOrder) :
    graph.Executable where
  runs _ _ := execute_isSome_iff.mpr horder
  outputs := h.outputs
  parameters := h.parameters

/-- **The checks against execution.** A graph that passes executes unless an operation reads back. -/
theorem executable_iff_not_readsBack {graph : ArchitectureGraph} (h : verifyArchitectureGraph graph = .ok ()) :
    graph.Executable ↔ ¬ graph.ReadsBack := by
  have hverified := verifyArchitectureGraph_ok h
  rw [← hverified.inOrder_iff]
  constructor
  · intro hexec
    have hrun := hexec.runs Unit fun _ _ _ => ()
    exact execute_isSome_iff.mp hrun
  · exact hverified.executable_of_inOrder

/-- The tokens and two projections, each of which reads the other's output if `cyclic`, and otherwise the
tokens. -/
def twoProjections (cyclic : Bool) : ArchitectureGraph where
  version := 1
  architectureId := "two.projections"
  values := [⟨"tokens", .tokens⟩, ⟨"left", .activations 8⟩, ⟨"right", .activations 8⟩]
  operations := [
    { id := "input.tokens", kind := .input, inputs := [], outputs := ["tokens"], parameters := [] },
    { id := "left", kind := .linear .attentionQ, inputs := [if cyclic then "right" else "tokens"]
      outputs := ["left"], parameters := [] },
    { id := "right", kind := .linear .attentionK, inputs := [if cyclic then "left" else "tokens"]
      outputs := ["right"], parameters := [] }]
  parameterSlots := []
  exports := [⟨"prefill", .prefill, ["tokens"], ["right"]⟩, ⟨"decode", .decode, ["tokens"], ["right"]⟩]

theorem executable_iff_not_readsBack_twoProjections :
    verifyArchitectureGraph (twoProjections false) = .ok () ∧
      ((twoProjections false).Executable ↔ ¬ (twoProjections false).ReadsBack) :=
  ⟨by decide +kernel, executable_iff_not_readsBack (by decide +kernel)⟩

/-- The checks accept a cycle. -/
theorem cycle_verified :
    verifyArchitectureGraph (twoProjections true) = .ok () ∧ ¬ (twoProjections true).Executable := by
  refine ⟨by decide +kernel, fun h => ?_⟩
  have hrun : ((twoProjections true).execute fun _ _ _ => ()).isSome = false := by decide +kernel
  rw [h.runs Unit] at hrun
  cases hrun

end ArchitectureGraph

end Dyninfer
