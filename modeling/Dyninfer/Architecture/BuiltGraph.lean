/-
The dataflow of every built graph: what the threading of its values and the
signatures of its layers come to, for every registered architecture and
whatever configuration its builder accepts.
-/
import Dyninfer.Architecture.Threading

namespace Dyninfer

open ModelBuilder

/-! ## Cache accesses -/

inductive CacheAccess where
  | write | read
  deriving DecidableEq, Repr

/-- What an operation does with one component of one layer's cache. -/
def OperationKind.cacheAccess (layer : Nat) (component : KvCacheComponent) : OperationKind → Option CacheAccess
  | .kvCacheWrite l c => if l = layer ∧ c = component then some .write else none
  | .kvCacheRead l c => if l = layer ∧ c = component then some .read else none
  | _ => none

def OperationKind.isOutputProjection : OperationKind → Bool
  | .outputProjection => true
  | _ => false

/-- The accesses to one component of one layer's cache, in order. -/
def ArchitectureGraph.cacheAccesses (graph : ArchitectureGraph) (layer : Nat) (component : KvCacheComponent) :
    List CacheAccess :=
  graph.operations.filterMap (·.kind.cacheAccess layer component)

section signatures

variable (layer l : Nat) (component : KvCacheComponent)

theorem attentionSigs_cacheAccesses (spec : DecoderBlockSpec) (hasQkNorm : Bool) :
    (spec.attentionSigs l hasQkNorm).filterMap (·.kind.cacheAccess layer component) =
      if l = layer then [.write, .read] else [] := by
  have hnorm : (if hasQkNorm then spec.qkNormSigs s!"blk.{l}" else []).filterMap
      (·.kind.cacheAccess layer component) = [] := by cases hasQkNorm <;> rfl
  have hrope : spec.qkRopeSigs.filterMap (·.kind.cacheAccess layer component) = [] := by
    unfold DecoderBlockSpec.qkRopeSigs
    cases spec.ropeTheta <;> rfl
  unfold DecoderBlockSpec.attentionSigs
  -- the norm, the projections, the q/k norms and the rotations leave the cache alone
  rw [List.filterMap_cons_none rfl, List.filterMap_cons_none rfl, List.filterMap_cons_none rfl,
    List.filterMap_cons_none rfl, List.filterMap_append, List.filterMap_append, hnorm, hrope, List.nil_append,
    List.nil_append]
  by_cases hl : l = layer <;> cases component <;>
    simp [OperationKind.cacheAccess, linearSig, residualSig, hl]

theorem layerSigs_cacheAccesses (hasQkNorm : Bool) (block : DecoderBlockSpec) (shortConv : ShortConvBlockSpec)
    (kind : LayerKind) :
    (layerSigs hasQkNorm block shortConv (kind, l)).filterMap (·.kind.cacheAccess layer component) =
      if l = layer then (if kind = .attention then [.write, .read] else []) else [] := by
  have hffn : (block.feedForwardSigs l).filterMap (·.kind.cacheAccess layer component) = [] := rfl
  unfold layerSigs
  rw [List.filterMap_append, hffn, List.append_nil]
  cases kind with
  | attention => simpa using attentionSigs_cacheAccesses layer l component block hasQkNorm
  | shortConv => simp [ShortConvBlockSpec.shortConvSigs, rmsNormSig, linearSig, residualSig,
      OperationKind.cacheAccess]

theorem layerSigs_not_outputProjection (hasQkNorm : Bool) (block : DecoderBlockSpec) (shortConv : ShortConvBlockSpec)
    (kind : LayerKind) :
    (layerSigs hasQkNorm block shortConv (kind, l)).filter (·.kind.isOutputProjection) = [] := by
  cases kind with
  | shortConv => rfl
  | attention =>
    unfold layerSigs DecoderBlockSpec.attentionSigs DecoderBlockSpec.qkRopeSigs
    cases block.ropeTheta <;> cases hasQkNorm <;> rfl

end signatures

/-- What the entry at one index of a list gives. -/
theorem zipIdx_flatMap_at {α β : Type} (f : α → List β) (i : Nat) (xs : List α) (k : Nat) :
    ((xs.zipIdx k).flatMap fun e => if e.2 = k + i then f e.1 else []) = (xs[i]?).toList.flatMap f := by
  induction xs generalizing i k with
  | nil => simp
  | cons x xs ih =>
    rw [List.zipIdx_cons, List.flatMap_cons]
    cases i with
    | zero =>
      have hrest : ((xs.zipIdx (k + 1)).flatMap fun e => if e.2 = k + 0 then f e.1 else []) = [] := by
        refine List.flatMap_eq_nil_iff.mpr fun e he => if_neg ?_
        have := (List.mem_zipIdx he).1
        omega
      have hhere : (if (x, k).2 = k + 0 then f (x, k).1 else []) = f x := if_pos rfl
      rw [hrest, hhere]
      simp
    | succ i =>
      have hi : k + (i + 1) = (k + 1) + i := by omega
      rw [if_neg (by simp), hi, ih i (k + 1)]
      simp

theorem modelSigs_cacheAccesses {hidden vocab : Nat} {epsilon : Float} {schedule : List LayerKind} {hasQkNorm : Bool}
    {block : DecoderBlockSpec} {shortConv : ShortConvBlockSpec} (layer : Nat) (component : KvCacheComponent) :
    (modelSigs hidden vocab epsilon (schedule.zipIdx.flatMap (layerSigs hasQkNorm block shortConv))).filterMap
        (·.kind.cacheAccess layer component) =
      if schedule[layer]? = some .attention then [.write, .read] else [] := by
  unfold modelSigs
  simp only [List.filterMap_cons, List.filterMap_append, List.filterMap_nil, List.append_nil,
    List.filterMap_flatMap, rmsNormSig, OperationKind.cacheAccess]
  have hlayers := zipIdx_flatMap_at (fun kind => if kind = LayerKind.attention then [CacheAccess.write, .read] else [])
    layer schedule 0
  rw [Nat.zero_add] at hlayers
  rw [List.flatMap_congr fun e _ => layerSigs_cacheAccesses layer e.2 component hasQkNorm block shortConv e.1, hlayers]
  cases schedule[layer]? <;> simp

theorem modelSigs_outputProjection {hidden vocab : Nat} {epsilon : Float} {schedule : List LayerKind}
    {hasQkNorm : Bool} {block : DecoderBlockSpec} {shortConv : ShortConvBlockSpec} :
    ((modelSigs hidden vocab epsilon (schedule.zipIdx.flatMap (layerSigs hasQkNorm block shortConv))).filter
      (·.kind.isOutputProjection)).length = 1 := by
  have hlayers : (schedule.zipIdx.flatMap (layerSigs hasQkNorm block shortConv)).filter
      (·.kind.isOutputProjection) = [] := by
    rw [List.filter_flatMap]
    exact List.flatMap_eq_nil_iff.mpr fun e _ => layerSigs_not_outputProjection e.2 hasQkNorm block shortConv e.1
  unfold modelSigs
  rw [List.filter_cons_of_neg Bool.false_ne_true, List.filter_cons_of_neg Bool.false_ne_true, List.filter_append,
    hlayers]
  rfl

/-! ## The graph -/

/-- A well-formed dataflow over the layers of a schedule. -/
structure ArchitectureGraph.WellFormed (graph : ArchitectureGraph) (schedule : List LayerKind) : Prop where
  values : (graph.values.map (·.id)).Nodup
  operations : (graph.operations.map (·.id)).Nodup
  /-- Every input is the output of an earlier operation. -/
  inOrder : graph.InOrder
  /-- Each component of an attention layer's cache is written once and then read once, and no other
  layer has a cache. -/
  cache : ∀ layer component, graph.cacheAccesses layer component =
    if schedule[layer]? = some .attention then [.write, .read] else []
  /-- Every slot is read by exactly one operation. -/
  consumed : ∀ slot ∈ graph.parameterSlots, graph.operations.countP (slot.id ∈ ·.parameters) = 1
  declared : ∀ operation ∈ graph.operations, ∀ parameter ∈ operation.parameters,
    parameter ∈ graph.parameterSlots.map (·.id)
  slotIds : (graph.parameterSlots.map (·.id)).Nodup
  slotNames : (graph.parameterSlots.map (·.canonicalName)).Nodup
  /-- Both exports give the output of the one output projection. -/
  exports : ∃ projection logits, graph.operations.filter (·.kind.isOutputProjection) = [projection] ∧
    projection.outputs = [logits] ∧ graph.exports.map (fun e => (e.name, e.mode, e.outputs)) =
      [("prefill", .prefill, [logits]), ("decode", .decode, [logits])]

/-- A value that one list of a family without repeats holds is in exactly one of them. -/
theorem countP_mem_flatMap {α β : Type} [DecidableEq β] {g : α → List β} {xs : List α} {y : β}
    (hnodup : (xs.flatMap g).Nodup) (hy : y ∈ xs.flatMap g) : xs.countP (y ∈ g ·) = 1 := by
  induction xs with
  | nil => simp at hy
  | cons x xs ih =>
    rw [List.flatMap_cons] at hnodup hy
    obtain ⟨-, hrest, hdisjoint⟩ := List.nodup_append.mp hnodup
    rcases List.mem_append.mp hy with hx | hxs
    · have hnone : xs.countP (y ∈ g ·) = 0 := by
        refine List.countP_eq_zero.mpr fun z hz hyz => ?_
        exact hdisjoint y hx y (List.mem_flatMap.mpr ⟨z, hz, by simpa using hyz⟩) rfl
      simp [hx, hnone]
    · have hx : y ∉ g x := fun hx => hdisjoint y hx y hxs rfl
      simp [hx, ih hrest hxs]

theorem ArchitectureGraph.HasSigs.filter_length {graph : ArchitectureGraph} {sigs : List OpSig}
    (h : graph.HasSigs sigs) (c : OperationKind → Bool) :
    (graph.operations.filter (c ·.kind)).length = (sigs.filter (c ·.kind)).length := by
  have hkinds := congrArg (fun kinds => (kinds.filter c).length) h.map_kind
  simpa [List.filter_map, Function.comp_def] using hkinds

/-- The defaults of LFM2 build. -/
theorem lfm2_builds : ∃ config package, ArchitectureRegistry.buildWithConfig .lfm2 config = .ok package := by
  obtain ⟨config, -, hbuild⟩ := Fallible.exists_ok (x := Architecture.lfm2.configSchema.resolve [] [] [])
    (p := fun config => (ArchitectureRegistry.buildWithConfig .lfm2 config).toOption.any fun _ => true)
    (by decide +kernel)
  obtain ⟨package, hpackage, -⟩ := Fallible.exists_ok hbuild
  exact ⟨config, package, hpackage⟩

/-- **Built graphs are well-formed dataflow.** -/
theorem buildWithConfig_wellFormed {architecture : Architecture} {config : ResolvedModelConfig}
    {package : ArchitecturePackage} (h : ArchitectureRegistry.buildWithConfig architecture config = .ok package) :
    ∃ numLayers schedule, config.numLayers = .ok numLayers ∧ architecture.Schedules config numLayers schedule ∧
      package.graph.WellFormed schedule := by
  obtain ⟨-, numLayers, vocab, block, schedule, shortConv, hreads, hschedule, -, hsigs⟩ := buildWithConfig_sigs h
  have hthread := buildWithConfig_threading h
  have hverified := verifyArchitectureConformance_ok hsigs.conforms
  refine ⟨numLayers, schedule, hreads.numLayers, hschedule, ?_⟩
  have hnames : package.graph.parameterSlots.map (·.canonicalName) = package.graph.parameterSlots.map (·.id) :=
    List.map_congr_left fun slot hslot => (hsigs.slots slot hslot).1
  constructor
  case values => exact hverified.values
  case operations => exact hverified.operations
  case inOrder => exact hthread.ordered
  case cache =>
    intro layer component
    have hkinds := congrArg (List.filterMap (OperationKind.cacheAccess layer component)) hsigs.map_kind
    rw [List.filterMap_map, List.filterMap_map] at hkinds
    exact hkinds.trans (modelSigs_cacheAccesses layer component)
  case consumed =>
    intro slot hslot
    refine countP_mem_flatMap ?_ ?_
    · rw [hthread.consumed]; exact hverified.slots
    · rw [hthread.consumed]; exact List.mem_map_of_mem hslot
  case declared => exact hverified.parameters
  case slotIds => exact hverified.slots
  case slotNames => rw [hnames]; exact hverified.slots
  case exports =>
    obtain ⟨projection, hprojection, hkind, logits, hout, hexports⟩ := hthread.exports
    have hone := hsigs.filter_length OperationKind.isOutputProjection
    rw [modelSigs_outputProjection] at hone
    obtain ⟨only, honly⟩ := List.length_eq_one_iff.mp hone
    have hmem : projection ∈ package.graph.operations.filter (·.kind.isOutputProjection) :=
      List.mem_filter.mpr ⟨hprojection, by rw [hkind]; rfl⟩
    rw [honly, List.mem_singleton] at hmem
    subst hmem
    exact ⟨projection, logits, honly, hout, hexports⟩

theorem buildWithConfig_wellFormed_lfm2 :
    ∃ config package, ArchitectureRegistry.buildWithConfig .lfm2 config = .ok package ∧
      ∃ numLayers schedule, config.numLayers = .ok numLayers ∧ Architecture.lfm2.Schedules config numLayers schedule ∧
        package.graph.WellFormed schedule := by
  obtain ⟨config, package, hpackage⟩ := lfm2_builds
  exact ⟨config, package, hpackage, buildWithConfig_wellFormed hpackage⟩

/-- A built graph runs to its end, whatever its operations compute. -/
theorem buildWithConfig_executable {architecture : Architecture} {config : ResolvedModelConfig}
    {package : ArchitecturePackage} (h : ArchitectureRegistry.buildWithConfig architecture config = .ok package) :
    package.graph.Executable := by
  obtain ⟨-, numLayers, vocab, block, schedule, shortConv, -, -, -, hsigs⟩ := buildWithConfig_sigs h
  exact (verifyArchitectureConformance_ok hsigs.conforms).executable_of_inOrder (buildWithConfig_threading h).ordered

end Dyninfer
