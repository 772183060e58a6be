/-
What `verify_architecture_graph` accepts: ids are distinct, the operations
name declared values and slots, no value has two producers and each has one.
-/
import Dyninfer.Architecture.Builder
import Dyninfer.Lib.Fallible
import Mathlib.Data.List.Nodup

namespace Dyninfer

theorem conform_ok {c : Bool} {message : String} (h : conform c message = .ok ()) : c = true := by
  unfold conform at h
  split at h
  · assumption
  · cases h

theorem insertAllNew_ok {message : String → String} {seen ids out : List String}
    (h : insertAllNew message seen ids = .ok out) :
    ids.Nodup ∧ (∀ id ∈ ids, id ∉ seen) ∧ ∀ id, id ∈ out ↔ id ∈ seen ∨ id ∈ ids := by
  induction ids generalizing seen with
  | nil => cases h; simp
  | cons id ids ih =>
    unfold insertAllNew at h
    split at h
    case isTrue => cases h
    case isFalse hnew =>
      obtain ⟨hnodup, hdisjoint, hout⟩ := ih h
      refine ⟨List.nodup_cons.mpr ⟨fun hid => hdisjoint id hid List.mem_cons_self, hnodup⟩, ?_, ?_⟩
      · intro id' hid'
        cases hid' with
        | head => exact hnew
        | tail _ hid' => exact fun hs => hdisjoint id' hid' (List.mem_cons_of_mem _ hs)
      · intro id'
        rw [hout id', List.mem_cons, List.mem_cons]
        tauto

/-- A loop that adds the names of each item to those seen, and fails on a name seen before. -/
theorem foldlM_new {α β : Type} {f : β → α → Except DynInferError β} {g : α → List String}
    {s : β → List String} {xs : List α}
    (hstep : ∀ b x b', x ∈ xs → f b x = .ok b' →
      (g x).Nodup ∧ (∀ id ∈ g x, id ∉ s b) ∧ ∀ id, id ∈ s b' ↔ id ∈ s b ∨ id ∈ g x)
    {b b' : β} (h : xs.foldlM f b = .ok b') :
    (xs.flatMap g).Nodup ∧ (∀ id ∈ xs.flatMap g, id ∉ s b) ∧
      ∀ id, id ∈ s b' ↔ id ∈ s b ∨ id ∈ xs.flatMap g := by
  induction xs generalizing b with
  | nil => cases h; simp
  | cons x xs ih =>
    rw [List.foldlM_cons] at h
    obtain ⟨next, hnext, h⟩ := Fallible.bind_ok h
    obtain ⟨hnodup, hnew, hseen⟩ := hstep b x next List.mem_cons_self hnext
    obtain ⟨hnodup', hnew', hseen'⟩ := ih (fun b y b' hy => hstep b y b' (List.mem_cons_of_mem _ hy)) h
    simp only [List.flatMap_cons, List.mem_append, List.nodup_append]
    refine ⟨⟨hnodup, hnodup', ?_⟩, ?_, fun id => ?_⟩
    · rintro id hid _ hid' rfl
      exact hnew' id hid' ((hseen id).mpr (.inr hid))
    · rintro id (hid | hid) hb
      · exact hnew id hid hb
      · exact hnew' id hid ((hseen id).mpr (.inl hb))
    · rw [hseen' id, hseen id, or_assoc]

/-! ## One operation -/

/-- What a check of one operation adds to the scan, and what it has found. -/
structure OperationChecked (valueIds slotIds : List String) (scan : GraphScan) (operation : ArchitectureOperation)
    (scan' : GraphScan) : Prop where
  idNew : operation.id ∉ scan.operationIds
  ids : ∀ id, id ∈ scan'.operationIds ↔ id ∈ scan.operationIds ∨ id = operation.id
  inputs : ∀ input ∈ operation.inputs, input ∈ valueIds
  outputsNodup : operation.outputs.Nodup
  outputsNew : ∀ output ∈ operation.outputs, output ∉ scan.producedValues
  produced : ∀ id, id ∈ scan'.producedValues ↔ id ∈ scan.producedValues ∨ id ∈ operation.outputs
  parameters : ∀ parameter ∈ operation.parameters, parameter ∈ slotIds

theorem verifyOperation_ok {graph : ArchitectureGraph} {valueIds slotIds : List String} {scan scan' : GraphScan}
    {operation : ArchitectureOperation} (h : verifyOperation graph valueIds slotIds scan operation = .ok scan') :
    OperationChecked valueIds slotIds scan operation scan' := by
  obtain ⟨ids, hids, h⟩ := Fallible.bind_ok h
  obtain ⟨_, hinputs, h⟩ := Fallible.bind_ok h
  obtain ⟨produced, hproduced, h⟩ := Fallible.bind_ok h
  obtain ⟨_, hparams, h⟩ := Fallible.bind_ok h
  have hscan : scan' = ⟨ids, produced, scan.consumedSlots ++ operation.parameters⟩ := by
    split at h
    · obtain ⟨_, -, h⟩ := Fallible.bind_ok h
      cases h; rfl
    · cases h; rfl
  obtain ⟨-, hidNew, hidsMem⟩ := insertAllNew_ok hids
  have houtputs := foldlM_new (g := fun output => [output]) (s := id) (fun b output b' _ hb => by
    obtain ⟨_, -, hb⟩ := Fallible.bind_ok hb
    exact insertAllNew_ok hb) hproduced
  rw [List.flatMap_singleton'] at houtputs
  subst hscan
  constructor
  case idNew => exact hidNew _ (List.mem_singleton_self _)
  case ids => simpa using hidsMem
  case inputs => exact fun input hi => List.contains_iff_mem.mp (conform_ok (Fallible.forM_ok hinputs input hi))
  case outputsNodup => exact houtputs.1
  case outputsNew => exact houtputs.2.1
  case produced => exact houtputs.2.2
  case parameters => exact fun p hp => List.contains_iff_mem.mp (conform_ok (Fallible.forM_ok hparams p hp))

/-! ## The graph -/

/-- What holds of every graph the checks accept. -/
structure ArchitectureGraph.Verified (graph : ArchitectureGraph) : Prop where
  values : (graph.values.map (·.id)).Nodup
  slots : (graph.parameterSlots.map (·.id)).Nodup
  operations : (graph.operations.map (·.id)).Nodup
  inputs : ∀ operation ∈ graph.operations, ∀ input ∈ operation.inputs, input ∈ graph.values.map (·.id)
  outputs : (graph.operations.flatMap (·.outputs)).Nodup
  produced : ∀ id ∈ graph.values.map (·.id), id ∈ graph.operations.flatMap (·.outputs)
  parameters : ∀ operation ∈ graph.operations, ∀ parameter ∈ operation.parameters,
    parameter ∈ graph.parameterSlots.map (·.id)

theorem verifyArchitectureGraph_ok {graph : ArchitectureGraph} (h : verifyArchitectureGraph graph = .ok ()) :
    graph.Verified := by
  obtain ⟨_, -, h⟩ := Fallible.bind_ok h
  obtain ⟨valueIds, hvalues, h⟩ := Fallible.bind_ok h
  obtain ⟨slotIds, hslots, h⟩ := Fallible.bind_ok h
  obtain ⟨scan, hscan, h⟩ := Fallible.bind_ok h
  obtain ⟨_, hproduced, -⟩ := Fallible.bind_ok h
  obtain ⟨hvaluesNodup, -, hvaluesMem⟩ := insertAllNew_ok hvalues
  obtain ⟨hslotsNodup, -, hslotsMem⟩ := insertAllNew_ok hslots
  simp only [List.not_mem_nil, false_or] at hvaluesMem hslotsMem
  have hids := foldlM_new (g := fun operation : ArchitectureOperation => [operation.id])
    (s := (·.operationIds)) (fun scan operation scan' _ hop => by
      have hop := verifyOperation_ok hop
      simpa using ⟨hop.idNew, hop.ids⟩) hscan
  have houtputs := foldlM_new (g := (·.outputs)) (s := (·.producedValues)) (fun scan operation scan' _ hop =>
    ⟨(verifyOperation_ok hop).outputsNodup, (verifyOperation_ok hop).outputsNew,
      (verifyOperation_ok hop).produced⟩) hscan
  have hreads := (Fallible.foldlM_ok (I := fun _ => True)
    (R := fun operation => (∀ input ∈ operation.inputs, input ∈ valueIds) ∧
      ∀ parameter ∈ operation.parameters, parameter ∈ slotIds)
    (fun scan operation scan' _ _ hop =>
      ⟨trivial, (verifyOperation_ok hop).inputs, (verifyOperation_ok hop).parameters⟩) trivial hscan).2
  constructor
  case values => exact hvaluesNodup
  case slots => exact hslotsNodup
  case operations => exact List.map_eq_flatMap (f := fun operation : ArchitectureOperation => operation.id) ▸ hids.1
  case inputs => exact fun operation hop input hi => (hvaluesMem input).mp ((hreads operation hop).1 input hi)
  case outputs => exact houtputs.1
  case produced =>
    intro id hid
    obtain ⟨value, hvalue, rfl⟩ := List.mem_map.mp hid
    have hmem := List.contains_iff_mem.mp (conform_ok (Fallible.forM_ok hproduced value hvalue))
    exact ((houtputs.2.2 value.id).mp hmem).resolve_left List.not_mem_nil
  case parameters => exact fun operation hop p hp => (hslotsMem p).mp ((hreads operation hop).2 p hp)

theorem verifyArchitectureConformance_ok {graph : ArchitectureGraph}
    (h : verifyArchitectureConformance graph = .ok ()) : graph.Verified := by
  obtain ⟨_, h, -⟩ := Fallible.bind_ok h
  exact verifyArchitectureGraph_ok h

end Dyninfer
