/-
What a successful bind has done: it has partitioned the package's slots into
those bound, each to a parameter of its rank, shape, role and element type, and
the optional ones that no parameter answers. Byte ranges are checked against the
first component's alignment alone, so a later component's own alignment is
respected where the first one implies it, or where its ranges happen to.
-/
import Dyninfer.Binding.PlanFacts

namespace Dyninfer

/-! ## Names -/

/-- Some parameter carries the name, as its own or as an alias. -/
def Named (parameters : List LogicalParameter) (name : String) : Prop :=
  ∃ param ∈ parameters, param.canonicalName = name ∨ name ∈ param.aliases

instance (parameters : List LogicalParameter) (name : String) : Decidable (Named parameters name) :=
  inferInstanceAs (Decidable (∃ param ∈ parameters, param.canonicalName = name ∨ name ∈ param.aliases))

section resolve

variable {parameters : List LogicalParameter} {name : String} {param : LogicalParameter}

theorem resolve_eq_none_iff : resolve parameters name = none ↔ ¬ Named parameters name := by
  simp only [resolve, Option.or_eq_none_iff, List.find?_eq_none, List.mem_reverse, beq_iff_eq, decide_eq_true_eq, Named,
    not_exists, not_and, not_or, ← forall_and]

/-- A canonical name wins over an alias. -/
theorem canonicalName_of_resolve (h : resolve parameters name = some param)
    (hown : ∃ p ∈ parameters, p.canonicalName = name) : param.canonicalName = name := by
  rcases Option.or_eq_some_iff.mp h with h | ⟨hnone, -⟩
  · simpa using List.find?_some h
  · obtain ⟨p, hp, hname⟩ := hown
    exact absurd hname (by simpa using List.find?_eq_none.mp hnone p (List.mem_reverse.mpr hp))

theorem named_of_resolve (h : resolve parameters name = some param) :
    param.canonicalName = name ∨ name ∈ param.aliases := by
  rcases Option.or_eq_some_iff.mp h with h | ⟨-, h⟩
  · exact .inl (by simpa using List.find?_some h)
  · exact .inr (by simpa using List.find?_some h)

theorem Named.of_resolve (h : resolve parameters name = some param) : Named parameters name :=
  ⟨param, mem_of_resolve h, named_of_resolve h⟩

end resolve

/-! ## The run -/

/-- What the binder has gathered of the slots done so far. -/
structure BindState.Covers (parameters : List LogicalParameter) (done : List ParameterSlot) (s : BindState) : Prop where
  unresolved : s.unresolvedOptional = (done.filter fun slot => ¬ Named parameters slot.canonicalName).map (·.id)
  optional : ∀ slot ∈ done, slot.optional = false → Named parameters slot.canonicalName
  accepts : ∀ slot ∈ done, ∀ param, resolve parameters slot.canonicalName = some param → SlotAccepts slot param
  /-- A tied group is remembered with the shape of its first bound member, which is the shape of all. -/
  tied : ∀ slot ∈ done, ∀ param group, resolve parameters slot.canonicalName = some param →
    slot.tiedGroup = some group → ∃ first, s.tiedShapes.get group = some (first, param.logicalType.shape)

theorem checkTied_ok {slot : ParameterSlot} {binding : ParameterBinding}
    {tiedShapes tiedShapes' : AssocMap String (String × Shape)}
    (h : checkTied slot binding tiedShapes = .ok tiedShapes') :
    (∀ group entry, tiedShapes.get group = some entry → tiedShapes'.get group = some entry) ∧
      ∀ group, slot.tiedGroup = some group → ∃ first, tiedShapes'.get group = some (first, binding.logicalShape) := by
  unfold checkTied at h
  cases hgroup : slot.tiedGroup with
  | none =>
    rw [hgroup] at h
    cases h
    exact ⟨fun _ _ h => h, by simp⟩
  | some group =>
    rw [hgroup] at h
    dsimp only at h
    cases hget : tiedShapes.get group with
    | none =>
      rw [hget] at h
      cases h
      refine ⟨fun other entry hentry => ?_, fun other hother => ?_⟩
      · rw [AssocMap.get_insert_ne _ _ (fun heq => by rw [heq, hget] at hentry; cases hentry)]
        exact hentry
      · cases hother
        exact ⟨slot.id, AssocMap.get_insert_self _ _ _⟩
    | some entry =>
      obtain ⟨first, shape⟩ := entry
      rw [hget] at h
      dsimp only at h
      split at h
      case isTrue => cases h
      case isFalse hshape =>
        cases h
        refine ⟨fun _ _ h => h, fun other hother => ?_⟩
        cases hother
        exact ⟨first, by rw [hget, not_not.mp hshape]⟩

namespace Binder

variable {binder : Binder} {parameters : List LogicalParameter}

theorem covers_bindNext (done : List ParameterSlot) (slot : ParameterSlot) (s s' : BindState)
    (hs : s.Covers parameters done) (h : binder.bindNext (byName parameters) s slot = .ok s') :
    s'.Covers parameters (done ++ [slot]) := by
  obtain ⟨found, hfound, h⟩ := Fallible.bind_ok h
  obtain ⟨haccepts, hfound⟩ := bindSlot_ok_iff.mp hfound
  rw [byName_get] at haccepts hfound
  have haccepts : ∀ slot' ∈ done ++ [slot], ∀ param, resolve parameters slot'.canonicalName = some param →
      SlotAccepts slot' param := by
    intro slot' hmem param hresolve
    rcases List.mem_append.mp hmem with hmem | hmem
    · exact hs.accepts slot' hmem param hresolve
    · obtain rfl := List.mem_singleton.mp hmem
      exact haccepts param hresolve
  cases hresolve : resolve parameters slot.canonicalName with
  | some param =>
    rw [hresolve, Option.map_some] at hfound
    subst hfound
    obtain ⟨tiedShapes, htied, h⟩ := Fallible.bind_ok h
    obtain ⟨hkept, hgroup⟩ := checkTied_ok htied
    cases h
    have hnamed := Named.of_resolve hresolve
    constructor
    case unresolved => simp [hs.unresolved, List.filter_append, hnamed]
    case optional =>
      intro slot' hmem hrequired
      rcases List.mem_append.mp hmem with hmem | hmem
      · exact hs.optional slot' hmem hrequired
      · obtain rfl := List.mem_singleton.mp hmem
        exact hnamed
    case accepts => exact haccepts
    case tied =>
      intro slot' hmem param' group hresolve' htied'
      rcases List.mem_append.mp hmem with hmem | hmem
      · obtain ⟨first, hget⟩ := hs.tied slot' hmem param' group hresolve' htied'
        exact ⟨first, hkept _ _ hget⟩
      · obtain rfl := List.mem_singleton.mp hmem
        obtain rfl := Option.some.inj (hresolve.symm.trans hresolve')
        exact hgroup group htied'
  | none =>
    rw [hresolve, Option.map_none] at hfound
    subst hfound
    have hnamed : ¬ Named parameters slot.canonicalName := resolve_eq_none_iff.mp hresolve
    cases hoptional : slot.optional with
    | false => rw [hoptional] at h; cases h
    | true =>
      rw [hoptional] at h
      cases h
      constructor
      case unresolved => simp [hs.unresolved, List.filter_append, hnamed]
      case optional =>
        intro slot' hmem hrequired
        rcases List.mem_append.mp hmem with hmem | hmem
        · exact hs.optional slot' hmem hrequired
        · obtain rfl := List.mem_singleton.mp hmem
          rw [hoptional] at hrequired
          cases hrequired
      case accepts => exact haccepts
      case tied =>
        intro slot' hmem param' group hresolve' htied'
        rcases List.mem_append.mp hmem with hmem | hmem
        · exact hs.tied slot' hmem param' group hresolve' htied'
        · obtain rfl := List.mem_singleton.mp hmem
          rw [hresolve] at hresolve'
          cases hresolve'

theorem bind_covers {architecture : ArchitecturePackage} {catalog : CheckpointCatalog} {plan : BindingPlan}
    (h : binder.bind architecture catalog = .ok plan) : ∃ s : BindState,
      s.Covers catalog.parameters architecture.graph.parameterSlots ∧
        plan.unresolvedOptionalSlots = s.unresolvedOptional := by
  obtain ⟨s, hs, h⟩ := Fallible.bind_ok h
  cases h
  have hstart : BindState.Covers catalog.parameters [] {} := ⟨rfl, by simp, by simp, by simp⟩
  exact ⟨s, Fallible.foldlM_prefix_ok covers_bindNext hstart hs, rfl⟩

end Binder

/-! ## The partition -/

/-- A slot and the parameter bound to it. -/
structure BoundAs (parameters : List LogicalParameter) (slot : ParameterSlot) (param : LogicalParameter) : Prop where
  mem : param ∈ parameters
  named : param.canonicalName = slot.canonicalName ∨ slot.canonicalName ∈ param.aliases
  /-- An alias counts only where no parameter has the name as its own. -/
  canonical : (∃ p ∈ parameters, p.canonicalName = slot.canonicalName) → param.canonicalName = slot.canonicalName
  rank : ∀ rank, slot.expectedType.rank = some rank → param.logicalType.shape.length = rank
  shape : ∀ shape, slot.expectedType.shape = some shape → param.logicalType.shape = shape
  role : rolesCompatible slot.role param.role = true
  elementType : slot.expectedType.elementTypes ≠ [] → param.logicalType.elementType ∈ slot.expectedType.elementTypes
  /-- Plain storage has the size of its elements, where `u64` can tell. -/
  bytes : param.components ≠ [] → ∀ scalar order, param.encoding = .plain scalar order →
    ∃ numel, param.logicalType.shape.numel = some numel ∧
      ((param.components.flatMap fun component => component.byteRanges.map (·.length)).sum < 2 ^ 64 →
        numel * scalar.sizeBytes < 2 ^ 64 →
        (param.components.flatMap fun component => component.byteRanges.map (·.length)).sum = numel * scalar.sizeBytes)

theorem BoundAs.of_resolve {parameters : List LogicalParameter} {slot : ParameterSlot} {param : LogicalParameter}
    (h : resolve parameters slot.canonicalName = some param) (haccepts : SlotAccepts slot param) :
    BoundAs parameters slot param where
  mem := mem_of_resolve h
  named := named_of_resolve h
  canonical := canonicalName_of_resolve h
  rank := haccepts.rank
  shape := haccepts.shape
  role := haccepts.role
  elementType := haccepts.elementType
  bytes hsome scalar order hplain := by
    obtain ⟨numel, hnumel, hstorage⟩ := haccepts.storage hsome scalar order hplain
    rw [LogicalParameter.storageBytes, saturatingSum_eq] at hstorage
    exact ⟨numel, hnumel, fun hsum hsize => by omega⟩

theorem resolved_slots (slots : List ParameterSlot) (parameters : List LogicalParameter) :
    (resolved slots parameters).map Prod.fst = slots.filter fun slot => Named parameters slot.canonicalName := by
  induction slots with
  | nil => rfl
  | cons slot slots ih =>
    rw [resolved, List.filterMap_cons, List.filter_cons]
    cases hresolve : resolve parameters slot.canonicalName with
    | none => simpa [resolved, resolve_eq_none_iff.mp hresolve] using ih
    | some param => simpa [resolved, Named.of_resolve hresolve] using ih

/-- **Binding partitions the slots and checks each one.** A successful bind binds the slots that some
parameter is named after, in order, each to such a parameter of its rank, shape, role and element type
(never to one that only aliases a name another parameter has), leaves the others unresolved, in order,
and these are optional; the bound members of a tied group have one shape. -/
theorem bind_partitions {binder : Binder} {architecture : ArchitecturePackage} {catalog : CheckpointCatalog}
    {plan : BindingPlan} (h : binder.bind architecture catalog = .ok plan) :
    ∃ bound : List (ParameterSlot × LogicalParameter),
      plan.bindings = bound.map (fun b => binder.parameterBinding b.1 b.2) ∧
      bound.map Prod.fst =
        (architecture.graph.parameterSlots.filter fun slot => Named catalog.parameters slot.canonicalName) ∧
      plan.unresolvedOptionalSlots =
        (architecture.graph.parameterSlots.filter fun slot => ¬ Named catalog.parameters slot.canonicalName).map (·.id) ∧
      (∀ slot ∈ architecture.graph.parameterSlots, slot.optional = false → slot ∈ bound.map Prod.fst) ∧
      (∀ b ∈ bound, BoundAs catalog.parameters b.1 b.2) ∧
      ∀ b ∈ bound, ∀ b' ∈ bound, ∀ group, b.1.tiedGroup = some group → b'.1.tiedGroup = some group →
        b.2.logicalType.shape = b'.2.logicalType.shape := by
  obtain ⟨s, hs, hunresolved⟩ := Binder.bind_covers h
  have hmem (b : ParameterSlot × LogicalParameter)
      (hb : b ∈ resolved architecture.graph.parameterSlots catalog.parameters) :=
    mem_resolved.mp (show (b.1, b.2) ∈ resolved architecture.graph.parameterSlots catalog.parameters from hb)
  refine ⟨resolved architecture.graph.parameterSlots catalog.parameters, Binder.bind_bindings h, resolved_slots _ _,
    hunresolved.trans hs.unresolved, fun slot hslot hrequired => ?_, fun b hb => ?_,
    fun b hb b' hb' group hgroup hgroup' => ?_⟩
  · rw [resolved_slots, List.mem_filter]
    exact ⟨hslot, decide_eq_true (hs.optional slot hslot hrequired)⟩
  · obtain ⟨hslot, hresolve⟩ := hmem b hb
    exact .of_resolve hresolve (hs.accepts b.1 hslot b.2 hresolve)
  · obtain ⟨hslot, hresolve⟩ := hmem b hb
    obtain ⟨hslot', hresolve'⟩ := hmem b' hb'
    obtain ⟨first, hget⟩ := hs.tied b.1 hslot b.2 group hresolve hgroup
    obtain ⟨first', hget'⟩ := hs.tied b'.1 hslot' b'.2 group hresolve' hgroup'
    rw [hget] at hget'
    exact (Prod.mk.inj (Option.some.inj hget')).2

theorem bind_partitions_tied : ∃ plan, Binder.bind {} tiedPackage tiedCatalog = .ok plan ∧
    plan.unresolvedOptionalSlots = ["rope_freqs.weight"] ∧
      ∃ bound : List (ParameterSlot × LogicalParameter),
        plan.bindings = bound.map (fun b => Binder.parameterBinding {} b.1 b.2) ∧
        bound.map (·.1.id) = ["token_embd.weight", "output.weight"] ∧
        (∀ b ∈ bound, BoundAs tiedCatalog.parameters b.1 b.2) ∧
        ∀ b ∈ bound, ∀ b' ∈ bound, ∀ group, b.1.tiedGroup = some group → b'.1.tiedGroup = some group →
          b.2.logicalType.shape = b'.2.logicalType.shape := by
  obtain ⟨plan, hplan, -⟩ := Fallible.exists_ok (p := fun _ => true) (x := Binder.bind {} tiedPackage tiedCatalog) (by decide)
  obtain ⟨bound, hbindings, hslots, hunresolved, -, hbound, htied⟩ := bind_partitions hplan
  refine ⟨plan, hplan, hunresolved.trans (by decide), bound, hbindings, ?_, hbound, htied⟩
  have hids : bound.map (·.1.id) = (bound.map Prod.fst).map (·.id) := by rw [List.map_map]; rfl
  rw [hids, hslots]
  decide

/-! ## Alignment -/

/-- Every byte range starts at a multiple of its component's own alignment, which is not zero. -/
def LogicalParameter.AlignsOwn (param : LogicalParameter) : Prop :=
  ∀ component ∈ param.components, component.alignment ≠ 0 ∧
    ∀ range ∈ component.byteRanges, component.alignment ∣ range.offset

/-- **Each component's alignment is respected exactly where the first one's implies it or the ranges meet it.**
The binder tests every range against the alignment of the parameter's first component, so a component
whose alignment does not divide that one is not tested. -/
theorem bind_aligns_iff {binder : Binder} {architecture : ArchitecturePackage} {catalog : CheckpointCatalog}
    {plan : BindingPlan} (h : binder.bind architecture catalog = .ok plan) :
    (∀ slot ∈ architecture.graph.parameterSlots, ∀ param,
        (byName catalog.parameters).get slot.canonicalName = some param → param.AlignsOwn) ↔
      ∀ slot ∈ architecture.graph.parameterSlots, ∀ param,
        (byName catalog.parameters).get slot.canonicalName = some param →
          ∀ component ∈ param.components, ¬ component.alignment ∣ param.alignment →
            component.alignment ≠ 0 ∧ ∀ range ∈ component.byteRanges, component.alignment ∣ range.offset := by
  obtain ⟨s, hs, -⟩ := Binder.bind_covers h
  simp only [byName_get]
  constructor
  · exact fun haligns slot hslot param hresolve component hcomponent _ => haligns slot hslot param hresolve component hcomponent
  · intro hrest slot hslot param hresolve component hcomponent
    have haccepts := hs.accepts slot hslot param hresolve
    by_cases hdvd : component.alignment ∣ param.alignment
    · refine ⟨fun hzero => ?_, fun range hrange => hdvd.trans (haccepts.offsets component hcomponent range hrange)⟩
      rw [hzero, Nat.zero_dvd] at hdvd
      exact haccepts.alignment hdvd
    · exact hrest slot hslot param hresolve component hcomponent hdvd

theorem bind_aligns_tied : ∃ plan, Binder.bind {} tiedPackage tiedCatalog = .ok plan ∧
    ∀ slot ∈ tiedPackage.graph.parameterSlots, ∀ param,
      (byName tiedCatalog.parameters).get slot.canonicalName = some param → param.AlignsOwn := by
  obtain ⟨plan, hplan, -⟩ := Fallible.exists_ok (p := fun _ => true) (x := Binder.bind {} tiedPackage tiedCatalog) (by decide)
  -- The scales ask for a multiple of four, which the codes before them do not imply.
  have hrest : ∀ param ∈ tiedCatalog.parameters, ∀ component ∈ param.components,
      ¬ component.alignment ∣ param.alignment →
        component.alignment ≠ 0 ∧ ∀ range ∈ component.byteRanges, component.alignment ∣ range.offset := by decide
  refine ⟨plan, hplan, (bind_aligns_iff hplan).mpr fun slot hslot param hget => ?_⟩
  rw [byName_get] at hget
  exact hrest param (mem_of_resolve hget)

/-- A quantized tensor whose codes lie at any byte and whose scales ask for a multiple of four. -/
def scaledCatalog : CheckpointCatalog where
  sourceFiles := [{ path := "model.bin", sizeBytes := 6 }]
  metadata := []
  parameters := [{ canonicalName := "output_norm.weight", role := .norm
                   logicalType := { shape := [4], elementType := .f32 }
                   encoding := .blockQuantized { logicalType := .f32, blockShape := [4], bytesPerBlock := 6
                                                 codec := "scaled", codecVersion := 1
                                                 components := ["codes", "scales"], layout := []
                                                 order := .rowMajor, endianness := .little }
                   components := [
                     { name := "codes", key := "codes", sourceFileIndex := 0, shape := [2], storageType := .scalar .u8
                       byteRanges := [{ offset := 0, length := 2 }], alignment := 1 },
                     { name := "scales", key := "scales", sourceFileIndex := 0, shape := [1], storageType := .scalar .f32
                       byteRanges := [{ offset := 2, length := 4 }], alignment := 4 }]
                   aliases := [] }]
  schemaFingerprint := { digest := "", entryCount := 1, totalBytes := 6 }

/-- The scales lie at byte 2, and the tensor is bound. -/
theorem bind_misaligned : ∃ plan, Binder.bind {} oneSlotPackage scaledCatalog = .ok plan ∧
    ∃ slot ∈ oneSlotPackage.graph.parameterSlots, ∃ param,
      (byName scaledCatalog.parameters).get slot.canonicalName = some param ∧ ¬ param.AlignsOwn := by
  obtain ⟨plan, hplan, -⟩ := Fallible.exists_ok (p := fun _ => true)
    (x := Binder.bind {} oneSlotPackage scaledCatalog) (by decide)
  refine ⟨plan, hplan, _, List.mem_singleton_self _, _, rfl, fun haligns => ?_⟩
  have hscales := (haligns _ (List.mem_cons_of_mem _ (List.mem_singleton_self _))).2 _ (List.mem_singleton_self _)
  exact absurd hscales (by decide)

end Dyninfer
