/-
The binding and the provider plan of one catalog. The binder resolves a slot to
the last parameter of its name, or to the first that carries the name as an
alias; the plan looks for the first parameter of the name. Where every component
has one range within its file, the plan describes what was bound exactly when
these two finds agree on every component, and no two bound components share an
external key.
-/
import Mathlib.Data.List.Nodup
import Dyninfer.Binding.SlotChecks
import Dyninfer.Checkpoint.Provider

namespace Dyninfer

/-- What a slot's name means to the binder. -/
def resolve (parameters : List LogicalParameter) (name : String) : Option LogicalParameter :=
  (parameters.reverse.find? (·.canonicalName == name)).or (parameters.find? (name ∈ ·.aliases))

theorem get_aliases (m : AssocMap String LogicalParameter) (param : LogicalParameter) (keys : List String) (name : String) :
    (keys.foldl (fun m key => m.orInsert key param) m).get name =
      (m.get name).or (if name ∈ keys then some param else none) := by
  induction keys generalizing m with
  | nil => simp
  | cons key keys ih =>
    rw [List.foldl_cons, ih, AssocMap.get_orInsert, Option.or_assoc]
    congr 1
    by_cases h : name = key <;> simp [h]

theorem byName_get (parameters : List LogicalParameter) (name : String) :
    (byName parameters).get name = resolve parameters name := by
  have haliases : ∀ (m : AssocMap String LogicalParameter),
      (parameters.foldl (fun m p => p.aliases.foldl (fun m key => m.orInsert key p) m) m).get name =
        (m.get name).or (parameters.find? (name ∈ ·.aliases)) := by
    induction parameters with
    | nil => intro m; simp
    | cons param parameters ih =>
      intro m
      rw [List.foldl_cons, ih, get_aliases, Option.or_assoc, List.find?_cons]
      congr 1
      by_cases h : name ∈ param.aliases <;> simp [h]
  rw [byName, haliases, resolve, AssocMap.get_insertAll, Option.map_id]
  simp only [AssocMap.get, List.lookup_nil, Option.or_none, id]

theorem mem_of_resolve {parameters : List LogicalParameter} {name : String} {param : LogicalParameter}
    (h : resolve parameters name = some param) : param ∈ parameters := by
  obtain h | ⟨-, h⟩ := Option.or_eq_some_iff.mp h
  · exact List.mem_reverse.mp (List.mem_of_find?_eq_some h)
  · exact List.mem_of_find?_eq_some h

/-! ## What is bound -/

/-- The slots that resolve, each with its parameter. -/
def resolved (slots : List ParameterSlot) (parameters : List LogicalParameter) :
    List (ParameterSlot × LogicalParameter) :=
  slots.filterMap fun slot => (resolve parameters slot.canonicalName).map (slot, ·)

theorem mem_resolved {slots : List ParameterSlot} {parameters : List LogicalParameter} {slot : ParameterSlot}
    {param : LogicalParameter} :
    (slot, param) ∈ resolved slots parameters ↔ slot ∈ slots ∧ resolve parameters slot.canonicalName = some param := by
  simp only [resolved, List.mem_filterMap, Option.map_eq_some_iff, Prod.mk.injEq]
  constructor
  · rintro ⟨_, hslot, _, hresolve, rfl, rfl⟩
    exact ⟨hslot, hresolve⟩
  · rintro ⟨hslot, hresolve⟩
    exact ⟨slot, hslot, param, hresolve, rfl, rfl⟩

theorem resolved_slots_sublist (slots : List ParameterSlot) (parameters : List LogicalParameter) :
    ((resolved slots parameters).map Prod.fst).Sublist slots := by
  induction slots with
  | nil => exact List.Sublist.refl _
  | cons slot slots ih =>
    rw [resolved, List.filterMap_cons]
    cases resolve parameters slot.canonicalName with
    | none => exact ih.cons slot
    | some param => exact ih.cons_cons slot

namespace Binder

variable {binder : Binder} {parameters : List LogicalParameter}

theorem bindSlot_ok {slot : ParameterSlot} {found : Option ParameterBinding}
    (h : binder.bindSlot slot (byName parameters) = .ok found) :
    found = (resolve parameters slot.canonicalName).map (binder.parameterBinding slot) := by
  rw [← byName_get]
  exact (bindSlot_ok_iff.mp h).2

theorem bindNext_bindings {s s' : BindState} {slot : ParameterSlot}
    (h : binder.bindNext (byName parameters) s slot = .ok s') :
    s'.bindings = s.bindings ++ ((resolve parameters slot.canonicalName).map (binder.parameterBinding slot)).toList := by
  obtain ⟨found, hfound, h⟩ := Fallible.bind_ok h
  rw [← bindSlot_ok hfound]
  cases found with
  | some binding =>
    obtain ⟨_, -, h⟩ := Fallible.bind_ok h
    cases h
    rfl
  | none =>
    simp only [Option.toList_none, List.append_nil]
    cases hoptional : slot.optional with
    | true => rw [hoptional] at h; cases h; rfl
    | false => rw [hoptional] at h; cases h

/-- A required slot resolves. -/
theorem bind_resolves {architecture : ArchitecturePackage} {catalog : CheckpointCatalog} {plan : BindingPlan}
    (h : binder.bind architecture catalog = .ok plan) {slot : ParameterSlot}
    (hslot : slot ∈ architecture.graph.parameterSlots) (hrequired : slot.optional = false) :
    ∃ param, resolve catalog.parameters slot.canonicalName = some param := by
  obtain ⟨s, hs, -⟩ := Fallible.bind_ok h
  have hstep (s : BindState) (slot : ParameterSlot) (s' : BindState) (hnext :
      binder.bindNext (byName catalog.parameters) s slot = .ok s') (hrequired : slot.optional = false) :
      ∃ param, resolve catalog.parameters slot.canonicalName = some param := by
    obtain ⟨found, hfound, hnext⟩ := Fallible.bind_ok hnext
    cases hresolve : resolve catalog.parameters slot.canonicalName with
    | some param => exact ⟨param, rfl⟩
    | none =>
      rw [bindSlot_ok hfound, hresolve, hrequired] at hnext
      cases hnext
  exact (Fallible.foldlM_ok (I := fun _ => True) (fun s slot s' _ _ hnext => ⟨trivial, hstep s slot s' hnext⟩) trivial
    hs).2 slot hslot hrequired

theorem bind_bindings {architecture : ArchitecturePackage} {catalog : CheckpointCatalog} {plan : BindingPlan}
    (h : binder.bind architecture catalog = .ok plan) :
    plan.bindings = (resolved architecture.graph.parameterSlots catalog.parameters).map
      fun (slot, param) => binder.parameterBinding slot param := by
  have hrun : ∀ (slots : List ParameterSlot) (s s' : BindState),
      slots.foldlM (binder.bindNext (byName catalog.parameters)) s = .ok s' →
        s'.bindings = s.bindings ++ (resolved slots catalog.parameters).map
          fun (slot, param) => binder.parameterBinding slot param := by
    intro slots
    induction slots with
    | nil =>
      intro s s' h
      cases h
      simp [resolved]
    | cons slot slots ih =>
      intro s s' h
      rw [List.foldlM_cons] at h
      obtain ⟨s₁, hs₁, h⟩ := Fallible.bind_ok h
      rw [ih s₁ s' h, bindNext_bindings hs₁, List.append_assoc, resolved, resolved, List.filterMap_cons]
      cases resolve catalog.parameters slot.canonicalName <;> rfl
  obtain ⟨s, hs, h⟩ := Fallible.bind_ok h
  cases h
  simpa using hrun _ _ _ hs

theorem mem_bindings_iff {architecture : ArchitecturePackage} {catalog : CheckpointCatalog} {plan : BindingPlan}
    (h : binder.bind architecture catalog = .ok plan) {binding : ParameterBinding} :
    binding ∈ plan.bindings ↔ ∃ slot ∈ architecture.graph.parameterSlots, ∃ param,
      resolve catalog.parameters slot.canonicalName = some param ∧ binding = binder.parameterBinding slot param := by
  rw [bind_bindings h, List.mem_map]
  constructor
  · rintro ⟨⟨slot, param⟩, hmem, rfl⟩
    obtain ⟨hslot, hresolve⟩ := mem_resolved.mp hmem
    exact ⟨slot, hslot, param, hresolve, rfl⟩
  · rintro ⟨slot, hslot, param, hresolve, rfl⟩
    exact ⟨(slot, param), mem_resolved.mpr ⟨hslot, hresolve⟩, rfl⟩

end Binder

/-! ## What the plan describes -/

/-- Every component of the catalog has one non-empty range within its file, as `u64` counts it. -/
def CheckpointCatalog.WellRanged (catalog : CheckpointCatalog) : Prop :=
  ∀ param ∈ catalog.parameters, ∀ component ∈ param.components, ∃ range source,
    component.byteRanges = [range] ∧ catalog.sourceFiles[component.sourceFileIndex]? = some source ∧
      range.length ≠ 0 ∧ range.offset + range.length ≤ source.sizeBytes ∧ range.offset + range.length < 2 ^ 64

/-- A descriptor of a component's bytes, under the key it is bound to. -/
def descriptor (componentBinding : ParameterComponentBinding) (component : StorageComponent) (range : ByteRange) :
    ProviderParameterDescriptor where
  externalKey := componentBinding.externalKey
  aliases := [componentBinding.checkpointKey]
  sourceFileIndex := component.sourceFileIndex
  offset := range.offset
  length := range.length

/-- The external keys are pairwise distinct. -/
def KeysDistinct (descriptors : List ProviderParameterDescriptor) : Prop := (descriptors.map (·.externalKey)).Nodup

theorem KeysDistinct.left {descriptors more : List ProviderParameterDescriptor} (h : KeysDistinct (descriptors ++ more)) :
    KeysDistinct descriptors := by
  rw [KeysDistinct, List.map_append] at h
  exact (List.nodup_append.mp h).1

theorem keysDistinct_snoc {descriptors : List ProviderParameterDescriptor} {d : ProviderParameterDescriptor} :
    KeysDistinct (descriptors ++ [d]) ↔ KeysDistinct descriptors ∧ d.externalKey ∉ descriptors.map (·.externalKey) := by
  rw [KeysDistinct, List.map_append, List.map_singleton, List.nodup_append]
  constructor
  · rintro ⟨hkeys, -, hne⟩
    exact ⟨hkeys, fun hmem => hne _ hmem _ List.mem_cons_self rfl⟩
  · rintro ⟨hkeys, hnew⟩
    refine ⟨hkeys, List.pairwise_singleton .., fun key hkey key' hkey' heq => hnew ?_⟩
    rwa [← List.mem_singleton.mp hkey', ← heq]

section plan

variable {catalog : CheckpointCatalog}

/-- What one bound component contributes. -/
def DescribesComponent (catalog : CheckpointCatalog) (bound : ParameterBinding) (parameter : LogicalParameter)
    (componentBinding : ParameterComponentBinding) (descriptors : List ProviderParameterDescriptor) : Prop :=
  ∃ component range, planComponent bound parameter componentBinding = .ok component ∧
    planRange bound componentBinding component = .ok range ∧ checkRange catalog bound component range = .ok () ∧
    descriptors = [descriptor componentBinding component range]

theorem planDescriptor_iff {bound : ParameterBinding} {parameter : LogicalParameter}
    {componentBinding : ParameterComponentBinding} {acc acc' : List ProviderParameterDescriptor} (hacc : KeysDistinct acc) :
    planDescriptor catalog bound parameter acc componentBinding = .ok acc' ↔
      ∃ descriptors, DescribesComponent catalog bound parameter componentBinding descriptors ∧
        KeysDistinct (acc ++ descriptors) ∧ acc' = acc ++ descriptors := by
  constructor
  · intro h
    obtain ⟨component, hcomponent, h⟩ := Fallible.bind_ok h
    obtain ⟨range, hrange, h⟩ := Fallible.bind_ok h
    obtain ⟨_, hcheck, h⟩ := Fallible.bind_ok h
    by_cases hkey : componentBinding.externalKey ∈ acc.map (·.externalKey)
    · rw [if_pos hkey] at h
      cases h
    · rw [if_neg hkey] at h
      cases h
      exact ⟨_, ⟨component, range, hcomponent, hrange, hcheck, rfl⟩, keysDistinct_snoc.mpr ⟨hacc, hkey⟩, rfl⟩
  · rintro ⟨_, ⟨component, range, hcomponent, hrange, hcheck, rfl⟩, hdistinct, rfl⟩
    have hkey : componentBinding.externalKey ∉ acc.map (·.externalKey) := (keysDistinct_snoc.mp hdistinct).2
    simp only [planDescriptor, hcomponent, hrange, hcheck, bind, Except.bind, if_neg hkey]
    rfl

theorem planComponent_iff {bound : ParameterBinding} {parameter : LogicalParameter}
    {componentBinding : ParameterComponentBinding} {component : StorageComponent} :
    planComponent bound parameter componentBinding = .ok component ↔
      parameter.components.find? (fun component => component.name == componentBinding.componentName &&
        component.key == componentBinding.checkpointKey) = some component ∧
      component.sourceFileIndex = componentBinding.sourceFileIndex := by
  unfold planComponent
  split
  · next found hfound =>
    rw [hfound, Option.some_inj]
    split
    · next hne => exact ⟨nofun, fun ⟨heq, hindex⟩ => absurd (heq ▸ hindex) hne⟩
    · next hindex =>
      rw [Except.ok.injEq]
      exact ⟨fun heq => ⟨heq, heq ▸ not_not.mp hindex⟩, And.left⟩
  · next hnone => exact ⟨nofun, fun ⟨h, _⟩ => by rw [hnone] at h; cases h⟩

theorem planRange_iff {bound : ParameterBinding} {componentBinding : ParameterComponentBinding}
    {component : StorageComponent} {range : ByteRange} :
    planRange bound componentBinding component = .ok range ↔
      component.byteRanges = [range] ∧ componentBinding.byteLengths = [range.length] := by
  unfold planRange
  split
  · next only honly =>
    rw [honly, List.singleton_inj]
    split
    · next hne => exact ⟨nofun, fun ⟨heq, hlengths⟩ => absurd (heq ▸ hlengths) hne⟩
    · next hlengths =>
      rw [Except.ok.injEq]
      exact ⟨fun heq => ⟨heq, heq ▸ not_not.mp hlengths⟩, And.left⟩
  · next hother => exact ⟨nofun, fun ⟨h, _⟩ => absurd h (hother range)⟩

theorem checkRange_ok {bound : ParameterBinding} {component : StorageComponent} {range : ByteRange} {source : SourceFile}
    (hsource : catalog.sourceFiles[component.sourceFileIndex]? = some source) (hlength : range.length ≠ 0)
    (hsize : range.offset + range.length ≤ source.sizeBytes) (hu64 : range.offset + range.length < 2 ^ 64) :
    checkRange catalog bound component range = .ok () := by
  rw [checkRange, hsource]
  simp only [ge_iff_le, not_le.mpr hu64, if_false, hlength, false_or, gt_iff_lt, not_lt.mpr hsize]

/-- What one bound parameter contributes. -/
def DescribesBound (catalog : CheckpointCatalog) (bound : ParameterBinding)
    (descriptors : List ProviderParameterDescriptor) : Prop :=
  ∃ parameter parts, planParameter catalog bound = .ok parameter ∧
    List.Forall₂ (DescribesComponent catalog bound parameter) bound.components parts ∧ descriptors = parts.flatten

theorem planBound_iff {bound : ParameterBinding} {acc acc' : List ProviderParameterDescriptor} (hacc : KeysDistinct acc) :
    planBound catalog acc bound = .ok acc' ↔ ∃ descriptors, DescribesBound catalog bound descriptors ∧
      KeysDistinct (acc ++ descriptors) ∧ acc' = acc ++ descriptors := by
  have hcomponents : ∀ parameter, bound.components.foldlM (planDescriptor catalog bound parameter) acc = .ok acc' ↔
      ∃ parts, List.Forall₂ (DescribesComponent catalog bound parameter) bound.components parts ∧
        KeysDistinct (acc ++ parts.flatten) ∧ acc' = acc ++ parts.flatten := by
    intro parameter
    refine Fallible.foldlM_append_iff KeysDistinct.left (fun acc component acc' _ hacc => ?_) hacc
    exact planDescriptor_iff hacc
  rw [planBound, Fallible.bind_ok_iff]
  constructor
  · rintro ⟨parameter, hparameter, h⟩
    obtain ⟨parts, hparts, hdistinct, rfl⟩ := (hcomponents parameter).mp h
    exact ⟨_, ⟨parameter, parts, hparameter, hparts, rfl⟩, hdistinct, rfl⟩
  · rintro ⟨_, ⟨parameter, parts, hparameter, hparts, rfl⟩, hdistinct, rfl⟩
    exact ⟨parameter, hparameter, (hcomponents parameter).mpr ⟨parts, hparts, hdistinct, rfl⟩⟩

/-- A plan is built of what each bound parameter contributes, under distinct keys. -/
theorem buildRuntimeProviderPlan_iff {binding : BindingPlan} {descriptors : List ProviderParameterDescriptor} :
    (∃ plan, buildRuntimeProviderPlan catalog binding = .ok plan ∧ plan.parameters.Perm descriptors) ↔
      catalog.sourceFiles ≠ [] ∧ KeysDistinct descriptors ∧ ∃ parts,
        List.Forall₂ (DescribesBound catalog) binding.bindings parts ∧ parts.flatten.Perm descriptors := by
  have hrun : ∀ acc', binding.bindings.foldlM (planBound catalog) [] = .ok acc' ↔
      ∃ parts, List.Forall₂ (DescribesBound catalog) binding.bindings parts ∧
        KeysDistinct ([] ++ parts.flatten) ∧ acc' = [] ++ parts.flatten := by
    intro acc'
    refine Fallible.foldlM_append_iff KeysDistinct.left (fun acc bound acc' _ hacc => ?_) List.nodup_nil
    exact planBound_iff hacc
  have hkeys : ∀ {xs ys : List ProviderParameterDescriptor}, xs.Perm ys → KeysDistinct xs → KeysDistinct ys :=
    fun hperm hdistinct => (hperm.map _).nodup hdistinct
  constructor
  · rintro ⟨plan, hplan, hperm⟩
    unfold buildRuntimeProviderPlan at hplan
    split at hplan
    · cases hplan
    · next hsources =>
      obtain ⟨acc, hacc, h⟩ := Fallible.bind_ok hplan
      obtain ⟨parts, hparts, hdistinct, rfl⟩ := (hrun acc).mp hacc
      cases h
      have hflat : parts.flatten.Perm descriptors := (List.mergeSort_perm _ _).symm.trans hperm
      exact ⟨fun hnil => hsources (List.isEmpty_iff.mpr hnil), hkeys hflat hdistinct, parts, hparts, hflat⟩
  · rintro ⟨hsources, hdistinct, parts, hparts, hflat⟩
    have hacc := (hrun parts.flatten).mpr ⟨parts, hparts, hkeys hflat.symm hdistinct, rfl⟩
    obtain ⟨source, sources, hcons⟩ := List.exists_cons_of_ne_nil hsources
    refine ⟨_, by simp only [buildRuntimeProviderPlan, hcons, List.isEmpty_cons, hacc]; rfl, ?_⟩
    exact (List.mergeSort_perm _ _).trans hflat

end plan

/-! ## The agreement -/

/-- The descriptors of a parameter's own components. -/
def Binder.descriptors (binder : Binder) (param : LogicalParameter) : List ProviderParameterDescriptor :=
  param.components.flatMap fun component =>
    component.byteRanges.map (descriptor (binder.componentBinding param component) component)

/-- The descriptors of what the slots resolve to. -/
def Binder.boundDescriptors (binder : Binder) (slots : List ParameterSlot) (parameters : List LogicalParameter) :
    List ProviderParameterDescriptor :=
  (resolved slots parameters).flatMap fun (_, param) => binder.descriptors param

/-- The condition under which the plan finds what was bound. -/
structure PlanFinds (binder : Binder) (slots : List ParameterSlot) (catalog : CheckpointCatalog) : Prop where
  sources : catalog.sourceFiles ≠ []
  /-- A parameter of the slot's own name comes first with every component of the one that is bound. -/
  first : ∀ slot ∈ slots, ∀ param, resolve catalog.parameters slot.canonicalName = some param →
    ∃ found, catalog.parameters.find? (·.canonicalName == slot.canonicalName) = some found ∧
      ∀ component ∈ param.components, ∃ same,
        found.components.find? (fun c => c.name == component.name && c.key == component.key) = some same ∧
          same.sourceFileIndex = component.sourceFileIndex ∧ same.byteRanges = component.byteRanges
  keys : ((resolved slots catalog.parameters).flatMap fun (_, param) =>
    param.components.map (binder.externalKey param)).Nodup

/-- One descriptor for each component, under its external key. -/
theorem descriptors_eq {binder : Binder} {param : LogicalParameter} {catalog : CheckpointCatalog}
    (hranges : catalog.WellRanged) (hparam : param ∈ catalog.parameters) :
    (binder.descriptors param).map (·.externalKey) = param.components.map (binder.externalKey param) := by
  rw [Binder.descriptors, List.map_flatMap, ← List.flatMap_pure_eq_map]
  refine List.flatMap_congr fun component hcomponent => ?_
  obtain ⟨range, _, hrange, -⟩ := hranges param hparam component hcomponent
  rw [hrange]
  rfl

theorem keysDistinct_boundDescriptors {binder : Binder} {slots : List ParameterSlot} {catalog : CheckpointCatalog}
    (hranges : catalog.WellRanged) :
    KeysDistinct (binder.boundDescriptors slots catalog.parameters) ↔
      ((resolved slots catalog.parameters).flatMap fun (_, param) =>
        param.components.map (binder.externalKey param)).Nodup := by
  rw [KeysDistinct, Binder.boundDescriptors, List.map_flatMap]
  refine iff_of_eq (congrArg _ (List.flatMap_congr fun (slot, param) hmem => ?_))
  exact descriptors_eq hranges (mem_of_resolve (mem_resolved.mp hmem).2)

/-- **The plan describes what the binder bound, exactly where it finds it.** For a catalog whose components
each have one range within a file: the provider plan of a binding is built, and its descriptors are those of
the components of the very parameters the slots resolved to, if and only if each of these slots' names
finds first a parameter with those components at the same place, and the external keys are distinct. -/
theorem plan_follows_iff {binder : Binder} {architecture : ArchitecturePackage} {catalog : CheckpointCatalog}
    {plan : BindingPlan} (hbind : binder.bind architecture catalog = .ok plan) (hranges : catalog.WellRanged) :
    (∃ runtimePlan, buildRuntimeProviderPlan catalog plan = .ok runtimePlan ∧
        runtimePlan.parameters.Perm (binder.boundDescriptors architecture.graph.parameterSlots catalog.parameters)) ↔
      PlanFinds binder architecture.graph.parameterSlots catalog := by
  rw [buildRuntimeProviderPlan_iff, Binder.bind_bindings hbind, keysDistinct_boundDescriptors hranges]
  constructor
  · rintro ⟨hsources, hkeys, parts, hparts, hperm⟩
    refine ⟨hsources, fun slot hslot param hresolve => ?_, hkeys⟩
    have hmem := mem_resolved.mpr ⟨hslot, hresolve⟩
    obtain ⟨descriptors, hdescriptors, found, bound, hfound, hbound, rfl⟩ :=
      Fallible.exists_of_forall₂ hparts (List.mem_map_of_mem hmem)
    have hname : catalog.parameters.find? (·.canonicalName == slot.canonicalName) = some found := by
      unfold planParameter at hfound
      split at hfound <;> cases hfound
      assumption
    refine ⟨found, hname, fun component hcomponent => ?_⟩
    obtain ⟨range, source, hrange, -⟩ := hranges param (mem_of_resolve hresolve) component hcomponent
    obtain ⟨part, hpart, same, range', hsame, hrange', -, rfl⟩ :=
      Fallible.exists_of_forall₂ hbound (List.mem_map_of_mem hcomponent)
    obtain ⟨hfind, hindex⟩ := planComponent_iff.mp hsame
    obtain ⟨honly, -⟩ := planRange_iff.mp hrange'
    refine ⟨same, hfind, hindex, ?_⟩
    -- Both descriptors of the component's key are the one among those bound.
    have hplanned : descriptor (binder.componentBinding param component) same range' ∈
        binder.boundDescriptors architecture.graph.parameterSlots catalog.parameters :=
      hperm.subset (List.mem_flatten.mpr ⟨_, hdescriptors, List.mem_flatten.mpr ⟨_, hpart, List.mem_cons_self⟩⟩)
    have hown : descriptor (binder.componentBinding param component) component range ∈
        binder.boundDescriptors architecture.graph.parameterSlots catalog.parameters :=
      List.mem_flatMap.mpr ⟨_, hmem, List.mem_flatMap.mpr ⟨_, hcomponent, by rw [hrange]; exact List.mem_cons_self⟩⟩
    have heq := List.inj_on_of_nodup_map ((keysDistinct_boundDescriptors hranges).mpr hkeys) hplanned hown rfl
    have hsameRange : range' = range := by
      simp only [descriptor, ProviderParameterDescriptor.mk.injEq] at heq
      obtain ⟨-, -, -, hoffset, hlength⟩ := heq
      cases range'; cases range
      exact congr (congrArg _ hoffset) hlength
    rw [honly, hrange, hsameRange]
  · rintro ⟨hsources, hfirst, hkeys⟩
    refine ⟨hsources, hkeys, (resolved architecture.graph.parameterSlots catalog.parameters).map
      (fun (_, param) => binder.descriptors param), ?_, ?_⟩
    · refine List.forall₂_map_left_iff.mpr (Fallible.forall₂_map fun (slot, param) hmem => ?_)
      obtain ⟨hslot, hresolve⟩ := mem_resolved.mp hmem
      obtain ⟨found, hfound, hcomponents⟩ := hfirst slot hslot param hresolve
      refine ⟨found, param.components.map fun component =>
        component.byteRanges.map (descriptor (binder.componentBinding param component) component), ?_, ?_, ?_⟩
      · simp only [planParameter, Binder.parameterBinding, hfound]
      · refine List.forall₂_map_left_iff.mpr (Fallible.forall₂_map fun component hcomponent => ?_)
        obtain ⟨same, hfind, hindex, hsame⟩ := hcomponents component hcomponent
        obtain ⟨range, source, hrange, hsource, hlength, hsize, hu64⟩ :=
          hranges param (mem_of_resolve hresolve) component hcomponent
        refine ⟨same, range, planComponent_iff.mpr ⟨hfind, hindex⟩, planRange_iff.mpr ⟨hsame.trans hrange, ?_⟩,
          checkRange_ok (hindex ▸ hsource) hlength hsize hu64, ?_⟩
        · rw [Binder.componentBinding, hrange]; rfl
        · rw [hrange, List.map_singleton, descriptor, descriptor, hindex]
      · exact List.flatMap_def
    · rw [Binder.boundDescriptors, List.flatMap_def]

/-- An architecture of one slot. -/
def oneSlotPackage : ArchitecturePackage where
  id := "one.slot"
  revision := "1"
  graph := {
    version := 1, architectureId := "one.slot", values := [], operations := [], exports := []
    parameterSlots := [{ id := "output_norm.weight", canonicalName := "output_norm.weight", role := .norm
                         expectedType := { rank := some 1, shape := none, elementTypes := [] }
                         optional := false, tiedGroup := none }] }
  resolvedConfig := { values := [] }

/-- A checkpoint of one tensor. -/
def oneTensorCatalog (name : String) (aliases : List String) : CheckpointCatalog where
  sourceFiles := [{ path := "model.gguf", sizeBytes := 16 }]
  metadata := []
  parameters := [{ canonicalName := name, role := .norm, logicalType := { shape := [4], elementType := .f32 }
                   encoding := .plain .f32
                   components := [{ name := "data", key := name, sourceFileIndex := 0, shape := [4]
                                    storageType := .scalar .f32, byteRanges := [{ offset := 0, length := 16 }]
                                    alignment := 1 }]
                   aliases }]
  schemaFingerprint := { digest := "", entryCount := 1, totalBytes := 16 }

theorem oneTensorCatalog_wellRanged (name : String) (aliases : List String) :
    (oneTensorCatalog name aliases).WellRanged := by
  intro param hparam component hcomponent
  rw [List.mem_singleton.mp hparam] at hcomponent
  rw [List.mem_singleton.mp hcomponent]
  exact ⟨_, _, rfl, rfl, by decide, by decide, by decide⟩

/-- An architecture of an embedding, an output tied to it, and frequencies it can do without. -/
def tiedPackage : ArchitecturePackage where
  id := "tied"
  revision := "1"
  graph := {
    version := 1, architectureId := "tied", values := [], operations := [], exports := []
    parameterSlots := [
      { id := "token_embd.weight", canonicalName := "token_embd.weight", role := .embedding
        expectedType := { rank := some 2, shape := none, elementTypes := [] }
        optional := false, tiedGroup := some "embedding" },
      { id := "rope_freqs.weight", canonicalName := "rope_freqs.weight", role := .ropeFreqs
        expectedType := { rank := some 1, shape := none, elementTypes := [] }
        optional := true, tiedGroup := none },
      { id := "output.weight", canonicalName := "output.weight", role := .output
        expectedType := { rank := some 2, shape := some [2, 2], elementTypes := [.f32] }
        optional := false, tiedGroup := some "embedding" }] }
  resolvedConfig := { values := [] }

/-- A checkpoint of two files: a plain embedding in one, and in the other a quantized output whose codes stand
before its scales. -/
def tiedCatalog : CheckpointCatalog where
  sourceFiles := [{ path := "embedding.bin", sizeBytes := 16 }, { path := "output.bin", sizeBytes := 12 }]
  metadata := []
  parameters := [
    { canonicalName := "token_embd.weight", role := .embedding, logicalType := { shape := [2, 2], elementType := .f32 }
      encoding := .plain .f32
      components := [{ name := "data", key := "embed", sourceFileIndex := 0, shape := [2, 2], storageType := .scalar .f32
                       byteRanges := [{ offset := 0, length := 16 }], alignment := 4 }]
      aliases := ["embed"] },
    { canonicalName := "output.weight", role := .output, logicalType := { shape := [2, 2], elementType := .f32 }
      encoding := .blockQuantized { logicalType := .f32, blockShape := [4], bytesPerBlock := 6
                                    codec := "scaled", codecVersion := 1
                                    components := ["codes", "scales"], layout := []
                                    order := .rowMajor, endianness := .little }
      components := [
        { name := "codes", key := "output.codes", sourceFileIndex := 1, shape := [2], storageType := .scalar .u8
          byteRanges := [{ offset := 2, length := 2 }], alignment := 2 },
        { name := "scales", key := "output.scales", sourceFileIndex := 1, shape := [1], storageType := .scalar .f32
          byteRanges := [{ offset := 8, length := 4 }], alignment := 4 }]
      aliases := [] }]
  schemaFingerprint := { digest := "", entryCount := 3, totalBytes := 22 }

theorem tiedCatalog_wellRanged : tiedCatalog.WellRanged := by
  simp [CheckpointCatalog.WellRanged, tiedCatalog]

theorem tiedCatalog_planFinds : PlanFinds {} tiedPackage.graph.parameterSlots tiedCatalog where
  sources := by decide
  first slot hslot param hresolve := by
    have hfirst : ∀ entry ∈ resolved tiedPackage.graph.parameterSlots tiedCatalog.parameters,
        ∃ found ∈ tiedCatalog.parameters,
          tiedCatalog.parameters.find? (·.canonicalName == entry.1.canonicalName) = some found ∧
            ∀ component ∈ entry.2.components, ∃ same ∈ found.components,
              found.components.find? (fun c => c.name == component.name && c.key == component.key) = some same ∧
                same.sourceFileIndex = component.sourceFileIndex ∧ same.byteRanges = component.byteRanges := by decide
    obtain ⟨found, -, hfound, hcomponents⟩ := hfirst _ (mem_resolved.mpr ⟨hslot, hresolve⟩)
    refine ⟨found, hfound, fun component hcomponent => ?_⟩
    obtain ⟨same, -, hsame⟩ := hcomponents component hcomponent
    exact ⟨same, hsame⟩
  keys := by decide

theorem plan_follows_tied : ∃ plan runtimePlan, Binder.bind {} tiedPackage tiedCatalog = .ok plan ∧
    buildRuntimeProviderPlan tiedCatalog plan = .ok runtimePlan ∧
      runtimePlan.parameters.Perm (Binder.boundDescriptors {} tiedPackage.graph.parameterSlots tiedCatalog.parameters) := by
  obtain ⟨plan, hplan, -⟩ := Fallible.exists_ok (p := fun _ => true) (x := Binder.bind {} tiedPackage tiedCatalog) (by decide)
  obtain ⟨runtimePlan, hbuilt, hperm⟩ := (plan_follows_iff hplan tiedCatalog_wellRanged).mpr tiedCatalog_planFinds
  exact ⟨plan, runtimePlan, hplan, hbuilt, hperm⟩

/-- A slot that resolves through an alias is bound, and the plan does not find its parameter. -/
theorem plan_misses_alias :
    ¬ ∀ (binder : Binder) (architecture : ArchitecturePackage) (catalog : CheckpointCatalog) (plan : BindingPlan),
      binder.bind architecture catalog = .ok plan → catalog.WellRanged →
        ∃ runtimePlan, buildRuntimeProviderPlan catalog plan = .ok runtimePlan ∧
          runtimePlan.parameters.Perm (binder.boundDescriptors architecture.graph.parameterSlots catalog.parameters) := by
  intro h
  obtain ⟨plan, hplan, hfails⟩ := Fallible.exists_ok
    (p := fun plan => (buildRuntimeProviderPlan (oneTensorCatalog "norm" ["output_norm.weight"]) plan).toOption.isNone)
    (x := Binder.bind {} oneSlotPackage (oneTensorCatalog "norm" ["output_norm.weight"])) (by decide)
  obtain ⟨runtimePlan, hbuilt, -⟩ := h {} oneSlotPackage _ plan hplan (oneTensorCatalog_wellRanged _ _)
  rw [hbuilt] at hfails
  cases hfails

end Dyninfer
