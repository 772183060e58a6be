/-
What a load says of a bundle. A loaded model has the manifest that was written
and the metadata of the named checkpoint; and a bundle fits the checkpoint it
was compiled from, since the manifest's components are those of the plan.
-/
import Mathlib.Data.List.Dedup
import Dyninfer.Binding.PlanFacts
import Dyninfer.Runtime.BundleFacts
import Dyninfer.Runtime.LoadedModel

namespace Dyninfer

/-! ## A loaded model -/

section load

variable {digests : ContentDigests} {host : RuntimeHost} {checkpoint : CheckpointCatalog}

theorem openModel_ok {path : String} {artifacts : BundleArtifacts} {loaded : LoadedModel}
    (h : openModel digests host checkpoint path artifacts = .ok loaded) :
    ∃ catalog, ArchitectureRegistry.applyNaming digests.schema artifacts.manifest.architectureId checkpoint = .ok catalog ∧
      loaded.manifest = artifacts.manifest ∧ loaded.metadata = loadedMetadata artifacts.manifest catalog := by
  obtain ⟨catalog, hnaming, h⟩ := Fallible.bind_ok h
  obtain ⟨_, -, h⟩ := Fallible.bind_ok h
  obtain ⟨localTarget, -, h⟩ := Fallible.bind_ok h
  obtain ⟨_, -, h⟩ := Fallible.bind_ok h
  obtain ⟨_, -, h⟩ := Fallible.bind_ok h
  obtain ⟨providerPlan, -, h⟩ := Fallible.bind_ok h
  obtain ⟨_, -, h⟩ := Fallible.bind_ok h
  obtain ⟨_, -, h⟩ := Fallible.bind_ok h
  cases h
  exact ⟨catalog, hnaming, rfl, rfl⟩

/-- A load whose checks all pass. -/
theorem openModel_of {path : String} {artifacts : BundleArtifacts} {catalog : CheckpointCatalog} {target : TargetProfile}
    {providerPlan : RuntimeProviderPlan}
    (hnaming : ArchitectureRegistry.applyNaming digests.schema artifacts.manifest.architectureId checkpoint = .ok catalog)
    (hschema : catalog.schemaFingerprint.digest = artifacts.manifest.checkpointSchema.digest)
    (htarget : host.resolveTarget artifacts.manifest.target.runtimeDevice = .ok target)
    (hfingerprint : target.capabilityFingerprint = artifacts.manifest.target.capabilityFingerprint)
    (hderived : artifacts.manifest.derivedParametersRequired = false)
    (hprovider : buildRuntimeProviderPlan catalog artifacts.plan = .ok providerPlan)
    (hcomponents : (expectedComponents artifacts.manifest).sameEntries (actualComponents providerPlan) = true)
    (hopen : host.openExecutable artifacts providerPlan = .ok ()) :
    openModel digests host checkpoint path artifacts =
      .ok ⟨loadedMetadata artifacts.manifest catalog, artifacts.manifest, artifacts.plan, catalog⟩ := by
  simp only [openModel, hnaming, hschema, htarget, hfingerprint, hderived, hprovider, hcomponents, hopen,
    Fallible.ensure, if_true, bind, Except.bind]
  rfl

/-- A bundle written into a directory and loaded from it. -/
structure LoadsWritten (digests : ContentDigests) (host : RuntimeHost) (codec : BundleCodec)
    (checkpoint : CheckpointCatalog) (bundle : BundleArtifacts) (loaded : LoadedModel) : Prop where
  loads : ∃ prior dir path, Writes codec prior bundle dir ∧ loadModel digests host checkpoint path codec dir = .ok loaded
  manifest : codec.parseManifest (codec.renderManifest bundle.manifest) = .ok bundle.manifest
  plan : codec.parsePlan (codec.renderPlan bundle.plan) = .ok bundle.plan

theorem LoadsWritten.naming {codec : BundleCodec} {bundle : BundleArtifacts} {loaded : LoadedModel}
    (h : LoadsWritten digests host codec checkpoint bundle loaded) :
    ∃ catalog, ArchitectureRegistry.applyNaming digests.schema bundle.manifest.architectureId checkpoint = .ok catalog ∧
      loaded.manifest = bundle.manifest ∧ loaded.metadata = loadedMetadata bundle.manifest catalog := by
  obtain ⟨prior, dir, path, hwrites, hload⟩ := h.loads
  obtain ⟨artifacts, hartifacts, hopen⟩ := Fallible.bind_ok hload
  rw [loadBundle_eq hwrites.holds h.manifest h.plan] at hartifacts
  obtain ⟨_, -, hartifacts⟩ := Fallible.bind_ok hartifacts
  cases hartifacts
  have hloaded := openModel_ok hopen
  exact hloaded

end load

/-! ## The components of a bundle -/

/-- The keys and lengths of a plan's components. -/
def BindingPlan.componentLengths (plan : BindingPlan) : List ((String × String) × Nat) :=
  plan.bindings.flatMap fun binding => binding.components.map fun component =>
    ((binding.scope, component.externalKey), component.byteLengths.sum)

/-- The key and the length of a descriptor in the provider's scope. -/
def ProviderParameterDescriptor.entry (d : ProviderParameterDescriptor) : (String × String) × Nat :=
  (("weights", d.externalKey), d.length)

theorem DescribesBound.entries {catalog : CheckpointCatalog} {bound : ParameterBinding}
    {descriptors : List ProviderParameterDescriptor} (h : DescribesBound catalog bound descriptors)
    (hscope : bound.scope = "weights") :
    descriptors.map (·.entry) = bound.components.map fun component =>
      ((bound.scope, component.externalKey), component.byteLengths.sum) := by
  obtain ⟨parameter, parts, -, hparts, rfl⟩ := h
  revert hparts
  generalize bound.components = components
  intro hparts
  induction hparts with
  | nil => rfl
  | cons hpart _ ih =>
    obtain ⟨component, range, -, hrange, -, rfl⟩ := hpart
    obtain ⟨-, hlengths⟩ := planRange_iff.mp hrange
    rw [List.flatten_cons, List.map_append, ih, hscope, List.map_cons, List.map_cons, hlengths, List.sum_singleton]
    rfl

/-- The descriptors of a provider plan have the keys and lengths of the binding plan, in some order. -/
theorem provider_entries {catalog : CheckpointCatalog} {plan : BindingPlan} {providerPlan : RuntimeProviderPlan}
    (h : buildRuntimeProviderPlan catalog plan = .ok providerPlan) (hscope : ∀ b ∈ plan.bindings, b.scope = "weights") :
    (providerPlan.parameters.map (·.entry)).Perm plan.componentLengths ∧
      KeysDistinct providerPlan.parameters := by
  obtain ⟨-, hkeys, parts, hparts, hperm⟩ := buildRuntimeProviderPlan_iff.mp ⟨providerPlan, h, List.Perm.refl _⟩
  refine ⟨?_, hkeys⟩
  have hentries : parts.flatten.map (·.entry) = plan.componentLengths := by
    unfold BindingPlan.componentLengths
    revert hparts hscope
    generalize plan.bindings = bindings
    intro hscope hparts
    clear hperm hkeys h
    induction hparts with
    | nil => rfl
    | cons hpart _ ih =>
      rw [List.flatten_cons, List.map_append, hpart.entries (hscope _ List.mem_cons_self),
        ih fun b hb => hscope b (List.mem_cons_of_mem _ hb), List.flatMap_cons]
  rw [← hentries]
  exact hperm.symm.map _

/-- Where keys are distinct, the manifest has the components of the plan, in some order. -/
theorem manifestComponents_perm {plan : BindingPlan} (h : (plan.componentLengths.map Prod.fst).Nodup) :
    ((manifestComponents plan).map fun c => ((c.scope, c.key), c.byteLength)).Perm plan.componentLengths := by
  have hlengths : (plan.bindings.flatMap fun binding => binding.components.map fun component =>
      (⟨binding.scope, component.externalKey, component.byteLengths.sum⟩ : ManifestParameterComponent)).map
        (fun c => ((c.scope, c.key), c.byteLength)) = plan.componentLengths := by
    simp only [List.map_flatMap, List.map_map]
    rfl
  rw [← hlengths] at h ⊢
  unfold manifestComponents
  rw [List.dedup_eq_self.mpr ((List.mergeSort_perm _ _).nodup_iff.mpr (h.of_map _).of_map)]
  exact (List.mergeSort_perm _ _).map _

/-- **A bundle fits the checkpoint it was compiled from.** The component lengths its manifest expects are those
of the provider plan. -/
theorem components_match {package : ArchitecturePackage} {catalog : CheckpointCatalog} {plan : BindingPlan}
    (hbind : Binder.bind {} package catalog = .ok plan) {providerPlan : RuntimeProviderPlan}
    (hprovider : buildRuntimeProviderPlan catalog plan = .ok providerPlan) {manifest : ExecutableManifest}
    (hmanifest : manifest.parameterComponents = manifestComponents plan) :
    (expectedComponents manifest).sameEntries (actualComponents providerPlan) = true := by
  have hscope : ∀ b ∈ plan.bindings, b.scope = "weights" := by
    rw [Binder.bind_bindings hbind]
    intro b hb
    obtain ⟨_, -, rfl⟩ := List.mem_map.mp hb
    rfl
  obtain ⟨hprovided, hkeys⟩ := provider_entries hprovider hscope
  have hnodup : (plan.componentLengths.map Prod.fst).Nodup := by
    refine (hprovided.map _).nodup ?_
    have hweights : Function.Injective fun key : String => ("weights", key) := fun _ _ h => (Prod.mk.inj h).2
    have hmap := hkeys.map hweights
    rw [List.map_map] at hmap ⊢
    exact hmap
  refine AssocMap.sameEntries_of_get fun k => ?_
  have hexpected := manifestComponents_perm hnodup
  have hscopes : providerPlan.scope = "weights" := by
    unfold buildRuntimeProviderPlan at hprovider
    split at hprovider
    · cases hprovider
    · obtain ⟨_, -, h⟩ := Fallible.bind_ok hprovider
      cases h
      rfl
  unfold expectedComponents actualComponents
  rw [hmanifest, hscopes, ← AssocMap.insertAll_map (α := ManifestParameterComponent),
    ← AssocMap.insertAll_map (α := ProviderParameterDescriptor)]
  exact AssocMap.get_insertAll_perm ((hexpected.map _).symm.nodup hnodup) (hexpected.trans hprovided.symm) k

end Dyninfer
