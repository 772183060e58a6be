/-
A target that was resolved is resolved again from the device it names, so that
a bundle is never refused for its target where it was compiled; and where a
load accepts a bundle, the machine resolves the very target the bundle was
compiled for, as far as the digest tells targets apart.
-/
import Dyninfer.Runtime.KeyFacts
import Dyninfer.Runtime.LoadFacts
import Dyninfer.Target.DiscoveryFacts

namespace Dyninfer

open TargetProfile

namespace TargetDiscovery

/-- What the tool documents of the devices it prints: a GPU has a URI of its driver's, and no other GPU of the
driver has it. -/
structure NamedByUri (dump : String) : Prop where
  scheme : ∀ driver ∈ ["cuda", "hip"], ∀ uri ∈ urisFor driver (printed none (Text.lines dump)),
    ∃ word ∈ ["cuda", "hip", "rocm"], canonicalDriver word = driver ∧
      Text.startsWith (Text.toAsciiLowercase uri) (word ++ "://") = true
  distinct : ∀ driver ∈ ["cuda", "hip"], (urisFor driver (printed none (Text.lines dump))).Nodup

/-! ## URIs as specifications -/

section uri

variable {word uri : String} (hword : word ∈ ["cuda", "hip", "rocm"])
  (hscheme : Text.startsWith (Text.toAsciiLowercase uri) (word ++ "://") = true)

include hword hscheme

/-- A URI of a GPU asks for the device that has it. -/
theorem parseGpuRequest_uri : parseGpuRequest uri = some { driver := canonicalDriver word, uri := some uri } := by
  simp only [List.mem_cons, List.not_mem_nil, or_false] at hword
  unfold parseGpuRequest
  rcases hword with rfl | rfl | rfl
  · have hhip := Text.startsWith_eq_false hscheme (rfl : _ = some 'c') (rfl : "hip://".toList.head? = some 'h') (by decide)
    have hrocm := Text.startsWith_eq_false hscheme (rfl : _ = some 'c') (rfl : "rocm://".toList.head? = some 'r')
      (by decide)
    have hcuda : Text.startsWith (Text.toAsciiLowercase uri) "cuda://" = true := hscheme
    simp only [hhip, hrocm, hcuda, Bool.or_self, Bool.false_eq_true, if_false, if_true]
    rfl
  · have hhip : Text.startsWith (Text.toAsciiLowercase uri) "hip://" = true := hscheme
    simp only [hhip, Bool.true_or, if_true]
    rfl
  · have hrocm : Text.startsWith (Text.toAsciiLowercase uri) "rocm://" = true := hscheme
    simp only [hrocm, Bool.or_true, if_true]
    rfl

/-- It is no specification of the best device or of the host's processor. -/
theorem not_local_of_uri : uri ≠ "" ∧ uri ≠ "auto" ∧ isLocalSpec uri = false := by
  simp only [List.mem_cons, List.not_mem_nil, or_false] at hword
  have hne {spec : String} (h : ∀ word ∈ ["cuda", "hip", "rocm"], Text.startsWith (Text.toAsciiLowercase spec)
      (word ++ "://") = false) : uri ≠ spec := by
    rintro rfl
    rw [h word (by simpa using hword)] at hscheme
    exact Bool.false_ne_true hscheme
  have hlocal : Text.startsWith uri "local" = false := by
    refine Bool.eq_false_iff.mpr fun h => ?_
    have hhead := Text.startsWith_toAsciiLowercase h (rfl : "local".toList.head? = some 'l')
    rcases hword with rfl | rfl | rfl
    · rw [Text.head_of_startsWith hscheme (rfl : _ = some 'c')] at hhead
      exact absurd hhead (by decide)
    · rw [Text.head_of_startsWith hscheme (rfl : _ = some 'h')] at hhead
      exact absurd hhead (by decide)
    · rw [Text.head_of_startsWith hscheme (rfl : _ = some 'r')] at hhead
      exact absurd hhead (by decide)
  refine ⟨hne (by decide), hne (by decide), ?_⟩
  unfold isLocalSpec
  rw [hlocal, beq_false_of_ne (hne (by decide)), beq_false_of_ne (hne (by decide))]
  rfl

end uri

/-! ## Resolving again -/

section resolve

variable {host : HostFacts} {digests : ContentDigests} {dump : Except DynInferError String}

theorem readyProfile_ok {d : DiscoveredDevice} {target : TargetProfile} (h : readyProfile d = .ok target) :
    d.profile = target ∧ target.isCompileReady = true := by
  unfold readyProfile at h
  split at h
  · next hready =>
    cases h
    exact ⟨rfl, hready⟩
  · cases h

/-- A target is the host's, or that of a device of the inventory which can be compiled for. -/
theorem resolve_ok {spec : String} {target : TargetProfile} (h : resolve host digests dump spec = .ok target) :
    target = .llvmCpuHost digests host ∨
      ∃ d ∈ discover host digests dump, d.profile = target ∧ target.isCompileReady = true := by
  unfold resolve resolveTrimmed at h
  split at h
  · obtain ⟨hprofile, hready⟩ := readyProfile_ok h
    cases hhead : (discover host digests dump).head? with
    | none =>
      rw [hhead] at hprofile
      exact .inl hprofile.symm
    | some d =>
      rw [hhead] at hprofile
      exact .inr ⟨d, List.mem_of_head? hhead, hprofile, hready⟩
  · split at h
    · exact .inl (Except.ok.inj h).symm
    · split at h
      · cases h
      · split at h
        · cases h
        · next d hfind =>
          obtain ⟨hprofile, hready⟩ := readyProfile_ok h
          exact .inr ⟨d, List.mem_of_find?_eq_some hfind, hprofile, hready⟩

theorem resolve_refreshed {spec : String} {target : TargetProfile} (h : resolve host digests dump spec = .ok target) :
    target.Refreshed digests := by
  rcases resolve_ok h with rfl | ⟨d, hmem, rfl, -⟩
  · exact refreshed_refreshFingerprint digests _
  · exact (discover_reported hmem).faithful.refreshed

theorem resolve_llvmCpuHost :
    resolve host digests dump (llvmCpuHost digests host).runtimeDevice = .ok (.llvmCpuHost digests host) := by
  have hdevice : (llvmCpuHost digests host).runtimeDevice = "local-task://" := by
    simp only [llvmCpuHost, runtimeDevice, refreshFingerprint_deviceUri]
    rfl
  have htrim : trimSpace "local-task://" = "local-task://" := by decide
  have hlocal : isLocalSpec "local-task://" = true := by decide
  rw [hdevice, resolve, htrim, resolveTrimmed, if_neg (by decide), if_pos hlocal]

theorem Reported.trimSpace_uri {d : DiscoveredDevice} (h : Reported host digests d) (hgpu : d.driver ≠ "local-task") :
    trimSpace d.uri = d.uri := by
  cases h with
  | cuda id p hp => exact hp.uri
  | hip id p hp => exact hp.uri
  | localTask p => exact absurd rfl hgpu

theorem Reported.canonicalDriver_driver {d : DiscoveredDevice} (h : Reported host digests d) :
    canonicalDriver d.driver = d.driver := by
  have hknown := h.faithful.known
  refine if_neg fun hrocm => ?_
  rw [hrocm] at hknown
  exact absurd hknown (by decide)

/-- A GPU that can be compiled for is found by its URI. -/
theorem resolve_uri {text : String} (hnamed : NamedByUri text) {d : DiscoveredDevice}
    (hmem : d ∈ discover host digests (.ok text)) (hgpu : d.driver ≠ "local-task") (hready : d.profile.isCompileReady = true) :
    resolve host digests (.ok text) d.profile.runtimeDevice = .ok d.profile := by
  have hreported := discover_reported hmem
  have hdriver : d.driver ∈ ["cuda", "hip"] := by
    have hknown := hreported.faithful.known
    simp only [List.mem_cons, List.not_mem_nil, or_false] at hknown ⊢
    rcases hknown with h | h | h
    · exact .inl h
    · exact .inr h
    · exact absurd h hgpu
  have huris := @ofDriver_discover host digests text d.driver hdriver
  have hmem_uri {d' : DiscoveredDevice} (h : d' ∈ discover host digests (.ok text)) (hd' : d'.driver = d.driver) :
      d' ∈ ofDriver d.driver (discover host digests (.ok text)) := List.mem_filter.mpr ⟨h, beq_iff_eq.mpr hd'⟩
  obtain ⟨word, hword, hcanonical, hscheme⟩ := hnamed.scheme d.driver hdriver d.uri
    (huris ▸ List.mem_map_of_mem (hmem_uri hmem rfl))
  obtain ⟨huri, hauto, hlocal⟩ := not_local_of_uri hword hscheme
  have hadmits (d' : DiscoveredDevice) : GpuRequest.admits { driver := d.driver, uri := some d.uri } d' = true ↔
      canonicalDriver d'.driver = d.driver ∧ d'.uri = d.uri := by simp [GpuRequest.admits]
  have hfind : (discover host digests (.ok text)).find? (GpuRequest.admits { driver := d.driver, uri := some d.uri }) =
      some d := by
    cases hd' : (discover host digests (.ok text)).find? (GpuRequest.admits { driver := d.driver, uri := some d.uri }) with
    | none =>
      refine absurd ((hadmits d).mpr ⟨hreported.canonicalDriver_driver, rfl⟩) ?_
      simpa using List.find?_eq_none.mp hd' d hmem
    | some d' =>
      have hmem' := List.mem_of_find?_eq_some hd'
      obtain ⟨hdriver', huri'⟩ := (hadmits d').mp (List.find?_some hd')
      rw [(discover_reported hmem').canonicalDriver_driver] at hdriver'
      exact congrArg some (List.inj_on_of_nodup_map (huris ▸ hnamed.distinct d.driver hdriver) (hmem_uri hmem' hdriver')
        (hmem_uri hmem rfl) huri')
  have hrequest := parseGpuRequest_uri hword hscheme
  rw [hcanonical] at hrequest
  rw [hreported.faithful.runtimeDevice hgpu, if_neg huri, resolve, hreported.trimSpace_uri hgpu, resolveTrimmed, if_neg hauto,
    hlocal]
  simp only [Bool.false_eq_true, if_false, hrequest, hfind]
  exact if_pos hready

/-- A target is resolved again from the device it names. -/
theorem resolve_runtimeDevice (hnamed : ∀ text ∈ dump.toOption, NamedByUri text) {spec : String} {target : TargetProfile}
    (h : resolve host digests dump spec = .ok target) : resolve host digests dump target.runtimeDevice = .ok target := by
  rcases resolve_ok h with rfl | ⟨d, hmem, rfl, hready⟩
  · exact resolve_llvmCpuHost
  · by_cases hgpu : d.driver = "local-task"
    · rw [(discover_reported hmem).faithful.localTask hgpu]
      exact resolve_llvmCpuHost
    · cases dump with
      | error e => exact absurd (congrArg DiscoveredDevice.driver (List.mem_singleton.mp hmem)) hgpu
      | ok text => exact resolve_uri (hnamed text rfl) hmem hgpu hready

/-! ## Bundles -/

theorem Faithful.flags_ne_nil {d : DiscoveredDevice} (h : Faithful host digests d)
    (harch : d.driver ≠ "local-task" → d.arch.isSome) : d.profile.executableTargetFlags ≠ [] := by
  intro hnil
  have hperm := h.flags
  rw [hnil] at hperm
  have hfacts := hperm.nil_eq
  have hknown := h.known
  simp only [List.mem_cons, List.not_mem_nil, or_false] at hknown
  rcases hknown with hcuda | hhip | hlocal
  · obtain ⟨arch, hsome⟩ := Option.isSome_iff_exists.mp (harch (by rw [hcuda]; decide))
    rw [hcuda, hsome] at hfacts
    cases hfacts
  · obtain ⟨arch, hsome⟩ := Option.isSome_iff_exists.mp (harch (by rw [hhip]; decide))
    rw [hhip, hsome] at hfacts
    cases hfacts
  · rw [hlocal] at hfacts
    cases hfacts

/-- Flags are found for a resolved target, unless it is a host that is not known. -/
theorem compileFlagsFor_resolved {spec : String} {target : TargetProfile} (h : resolve host digests dump spec = .ok target)
    (env : ProcessEnvironment) : (∃ flags, compileFlagsFor env target = .ok flags) ↔
      target.driver = "local-task" → host.triple ≠ "unknown" := by
  have hiff : (∃ flags, compileFlagsFor env target = .ok flags) ↔
      target.isCompileReady = true ∧ target.executableTargetFlags ≠ [] := by
    unfold compileFlagsFor
    cases target.isCompileReady <;> cases target.executableTargetFlags <;> simp
  rw [hiff]
  rcases resolve_ok h with rfl | ⟨d, hmem, rfl, hready⟩
  · have hflags := (reported_cpuDevice host digests).faithful.flags_ne_nil fun hgpu => absurd rfl hgpu
    have hready : (llvmCpuHost digests host).isCompileReady = true ↔ host.triple ≠ "unknown" := by
      simp [isCompileReady, llvmCpuHost]
    exact ⟨fun hboth _ => hready.mp hboth.1, fun hknown => ⟨hready.mpr (hknown rfl), hflags⟩⟩
  · have hfaithful := (discover_reported hmem).faithful
    refine ⟨fun _ hlocal => ?_, fun _ => ⟨hready, hfaithful.flags_ne_nil fun hgpu => (hfaithful.ready hgpu).mp hready⟩⟩
    rw [hfaithful.localTask (hfaithful.driver ▸ hlocal)] at hready
    simpa [isCompileReady, llvmCpuHost] using hready

section load

variable (checkpoint : CheckpointCatalog) (path : String)
  (openExecutable : BundleArtifacts → RuntimeProviderPlan → Except DynInferError Unit)

variable {checkpoint} {path} in
/-- What a load has found of the target. -/
theorem openModel_target {runtime : RuntimeHost} {artifacts : BundleArtifacts} {loaded : LoadedModel}
    (h : openModel digests runtime checkpoint path artifacts = .ok loaded) :
    ∃ localTarget, runtime.resolveTarget artifacts.manifest.target.runtimeDevice = .ok localTarget ∧
      localTarget.capabilityFingerprint = artifacts.manifest.target.capabilityFingerprint := by
  obtain ⟨catalog, -, h⟩ := Fallible.bind_ok h
  obtain ⟨_, -, h⟩ := Fallible.bind_ok h
  obtain ⟨localTarget, hlocal, h⟩ := Fallible.bind_ok h
  obtain ⟨_, hfingerprint, -⟩ := Fallible.bind_ok h
  refine ⟨localTarget, hlocal, ?_⟩
  unfold Fallible.ensure at hfingerprint
  split at hfingerprint
  · next heq => exact heq
  · cases hfingerprint

def linuxHost : HostFacts := ⟨"x86_64-unknown-linux-gnu", []⟩

/-- A dump with one GPU. -/
def hipDump : String := "# Enumerated devices for driver 'hip'\n# --device=hip://0\n- gpu-arch-name: gfx1151\n"

theorem hipDump_named : NamedByUri hipDump := by
  have hprinted : printed none (Text.lines hipDump) =
      [⟨"hip", "hip://0", ["- gpu-arch-name: gfx1151"]⟩] := by decide +kernel
  have huris {driver : String} (hdriver : driver ∈ ["cuda", "hip"]) :
      urisFor driver (printed none (Text.lines hipDump)) = if driver = "hip" then ["hip://0"] else [] := by
    rw [hprinted]
    simp only [List.mem_cons, List.not_mem_nil, or_false] at hdriver
    rcases hdriver with rfl | rfl <;> decide
  refine ⟨fun driver hdriver uri huri => ?_, fun driver hdriver => ?_⟩
  · rw [huris hdriver] at huri
    split at huri
    · next hhip =>
      subst hhip
      rw [List.mem_singleton.mp huri]
      exact ⟨"hip", by decide, rfl, by decide⟩
    · cases huri
  · rw [huris hdriver]
    split
    · exact List.nodup_singleton _
    · exact List.nodup_nil

/-- The GPU is preferred to the host. -/
theorem resolve_hipDump : ∃ target, resolve linuxHost blindDigests (.ok hipDump) "auto" = .ok target := by
  have hsorted : sortByPreference (parseDumpDevices linuxHost blindDigests hipDump) =
      parseDumpDevices linuxHost blindDigests hipDump :=
    List.mergeSort_of_pairwise (by decide +kernel)
  have hready : ((parseDumpDevices linuxHost blindDigests hipDump).head?.getD
      (cpuDevice linuxHost blindDigests)).profile.isCompileReady = true := by decide +kernel
  have htrim : trimSpace "auto" = "auto" := by decide
  rw [resolve, htrim, resolveTrimmed, if_pos rfl, selectBest, discover_ok, hsorted, readyProfile, if_pos hready]
  exact ⟨_, rfl⟩

/-- **A bundle and its target.** A resolved target can be compiled for, unless it is a host that is not known.
Where the bundle was compiled the target is never why a load refuses it: the load is that of a host which resolves
nothing else. And a machine that loads the bundle resolves a target with the same facts, if the digest tells the
two apart. -/
theorem load_of_resolved {spec : String} {target : TargetProfile} (h : resolve host digests dump spec = .ok target)
    {artifacts : BundleArtifacts} (hmanifest : artifacts.manifest.target = target) :
    (∀ env, (∃ flags, compileFlagsFor env target = .ok flags) ↔ target.driver = "local-task" → host.triple ≠ "unknown") ∧
      ((∀ text ∈ dump.toOption, NamedByUri text) →
        openModel digests ⟨resolve host digests dump, openExecutable⟩ checkpoint path artifacts =
          openModel digests ⟨fun _ => .ok target, openExecutable⟩ checkpoint path artifacts) ∧
      ∀ host' dump' loaded,
        openModel digests ⟨resolve host' digests dump', openExecutable⟩ checkpoint path artifacts = .ok loaded →
        ∃ localTarget, resolve host' digests dump' target.runtimeDevice = .ok localTarget ∧
          (TellsApart digests localTarget target → localTarget = target) := by
  refine ⟨compileFlagsFor_resolved h, fun hnamed => ?_, fun host' dump' loaded hloaded => ?_⟩
  · simp only [openModel, hmanifest, resolve_runtimeDevice hnamed h]
  · obtain ⟨localTarget, hlocal, hfingerprint⟩ := openModel_target hloaded
    rw [hmanifest] at hlocal hfingerprint
    dsimp only at hlocal
    exact ⟨localTarget, hlocal, fun htells =>
      (resolve_refreshed hlocal).eq_of_fingerprint digests (resolve_refreshed h) htells hfingerprint⟩

end load

theorem load_of_resolved_hip : ∃ target,
    openModel blindDigests ⟨resolve linuxHost blindDigests (.ok hipDump), fun _ _ => .ok ()⟩ (oneTensorCatalog "w" [])
        "bundle" { combinedBundle with manifest := { sampleManifest 11 with target } } =
      openModel blindDigests ⟨fun _ => .ok target, fun _ _ => .ok ()⟩ (oneTensorCatalog "w" [])
        "bundle" { combinedBundle with manifest := { sampleManifest 11 with target } } := by
  obtain ⟨target, h⟩ := resolve_hipDump
  exact ⟨target, (load_of_resolved _ _ _ h rfl).2.1 fun text htext => Option.some.inj htext ▸ hipDump_named⟩

end resolve

end TargetDiscovery

end Dyninfer
