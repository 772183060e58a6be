/-
Target profiles (`dyninfer-core/src/types.rs`): the profile of the host and of
the GPUs, and what a discovered device adds to it. Every constructor ends with
`refresh_fingerprint`, so a profile is its facts: features and flags sorted
and without repetitions, and the fingerprint taken over them.
-/
import Dyninfer.Lib.Lines
import Dyninfer.Lib.Sorting
import Dyninfer.Runtime.CompileRequest
import Dyninfer.Runtime.Tokenizer
import Mathlib.Data.List.Dedup
import Mathlib.Data.String.Basic

namespace Dyninfer

/-- `str::trim`. -/
def trimSpace (s : String) : String := Text.trim BpeTokenizer.isWhiteSpace s

/-- `nonempty`. -/
def nonempty (value : String) : Option String :=
  if (trimSpace value).isEmpty then none else some (trimSpace value)

/-- `cuda_sm`. -/
def cudaSm (architecture : String) : Option Nat :=
  ((Text.strip architecture "sm_").or (Text.strip architecture "sm")).bind (Text.parseUnsigned (2 ^ 32))

/-- The facts of the machine the program was built for and runs on. -/
structure HostFacts where
  /-- `host_triple`. -/
  triple : String
  /-- `detected_host_features`. -/
  features : List String

/-- `sort`, then `dedup`. -/
def sortDedup (texts : List String) : List String := (Sorting.sortByKey id texts).dedup

theorem pairwise_sortDedup (texts : List String) : (sortDedup texts).Pairwise (· < ·) := by
  have hsorted : (sortDedup texts).Pairwise fun a b => a ≤ b :=
    (Sorting.pairwise_sortByKey (α := String) texts).sublist (List.dedup_sublist _)
  exact (hsorted.and (List.nodup_dedup _)).imp fun h => lt_of_le_of_ne h.1 h.2

theorem sortDedup_sortDedup (texts : List String) : sortDedup (sortDedup texts) = sortDedup texts := by
  have hpairwise := pairwise_sortDedup texts
  generalize sortDedup texts = sorted at hpairwise
  have hsorted : Sorting.sortByKey id sorted = sorted :=
    List.mergeSort_of_pairwise (hpairwise.imp fun h => decide_eq_true h.le)
  rw [sortDedup, hsorted, List.dedup_eq_self.mpr (hpairwise.imp ne_of_lt)]

theorem mem_sortDedup {text : String} {texts : List String} : text ∈ sortDedup texts ↔ text ∈ texts :=
  List.mem_dedup.trans (Sorting.perm_sortByKey id texts).mem_iff

theorem perm_sortDedup {texts : List String} (h : texts.Nodup) : (sortDedup texts).Perm texts := by
  unfold sortDedup
  rw [List.dedup_eq_self.mpr ((Sorting.perm_sortByKey id texts).nodup_iff.mpr h)]
  exact Sorting.perm_sortByKey id texts

namespace TargetProfile

variable (digests : ContentDigests)

/-- `refresh_fingerprint`. -/
def refreshFingerprint (profile : TargetProfile) : TargetProfile :=
  let facts : TargetProfile := { profile with
    features := sortDedup profile.features
    executableTargetFlags := sortDedup profile.executableTargetFlags
    capabilityFingerprint := "" }
  { facts with capabilityFingerprint := digests.target facts }

section refresh

variable (profile : TargetProfile)

@[simp] theorem refreshFingerprint_driver : (refreshFingerprint digests profile).driver = profile.driver := rfl

@[simp] theorem refreshFingerprint_architecture :
    (refreshFingerprint digests profile).architecture = profile.architecture := rfl

@[simp] theorem refreshFingerprint_deviceUri : (refreshFingerprint digests profile).deviceUri = profile.deviceUri := rfl

@[simp] theorem refreshFingerprint_verified : (refreshFingerprint digests profile).verified = profile.verified := rfl

@[simp] theorem refreshFingerprint_triple : (refreshFingerprint digests profile).triple = profile.triple := rfl

@[simp] theorem refreshFingerprint_deviceName :
    (refreshFingerprint digests profile).deviceName = profile.deviceName := rfl

@[simp] theorem refreshFingerprint_subgroupSize :
    (refreshFingerprint digests profile).subgroupSize = profile.subgroupSize := rfl

@[simp] theorem refreshFingerprint_maxWorkgroupInvocations :
    (refreshFingerprint digests profile).maxWorkgroupInvocations = profile.maxWorkgroupInvocations := rfl

@[simp] theorem refreshFingerprint_features :
    (refreshFingerprint digests profile).features = sortDedup profile.features := rfl

@[simp] theorem refreshFingerprint_flags :
    (refreshFingerprint digests profile).executableTargetFlags = sortDedup profile.executableTargetFlags := rfl

end refresh

/-! ## Constructors -/

/-- `TargetProfile::llvm_cpu_host`. -/
def llvmCpuHost (host : HostFacts) : TargetProfile :=
  refreshFingerprint digests {
    driver := "local-task"
    deviceId := some 0
    triple := some host.triple
    features := host.features
    deviceUri := some "local-task://"
    deviceName := some "host-cpu"
    executableTargetFlags :=
      ["--iree-hal-target-device=local", "--iree-hal-local-target-device-backends=llvm-cpu",
        "--iree-llvmcpu-target-cpu=host"]
    verified := host.triple != "unknown" }

/-- `TargetProfile::hip_rocm`. -/
def hipRocm (chip : String) : TargetProfile :=
  let architecture := nonempty chip
  refreshFingerprint digests {
    driver := "hip"
    deviceId := some 0
    architecture
    features := (architecture.map ("rocm-target=" ++ ·)).toList
    executableTargetFlags :=
      (architecture.map fun chip => ["--iree-hal-target-device=hip", "--iree-rocm-target=" ++ chip]).getD []
    verified := architecture.isSome }

/-- What a compute capability has, from which one on. -/
def cudaFeatures : List (Nat × String) :=
  [(53, "native_f16"), (61, "integer_dot_product"), (70, "tensor_cores"), (80, "native_bf16"), (100, "nvfp4")]

/-- `TargetProfile::cuda`. -/
def cuda (arch : String) : TargetProfile :=
  let architecture := nonempty arch
  refreshFingerprint digests {
    driver := "cuda"
    deviceId := some 0
    architecture
    features := (architecture.map ("cuda-target=" ++ ·)).toList ++
      ((architecture.bind cudaSm).map fun sm => (cudaFeatures.filter (·.1 ≤ sm)).map (·.2)).getD []
    subgroupSize := some 32
    executableTargetFlags :=
      (architecture.map fun arch => ["--iree-hal-target-device=cuda", "--iree-cuda-target=" ++ arch]).getD []
    verified := architecture.isSome }

/-! ## What a discovery adds -/

/-- `with_device_identity`. -/
def withDeviceIdentity (profile : TargetProfile) (deviceId : Nat) (deviceUri deviceName : String) : TargetProfile :=
  refreshFingerprint digests { profile with
    deviceId := some deviceId
    deviceUri := nonempty deviceUri
    deviceName := nonempty deviceName }

/-- `with_discovered_features`. -/
def withDiscoveredFeatures (profile : TargetProfile) (features : List String) : TargetProfile :=
  refreshFingerprint digests { profile with features := profile.features ++ features }

/-- `with_execution_limits`. -/
def withExecutionLimits (profile : TargetProfile) (subgroupSize maxWorkgroupInvocations : Option Nat) : TargetProfile :=
  refreshFingerprint digests { profile with
    subgroupSize := subgroupSize.or profile.subgroupSize
    maxWorkgroupInvocations := maxWorkgroupInvocations.or profile.maxWorkgroupInvocations }

/-- What `refresh_fingerprint` leaves. -/
structure Refreshed (profile : TargetProfile) : Prop where
  features : profile.features.Pairwise (· < ·)
  flags : profile.executableTargetFlags.Pairwise (· < ·)
  fingerprint : profile.IsFingerprinted digests

theorem refreshed_refreshFingerprint (profile : TargetProfile) : (refreshFingerprint digests profile).Refreshed digests :=
  ⟨pairwise_sortDedup _, pairwise_sortDedup _, rfl⟩

theorem refreshed_withExecutionLimits (profile : TargetProfile) (subgroupSize maxWorkgroupInvocations : Option Nat) :
    (withExecutionLimits digests profile subgroupSize maxWorkgroupInvocations).Refreshed digests :=
  refreshed_refreshFingerprint digests _

/-- The digest tells two profiles apart, if they have different facts. -/
def TellsApart (profile profile' : TargetProfile) : Prop :=
  digests.target { profile with capabilityFingerprint := "" } =
      digests.target { profile' with capabilityFingerprint := "" } →
    ({ profile with capabilityFingerprint := "" } : TargetProfile) = { profile' with capabilityFingerprint := "" }

/-- Profiles that have one fingerprint have the same facts. -/
theorem Refreshed.eq_of_fingerprint {profile profile' : TargetProfile} (h : profile.Refreshed digests)
    (h' : profile'.Refreshed digests) (hdigest : TellsApart digests profile profile')
    (heq : profile.capabilityFingerprint = profile'.capabilityFingerprint) : profile = profile' := by
  have hfacts := heq
  rw [h.fingerprint, h'.fingerprint] at hfacts
  have hfacts := hdigest hfacts
  cases profile
  cases profile'
  simp only [mk.injEq] at hfacts heq ⊢
  simp [hfacts, heq]

end TargetProfile

end Dyninfer
