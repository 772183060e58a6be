/-
The registered candidates: each computes in `f32` (the model input in `i64`)
under the lowering of its operation, or is the native kernel of `f16` or `bf16`
storage. A native kernel stands beside every kernel over such storage and
outscores it.
-/
import Dyninfer.Kernels.Selection
import Dyninfer.Quantization.Coverage

namespace Dyninfer

/-- What the two registries hold, in order. -/
def builtinCandidates : List KernelCandidateDescriptor :=
  builtinSemanticCandidates ++ builtinDefinitions.flatMap (·.kernelCandidates)

theorem QuantizationRegistry.foldlM_register_ok {registry registry' : QuantizationRegistry}
    {definitions : List QuantizationDefinition} (h : definitions.foldlM register registry = .ok registry') :
    registry'.definitions = registry.definitions ++ definitions := by
  induction definitions generalizing registry with
  | nil => cases h; simp
  | cons definition definitions ih =>
    rw [List.foldlM_cons] at h
    obtain ⟨next, hnext, h⟩ := Fallible.bind_ok h
    unfold register at hnext
    split at hnext
    case isTrue => cases hnext
    case isFalse => cases hnext; rw [ih h, List.append_assoc, List.singleton_append]

section registries

variable {encodings : QuantizationRegistry} {kernels : KernelRegistry}

theorem default_definitions (hencodings : defaultQuantizationRegistry = .ok encodings) :
    encodings.definitions = builtinDefinitions :=
  QuantizationRegistry.foldlM_register_ok hencodings

theorem default_candidates (hencodings : defaultQuantizationRegistry = .ok encodings)
    (hkernels : defaultKernelRegistry encodings = .ok kernels) : kernels.candidates = builtinCandidates := by
  obtain ⟨semantic, hsemantic, hkernels⟩ := Fallible.bind_ok hkernels
  rw [KernelRegistry.foldlM_register_ok hkernels, KernelRegistry.foldlM_register_ok hsemantic,
    default_definitions hencodings]
  rfl

end registries

/-! ## Native types -/

/-- The storage types with native kernels, and the features these need. -/
def nativeTypes : List (ScalarType × String) := [(.f16, "native_f16"), (.bf16, "native_bf16")]

/-- The target has a native kernel for this storage. -/
def TargetProfile.RunsNatively (target : TargetProfile) (encoding : PhysicalEncoding) : Prop :=
  ∃ native ∈ nativeTypes, (∃ order, encoding = .plain native.1 order) ∧ native.2 ∈ target.features

theorem GgufBlockDefinition.key_of_matchesEncoding {definition : GgufBlockDefinition} {encoding : PhysicalEncoding}
    (h : definition.matchesEncoding encoding = true) : physicalEncodingKey encoding = ⟨definition.codec, 1⟩ := by
  cases encoding with
  | blockQuantized q =>
    obtain ⟨hversion, hcodec⟩ : q.codecVersion = 1 ∧ q.codec = definition.codec := by simpa [matchesEncoding] using h
    rw [physicalEncodingKey, hversion, hcodec]
  | plain | groupQuantized | sparse | opaqueCodec => exact absurd h Bool.false_ne_true

namespace QuantizationDefinition

/-- A definition recognises encodings of its own key alone. -/
theorem key_of_matchesEncoding {definition : QuantizationDefinition} {encoding : PhysicalEncoding}
    (h : definition.matchesEncoding encoding = true) : physicalEncodingKey encoding = definition.key := by
  cases definition with
  | plain | ggufQ40 | mlxAffine =>
    cases encoding <;>
      simp_all [matchesEncoding, PlainDefinition.matchesEncoding, GgufQ40Definition.matchesEncoding,
        MlxAffineDefinition.matchesEncoding, physicalEncodingKey, key]
  | ggufQ41 => exact ggufQ41Schema.key_of_matchesEncoding h
  | ggufQ6K => exact ggufQ6KSchema.key_of_matchesEncoding h
  | ggufQ80 => exact ggufQ80Schema.key_of_matchesEncoding h
  | ggufBlock definition => exact definition.key_of_matchesEncoding h

theorem eq_plain_of_key : ∀ definition ∈ builtinDefinitions, ∀ native ∈ nativeTypes,
    definition.key = ⟨PlainDefinition.id native.1, 1⟩ → definition = .plain native.1 := by
  decide

end QuantizationDefinition

/-- An encoding the registry resolves has the key of native storage only if it is plain. -/
theorem plain_of_resolve {encodings : QuantizationRegistry} (hdefinitions : encodings.definitions = builtinDefinitions)
    {encoding : PhysicalEncoding} {definition : QuantizationDefinition}
    (hresolve : encodings.resolve encoding = some definition) {native : ScalarType × String}
    (hnative : native ∈ nativeTypes) (hkey : physicalEncodingKey encoding = ⟨PlainDefinition.id native.1, 1⟩) :
    ∃ order, encoding = .plain native.1 order := by
  unfold QuantizationRegistry.resolve at hresolve
  rw [hdefinitions] at hresolve
  have hmatches := List.find?_some hresolve
  have hplain := QuantizationDefinition.eq_plain_of_key definition (List.mem_of_find?_eq_some hresolve) native hnative
    ((QuantizationDefinition.key_of_matchesEncoding hmatches).symm.trans hkey)
  subst hplain
  cases encoding with
  | plain storageType order =>
    exact ⟨order, by rw [eq_of_beq hmatches]⟩
  | groupQuantized | blockQuantized | sparse | opaqueCodec => exact absurd hmatches Bool.false_ne_true

/-! ## The candidates -/

/-- The lowering of a kernel operation, where it is not a registered parameter lowering. -/
def KernelOperationKind.lowering : KernelOperationKind → String
  | .input => "model.input.abi"
  | .embedding => "dense.gather.linalg"
  | .linear | .outputProjection => "dense.matmul.linalg"
  | .rmsNorm => "dense.rms_norm.generated"
  | .perHeadRmsNorm => "dense.per_head_rms_norm.generated"
  | .rope => "rope.generated"
  | .kvCacheWrite => "kv_cache.write.generated"
  | .kvCacheRead => "kv_cache.read.generated"
  | .attention => "attention.gqa.generated"
  | .shortConv => "short_conv.gated.generated"
  | .silu => "elementwise.silu.generated"
  | .multiply => "elementwise.multiply.generated"
  | .residual => "residual.add.generated"

namespace KernelCandidateDescriptor

/-- The kernel computes as the shared lowering does: in `f32`, or on the tokens. -/
def Portable (candidate : KernelCandidateDescriptor) : Prop :=
  candidate.inputTypes = [.i64] ∨
    candidate.inputTypes = [.f32] ∧ candidate.outputTypes = [.f32] ∧ candidate.accumulatorTypes = [.f32]

/-- The kernel computes in the type of the storage it reads, on targets with its feature. -/
def Native (candidate : KernelCandidateDescriptor) (native : ScalarType × String) : Prop :=
  candidate.encoding = some ⟨PlainDefinition.id native.1, 1⟩ ∧ candidate.inputTypes = [native.1] ∧
    candidate.target.requiredFeatures = [native.2]

/-- The kernel's lowering is its operation's, its operation's over pages, or one of a parameter. -/
def Implements (candidate : KernelCandidateDescriptor) : Prop :=
  candidate.lowering = candidate.operation.lowering ∨
    candidate.operation = .attention ∧ candidate.lowering = "attention.online_paged.generated" ∨
    candidate.operation ∈ [.embedding, .linear, .outputProjection] ∧
      ∃ definition ∈ builtinDefinitions, candidate ∈ definition.kernelCandidates

instance (candidate : KernelCandidateDescriptor) : Decidable candidate.Portable := inferInstanceAs (Decidable (_ ∨ _))

instance (candidate : KernelCandidateDescriptor) (native : ScalarType × String) : Decidable (candidate.Native native) :=
  inferInstanceAs (Decidable (_ ∧ _))

instance (candidate : KernelCandidateDescriptor) : Decidable candidate.Implements := inferInstanceAs (Decidable (_ ∨ _))

end KernelCandidateDescriptor

/-- Every candidate is portable, or native to its storage. -/
theorem portable_or_native : ∀ candidate ∈ builtinCandidates,
    candidate.Portable ∧ candidate.Implements ∨ ∃ native ∈ nativeTypes, candidate.Native native := by
  decide +kernel

/-- Beside every kernel over natively run storage stands a native one; what is not native scores less. -/
theorem native_beside : ∀ candidate ∈ builtinCandidates, ∀ native ∈ nativeTypes,
    candidate.encoding = some ⟨PlainDefinition.id native.1, 1⟩ →
      candidate.target.backends = ["any"] ∧
      (candidate.inputTypes = [native.1] ∨ candidate.deterministicScore < 200) ∧
      ∃ kernel ∈ builtinCandidates, kernel.NativeOf candidate native.2 ∧ kernel.deterministicScore = 200 ∧
        kernel.target.backends = ["any"] := by
  decide +kernel

end Dyninfer
