/-
The order of selection is total and transitive, registration keeps the order of
the candidates, and nothing speaks against a native kernel where the target has
its feature and nothing speaks against the kernel it stands beside.
-/
import Dyninfer.Kernels.Registry
import Dyninfer.Lib.Fallible
import Dyninfer.Lib.Sorting
import Mathlib.Data.String.Basic

namespace Dyninfer

namespace SelectedKernelCandidate

instance : Std.Total Precedes where
  total left right := by
    unfold Precedes
    rcases lt_trichotomy left.score right.score with h | h | h
    · exact .inr (.inl h)
    · rcases le_total left.descriptor.id right.descriptor.id with hid | hid
      · exact .inl (.inr ⟨h.symm, hid⟩)
      · exact .inr (.inr ⟨h, hid⟩)
    · exact .inl (.inl h)

instance : IsTrans SelectedKernelCandidate Precedes where
  trans left middle right := by
    rintro (h₁ | ⟨h₁, hid₁⟩) (h₂ | ⟨h₂, hid₂⟩)
    · exact .inl (h₂.trans h₁)
    · exact .inl (h₂ ▸ h₁)
    · exact .inl (h₁ ▸ h₂)
    · exact .inr ⟨h₂.trans h₁, hid₁.trans hid₂⟩

theorem Precedes.score_le {left right : SelectedKernelCandidate} (h : left.Precedes right) :
    right.score ≤ left.score := by
  rcases h with h | ⟨h, _⟩
  · exact h.le
  · exact h.le

end SelectedKernelCandidate

namespace KernelRegistry

variable {registry : KernelRegistry}

theorem register_ok {candidate : KernelCandidateDescriptor} {registry' : KernelRegistry}
    (h : registry.register candidate = .ok registry') : registry'.candidates = registry.candidates ++ [candidate] := by
  unfold register at h
  split at h
  · cases h
  · cases h; rfl

theorem foldlM_register_ok {candidates : List KernelCandidateDescriptor} {registry' : KernelRegistry}
    (h : candidates.foldlM register registry = .ok registry') :
    registry'.candidates = registry.candidates ++ candidates := by
  induction candidates generalizing registry with
  | nil => cases h; simp
  | cons candidate candidates ih =>
    rw [List.foldlM_cons] at h
    obtain ⟨next, hnext, h⟩ := Fallible.bind_ok h
    rw [ih h, register_ok hnext, List.append_assoc, List.singleton_append]

end KernelRegistry

/-! ## Reasons -/

theorem reasonIf_eq_nil {c : Bool} {reason : CandidateRejectionReason} : reasonIf c reason = [] ↔ c = false := by
  cases c <;> simp [reasonIf]

namespace KernelCandidateDescriptor

/-- A native kernel of another: only its name, its compute types, its score and the feature it needs differ. -/
def NativeOf (native candidate : KernelCandidateDescriptor) (feature : String) : Prop :=
  native = { candidate with
    id := native.id, lowering := native.lowering, inputTypes := native.inputTypes, outputTypes := native.outputTypes
    target := { candidate.target with requiredFeatures := [feature] }, deterministicScore := native.deterministicScore } ∧
  native.inputTypes.isEmpty = false ∧ native.outputTypes.isEmpty = false

instance (native candidate : KernelCandidateDescriptor) (feature : String) :
    Decidable (native.NativeOf candidate feature) :=
  inferInstanceAs (Decidable (_ ∧ _))

/-- Where the target has the feature, nothing speaks against a native kernel that does not against the other. -/
theorem NativeOf.reasons {native candidate : KernelCandidateDescriptor} {feature : String} {request : KernelRequest}
    {target : TargetProfile} (hnative : native.NativeOf candidate feature) (hfeature : feature ∈ target.features)
    (hreasons : rejectionReasons candidate request target = []) : rejectionReasons native request target = [] := by
  obtain ⟨h, hin, hout⟩ := hnative
  simp only [rejectionReasons, List.append_eq_nil_iff] at hreasons ⊢
  obtain ⟨⟨⟨⟨⟨⟨⟨⟨hencoding, hready⟩, hmode⟩, hbackend⟩, harch⟩, -⟩, hshape⟩, horient⟩, htypes⟩ := hreasons
  have hrequired : native.target.requiredFeatures = [feature] := congrArg (·.target.requiredFeatures) h
  have haccumulator : native.accumulatorTypes = candidate.accumulatorTypes := congrArg (·.accumulatorTypes) h
  refine ⟨⟨⟨⟨⟨⟨⟨⟨?_, ?_⟩, ?_⟩, ?_⟩, ?_⟩, ?_⟩, ?_⟩, ?_⟩, ?_⟩
  · exact congrArg (fun c => reasonIf (c.encoding != request.encoding) .encodingMismatch) h |>.trans hencoding
  · exact congrArg (fun c => reasonIf (c.readiness != .production) .notProductionReady) h |>.trans hready
  · exact congrArg (fun c => reasonIf (!c.modes.contains request.mode) .modeMismatch) h |>.trans hmode
  · rw [show native.target.backends = candidate.target.backends from congrArg (·.target.backends) h]
    exact hbackend
  · rw [show native.target.exactArchitectures = candidate.target.exactArchitectures from
      congrArg (·.target.exactArchitectures) h]
    exact harch
  · rw [hrequired, List.flatMap_cons, List.flatMap_nil, List.append_nil, reasonIf_eq_nil, Bool.not_eq_false']
    exact List.contains_iff_mem.mpr hfeature
  · rw [show native.shape = candidate.shape from congrArg (·.shape) h]
    exact hshape
  · rw [show native.orientations = candidate.orientations from congrArg (·.orientations) h]
    exact horient
  · unfold typeReasons at htypes ⊢
    split at htypes
    case isTrue => cases htypes
    case isFalse hchoices =>
      simp only [Bool.or_eq_true, not_or, Bool.not_eq_true] at hchoices
      rw [hin, hout, haccumulator, hchoices.2]
      exact htypes

end KernelCandidateDescriptor

end Dyninfer
