/-
Selection under any cost model (`KernelRegistry::select`): the registered
candidates of the request's operation are walked once, each either scored or
rejected with reasons, and the scored ones are sorted. What speaks against a
candidate is told as a relation of its own; the reasons listed are the
violations, but for a precision floor that a candidate without type choices
misses too. The selection is the best eligible candidate, in whatever order the
candidates were registered.
-/
import Dyninfer.Kernels.SelectionFacts
import Dyninfer.Lib.Sorting

namespace Dyninfer

/-! ## Constraints -/

/-- A constraint of the candidate that the request or the target does not meet. -/
inductive Violates (candidate : KernelCandidateDescriptor) (request : KernelRequest) (target : TargetProfile) :
    CandidateRejectionReason → Prop
  | encoding : candidate.encoding ≠ request.encoding → Violates candidate request target .encodingMismatch
  | readiness : candidate.readiness ≠ .production → Violates candidate request target .notProductionReady
  | mode : request.mode ∉ candidate.modes → Violates candidate request target .modeMismatch
  | backend : "any" ∉ candidate.target.backends → target.driver ∉ candidate.target.backends →
      Violates candidate request target (.backendMismatch target.driver)
  /-- Only a candidate that names architectures asks for one. -/
  | architecture : candidate.target.exactArchitectures ≠ [] →
      (∀ architecture ∈ target.architecture, architecture ∉ candidate.target.exactArchitectures) →
      Violates candidate request target (.architectureMismatch target.architecture)
  | feature : f ∈ candidate.target.requiredFeatures → f ∉ target.features →
      Violates candidate request target (.missingTargetFeature f)
  | rank : request.logicalShape = some shape → candidate.shape.logicalRank = some expected →
      shape.length ≠ expected → Violates candidate request target (.rankMismatch expected shape.length)
  /-- An axis that the shape has; nothing is a multiple of zero. -/
  | axis : request.logicalShape = some shape → multiple ∈ candidate.shape.axisMultiples →
      shape[multiple.axis]? = some dimension → multiple.multipleOf = 0 ∨ ¬ multiple.multipleOf ∣ dimension →
      Violates candidate request target (.axisNotDivisible multiple.axis dimension multiple.multipleOf)
  | orientation : candidate.orientations ≠ [] → request.orientation ∉ candidate.orientations →
      Violates candidate request target .orientationMismatch
  | typeChoice : candidate.inputTypes = [] ∨ candidate.outputTypes = [] ∨ candidate.accumulatorTypes = [] →
      Violates candidate request target .missingTypeChoice
  | precision : request.operation.isPrecisionSensitive = true →
      request.precisionPolicy.sensitiveInternalType ∉ candidate.accumulatorTypes →
      Violates candidate request target
        (.precisionFloor request.precisionPolicy.sensitiveInternalType candidate.accumulatorTypes)

/-- The candidate offers a type for the input, the output and the accumulator. -/
def KernelCandidateDescriptor.HasTypeChoices (candidate : KernelCandidateDescriptor) : Prop :=
  candidate.inputTypes ≠ [] ∧ candidate.outputTypes ≠ [] ∧ candidate.accumulatorTypes ≠ []

/-- The violations that are reported: a precision floor only of a candidate that has type choices. -/
def Reported (candidate : KernelCandidateDescriptor) (request : KernelRequest) (target : TargetProfile)
    (reason : CandidateRejectionReason) : Prop :=
  Violates candidate request target reason ∧
    ∀ required supported, reason = .precisionFloor required supported → candidate.HasTypeChoices

section reasons

variable {candidate : KernelCandidateDescriptor} {request : KernelRequest} {target : TargetProfile}
  {reason : CandidateRejectionReason}

theorem mem_reasonIf {c : Bool} {listed : CandidateRejectionReason} :
    reason ∈ reasonIf c listed ↔ c = true ∧ reason = listed := by
  cases c <;> simp [reasonIf]

theorem mem_shapeReasons_iff {constraint : ShapeConstraint} {logicalShape : Option Shape} :
    reason ∈ shapeReasons constraint logicalShape ↔ ∃ shape, logicalShape = some shape ∧
      ((∃ expected, constraint.logicalRank = some expected ∧ shape.length ≠ expected ∧
          reason = .rankMismatch expected shape.length) ∨
        ∃ multiple ∈ constraint.axisMultiples, ∃ dimension, shape[multiple.axis]? = some dimension ∧
          (multiple.multipleOf = 0 ∨ ¬ multiple.multipleOf ∣ dimension) ∧
          reason = .axisNotDivisible multiple.axis dimension multiple.multipleOf) := by
  cases logicalShape with
  | none => simp [shapeReasons]
  | some shape =>
    simp only [shapeReasons, List.mem_append, List.mem_flatMap, Option.some.injEq, exists_eq_left']
    refine or_congr ?_ (exists_congr fun multiple => and_congr_right fun _ => ?_)
    · cases constraint.logicalRank with
      | none => simp
      | some expected => simp [mem_reasonIf]
    · cases shape[multiple.axis]? with
      | none => simp
      | some dimension => simp [mem_reasonIf, Nat.dvd_iff_mod_eq_zero]

theorem hasTypeChoices_iff : candidate.HasTypeChoices ↔
    (candidate.inputTypes.isEmpty || candidate.outputTypes.isEmpty || candidate.accumulatorTypes.isEmpty) = false := by
  simp [KernelCandidateDescriptor.HasTypeChoices, and_assoc]

theorem mem_typeReasons_iff : reason ∈ typeReasons candidate request ↔
    (¬ candidate.HasTypeChoices ∧ reason = .missingTypeChoice) ∨
      (candidate.HasTypeChoices ∧ request.operation.isPrecisionSensitive = true ∧
        request.precisionPolicy.sensitiveInternalType ∉ candidate.accumulatorTypes ∧
        reason = .precisionFloor request.precisionPolicy.sensitiveInternalType candidate.accumulatorTypes) := by
  unfold typeReasons
  split
  case isTrue h =>
    have hnone : ¬ candidate.HasTypeChoices := by rw [hasTypeChoices_iff, h]; simp
    simp [hnone]
  case isFalse h =>
    have hchoices : candidate.HasTypeChoices := by rw [hasTypeChoices_iff]; simpa using h
    simp [hchoices, mem_reasonIf, and_assoc]

theorem not_hasTypeChoices_iff : ¬ candidate.HasTypeChoices ↔
    candidate.inputTypes = [] ∨ candidate.outputTypes = [] ∨ candidate.accumulatorTypes = [] := by
  simp only [KernelCandidateDescriptor.HasTypeChoices, not_and_or, not_not]

/-- The reasons listed against a candidate are the violations that are reported. -/
theorem mem_rejectionReasons_iff :
    reason ∈ rejectionReasons candidate request target ↔ Reported candidate request target reason := by
  simp only [rejectionReasons, List.mem_append, List.mem_flatMap, mem_reasonIf, mem_shapeReasons_iff,
    mem_typeReasons_iff]
  constructor
  · intro h
    rcases h with (((((((h | h) | h) | h) | h) | h) | h) | h) | h
    · exact ⟨h.2 ▸ .encoding (by simpa using h.1), by simp [h.2]⟩
    · exact ⟨h.2 ▸ .readiness (by simpa using h.1), by simp [h.2]⟩
    · exact ⟨h.2 ▸ .mode (by simpa using h.1), by simp [h.2]⟩
    · obtain ⟨hbackends, rfl⟩ := h
      simp only [Bool.not_eq_true', List.any_eq_false, Bool.or_eq_true, beq_iff_eq, not_or] at hbackends
      exact ⟨.backend (fun h => (hbackends _ h).1 rfl) fun h => (hbackends _ h).2 rfl, by simp⟩
    · obtain ⟨hexact, rfl⟩ := h
      refine ⟨.architecture ?_ fun architecture h hmem => ?_, by simp⟩
      · intro hnil
        simp [hnil] at hexact
      · rw [Option.mem_def] at h
        simp [h, hmem] at hexact
    · obtain ⟨f, hf, hmissing, rfl⟩ := h
      exact ⟨.feature hf (by simpa using hmissing), by simp⟩
    · obtain ⟨shape, hshape, ⟨expected, hrank, hne, rfl⟩ | ⟨multiple, hmem, dimension, hdim, hnot, rfl⟩⟩ := h
      · exact ⟨.rank hshape hrank hne, by simp⟩
      · exact ⟨.axis hshape hmem hdim hnot, by simp⟩
    · obtain ⟨horient, rfl⟩ := h
      simp only [Bool.and_eq_true, Bool.not_eq_true', List.isEmpty_eq_false_iff] at horient
      exact ⟨.orientation horient.1 (by simpa using horient.2), by simp⟩
    · obtain ⟨hnone, rfl⟩ | ⟨hchoices, hsensitive, hfloor, rfl⟩ := h
      · exact ⟨.typeChoice (not_hasTypeChoices_iff.mp hnone), by simp⟩
      · exact ⟨.precision hsensitive hfloor, fun _ _ _ => hchoices⟩
  · intro h
    obtain ⟨hviolates, hfloor⟩ := h
    cases hviolates with
    | encoding h => simp [h]
    | readiness h => simp [h]
    | mode h => simp [h]
    | backend hany hdriver =>
      have hbackends : candidate.target.backends.any (fun b => b == "any" || b == target.driver) = false := by
        simp only [List.any_eq_false, Bool.or_eq_true, beq_iff_eq, not_or]
        exact fun b hb => ⟨fun h => hany (h ▸ hb), fun h => hdriver (h ▸ hb)⟩
      simp [hbackends]
    | architecture hexact h =>
      have hnone : target.architecture.any (candidate.target.exactArchitectures.contains ·) = false := by
        cases harch : target.architecture with
        | none => rfl
        | some architecture => simpa using h architecture (by simp [harch])
      refine .inl (.inl (.inl (.inl (.inr ⟨?_, rfl⟩))))
      simp only [hnone, Bool.not_false, Bool.and_true, Bool.not_eq_true', List.isEmpty_eq_false_iff]
      exact hexact
    | feature hf hmissing => simp [hf, hmissing]
    | rank hshape hrank hne => exact .inl (.inl (.inr ⟨_, hshape, .inl ⟨_, hrank, hne, rfl⟩⟩))
    | axis hshape hmem hdim hnot => exact .inl (.inl (.inr ⟨_, hshape, .inr ⟨_, hmem, _, hdim, hnot, rfl⟩⟩))
    | orientation hsome h => simp [hsome, h]
    | typeChoice h => simp [not_hasTypeChoices_iff, h]
    | precision hsensitive h => simp [hfloor _ _ rfl, hsensitive, h]

end reasons

/-- Nothing speaks against the candidate of the request's operation. -/
structure Eligible (candidates : List KernelCandidateDescriptor) (request : KernelRequest) (target : TargetProfile)
    (candidate : KernelCandidateDescriptor) : Prop where
  mem : candidate ∈ candidates
  operation : candidate.operation = request.operation
  meets : ∀ reason, ¬ Violates candidate request target reason

section walk

variable {cost : KernelCost} {request : KernelRequest} {target : TargetProfile}
  {candidates : List KernelCandidateDescriptor} {candidate : KernelCandidateDescriptor}

theorem rejectionReasons_eq_nil_iff :
    rejectionReasons candidate request target = [] ↔ ∀ reason, ¬ Violates candidate request target reason := by
  simp only [List.eq_nil_iff_forall_not_mem, mem_rejectionReasons_iff]
  constructor
  · intro h reason hviolates
    by_cases hchoices : candidate.HasTypeChoices
    · exact h reason ⟨hviolates, fun _ _ _ => hchoices⟩
    · -- A missing type choice is reported in place of the floor that it hides.
      exact h .missingTypeChoice ⟨.typeChoice (not_hasTypeChoices_iff.mp hchoices), by simp⟩
  · exact fun h reason hreported => h reason hreported.1

theorem Eligible.reasons (h : Eligible candidates request target candidate) :
    rejectionReasons candidate request target = [] := rejectionReasons_eq_nil_iff.mpr h.meets

theorem Eligible.native {native : KernelCandidateDescriptor} {feature : String}
    (h : Eligible candidates request target candidate) (hmem : native ∈ candidates)
    (hnative : native.NativeOf candidate feature) (hfeature : feature ∈ target.features) :
    Eligible candidates request target native := by
  have hoperation : native.operation = candidate.operation := congrArg (·.operation) hnative.1
  exact ⟨hmem, hoperation.trans h.operation, rejectionReasons_eq_nil_iff.mp (hnative.reasons hfeature h.reasons)⟩

/-- The candidates of the operation that nothing speaks against, and those with reasons. -/
def eligibleCandidates (candidates : List KernelCandidateDescriptor) (request : KernelRequest)
    (target : TargetProfile) : List KernelCandidateDescriptor :=
  (candidates.filter (·.operation == request.operation)).filter fun candidate =>
    (rejectionReasons candidate request target).isEmpty

def rejectedCandidates (candidates : List KernelCandidateDescriptor) (request : KernelRequest)
    (target : TargetProfile) : List KernelCandidateDescriptor :=
  (candidates.filter (·.operation == request.operation)).filter fun candidate =>
    !(rejectionReasons candidate request target).isEmpty

theorem mem_eligibleCandidates_iff :
    candidate ∈ eligibleCandidates candidates request target ↔ Eligible candidates request target candidate := by
  simp only [eligibleCandidates, List.mem_filter, beq_iff_eq, List.isEmpty_iff, rejectionReasons_eq_nil_iff]
  exact ⟨fun h => ⟨h.1.1, h.1.2, h.2⟩, fun h => ⟨⟨h.mem, h.operation⟩, h.meets⟩⟩

theorem mem_rejectedCandidates_iff : candidate ∈ rejectedCandidates candidates request target ↔
    candidate ∈ candidates ∧ candidate.operation = request.operation ∧
      ∃ reason, Violates candidate request target reason := by
  simp only [rejectedCandidates, List.mem_filter, beq_iff_eq, Bool.not_eq_true', List.isEmpty_eq_false_iff, ne_eq,
    rejectionReasons_eq_nil_iff, not_forall, not_not, and_assoc]

/-- What the walk does with an eligible candidate. -/
def scoreCandidate (cost : KernelCost) (request : KernelRequest) (target : TargetProfile)
    (candidate : KernelCandidateDescriptor) : Except DynInferError SelectedKernelCandidate := do
  let score ← cost candidate request target
  return selectCandidate candidate request score

theorem scoreCandidate_ok_iff {s : SelectedKernelCandidate} : scoreCandidate cost request target candidate = .ok s ↔
    ∃ score, cost candidate request target = .ok score ∧ s = selectCandidate candidate request score := by
  unfold scoreCandidate
  rw [Fallible.bind_ok_iff]
  exact exists_congr fun score => and_congr_right fun _ => ⟨fun h => by cases h; rfl, fun h => by rw [h]; rfl⟩

/-- The walk is a traversal of the eligible candidates; the rejected ones are listed in their order. -/
theorem foldlM_selectStep (walked : List KernelCandidateDescriptor)
    (lists : List SelectedKernelCandidate × List (String × List CandidateRejectionReason)) :
    walked.foldlM (KernelRegistry.selectStep cost request target) lists =
      (do
        let scored ← (walked.filter fun candidate => (rejectionReasons candidate request target).isEmpty).mapM
          (scoreCandidate cost request target)
        return (lists.1 ++ scored, lists.2 ++
          (walked.filter fun candidate => !(rejectionReasons candidate request target).isEmpty).map
            fun candidate => (candidate.id, rejectionReasons candidate request target))) := by
  induction walked generalizing lists with
  | nil => simp
  | cons candidate walked ih =>
    rw [List.foldlM_cons]
    by_cases h : (rejectionReasons candidate request target).isEmpty = true
    · rw [List.filter_cons_of_pos (by simpa using h), List.filter_cons_of_neg (by simpa using h), List.mapM_cons]
      simp only [KernelRegistry.selectStep, h, if_true, scoreCandidate, bind_assoc, pure_bind, ih, List.append_assoc,
        List.singleton_append]
    · rw [List.filter_cons_of_neg (by simpa using h), List.filter_cons_of_pos (by simpa using h)]
      simp only [KernelRegistry.selectStep, h, Bool.false_eq_true, if_false, pure_bind, ih, List.append_assoc, List.singleton_append,
        List.map_cons]

theorem select_eq (registry : KernelRegistry) : registry.select cost request target = (do
    let scored ← (eligibleCandidates registry.candidates request target).mapM (scoreCandidate cost request target)
    return { selected := (scored.insertionSort SelectedKernelCandidate.Precedes).head?
             rejected := (rejectedCandidates registry.candidates request target).map
               fun candidate => (candidate.id, rejectionReasons candidate request target) }) := by
  unfold KernelRegistry.select
  rw [foldlM_selectStep]
  simp only [List.nil_append, bind_assoc, pure_bind]
  rfl

/-- What a selection says of the registered candidates. -/
structure SelectionReport.Answers (candidates : List KernelCandidateDescriptor) (cost : KernelCost)
    (request : KernelRequest) (target : TargetProfile) (report : SelectionReport) : Prop where
  /-- The greatest score, and the smallest id among equals. -/
  selected_best : ∀ s, report.selected = some s → ∃ candidate, Eligible candidates request target candidate ∧
    cost candidate request target = .ok s.score ∧ s = selectCandidate candidate request s.score ∧
    ∀ other, Eligible candidates request target other → ∀ score, cost other request target = .ok score →
      score < s.score ∨ score = s.score ∧ candidate.id ≤ other.id
  selected_none : report.selected = none ↔ ∀ candidate, ¬ Eligible candidates request target candidate
  rejected_mem : ∀ id reasons, (id, reasons) ∈ report.rejected ↔ ∃ candidate ∈ candidates,
    candidate.operation = request.operation ∧ (∃ reason, Violates candidate request target reason) ∧
      id = candidate.id ∧ reasons = rejectionReasons candidate request target
  /-- Each once, in the order of registration. -/
  rejected_order : (report.rejected.map (·.1)).Sublist (candidates.map (·.id))

theorem select_answers {registry : KernelRegistry} {report : SelectionReport}
    (h : registry.select cost request target = .ok report) :
    report.Answers registry.candidates cost request target := by
  rw [select_eq] at h
  obtain ⟨scored, hscored, h⟩ := Fallible.bind_ok h
  have hreport := (Except.ok.inj h).symm
  have hforall := Fallible.mapM_ok hscored
  -- The scored candidates are the eligible ones with their scores.
  have hscored_of {candidate : KernelCandidateDescriptor}
      (heligible : Eligible registry.candidates request target candidate) :
      ∃ score, cost candidate request target = .ok score ∧ selectCandidate candidate request score ∈ scored := by
    obtain ⟨s, hs, hok⟩ := Fallible.exists_of_forall₂ hforall (mem_eligibleCandidates_iff.mpr heligible)
    obtain ⟨score, hcost, rfl⟩ := scoreCandidate_ok_iff.mp hok
    exact ⟨score, hcost, hs⟩
  have hof_scored {s : SelectedKernelCandidate} (hs : s ∈ scored) :
      ∃ candidate, Eligible registry.candidates request target candidate ∧
        ∃ score, cost candidate request target = .ok score ∧ s = selectCandidate candidate request score := by
    obtain ⟨candidate, hmem, hok⟩ := Fallible.exists_of_forall₂ hforall.flip hs
    exact ⟨candidate, mem_eligibleCandidates_iff.mp hmem, scoreCandidate_ok_iff.mp hok⟩
  subst hreport
  constructor
  case selected_best =>
    intro s hs
    obtain ⟨hmem, hbest⟩ := Sorting.head?_insertionSort hs
    obtain ⟨candidate, heligible, score, hcost, rfl⟩ := hof_scored hmem
    refine ⟨candidate, heligible, hcost, rfl, fun other hother score' hscore' => ?_⟩
    obtain ⟨score'', hcost', hmem'⟩ := hscored_of hother
    obtain rfl := Except.ok.inj (hscore'.symm.trans hcost')
    rcases hbest _ hmem' with hlt | ⟨heq, hid⟩
    · exact .inl hlt
    · exact .inr ⟨heq, hid⟩
  case selected_none =>
    rw [Sorting.head?_insertionSort_eq_none_iff]
    constructor
    · rintro rfl candidate heligible
      obtain ⟨_, _, hmem⟩ := hscored_of heligible
      cases hmem
    · intro hnone
      refine List.eq_nil_iff_forall_not_mem.mpr fun s hs => ?_
      obtain ⟨candidate, heligible, _⟩ := hof_scored hs
      exact hnone candidate heligible
  case rejected_mem =>
    intro id reasons
    simp only [List.mem_map, mem_rejectedCandidates_iff, Prod.mk.injEq]
    constructor
    · rintro ⟨candidate, ⟨hmem, hop, hviolates⟩, rfl, rfl⟩
      exact ⟨candidate, hmem, hop, hviolates, rfl, rfl⟩
    · rintro ⟨candidate, hmem, hop, hviolates, rfl, rfl⟩
      exact ⟨candidate, ⟨hmem, hop, hviolates⟩, rfl, rfl⟩
  case rejected_order =>
    rw [List.map_map]
    exact (List.filter_sublist.trans List.filter_sublist).map _

theorem select_ok_iff {registry : KernelRegistry} :
    (∃ report, registry.select cost request target = .ok report) ↔
      ∀ candidate, Eligible registry.candidates request target candidate →
        ∃ score, cost candidate request target = .ok score := by
  rw [select_eq]
  constructor
  · rintro ⟨report, h⟩ candidate heligible
    obtain ⟨scored, hscored, -⟩ := Fallible.bind_ok h
    obtain ⟨s, -, hok⟩ :=
      Fallible.exists_of_forall₂ (Fallible.mapM_ok hscored) (mem_eligibleCandidates_iff.mpr heligible)
    obtain ⟨score, hcost, -⟩ := scoreCandidate_ok_iff.mp hok
    exact ⟨score, hcost⟩
  · intro h
    obtain ⟨scored, hscored⟩ : ∃ scored, (eligibleCandidates registry.candidates request target).mapM
        (scoreCandidate cost request target) = .ok scored := by
      refine Fallible.mapM_total fun candidate hmem => ?_
      obtain ⟨score, hcost⟩ := h candidate (mem_eligibleCandidates_iff.mp hmem)
      exact ⟨_, scoreCandidate_ok_iff.mpr ⟨score, hcost, rfl⟩⟩
    rw [hscored]
    exact ⟨_, rfl⟩

/-- Under the deterministic cost model selection cannot fail. -/
theorem select_deterministicCost (registry : KernelRegistry) (request : KernelRequest) (target : TargetProfile) :
    ∃ report, registry.select deterministicCost request target = .ok report :=
  select_ok_iff.mpr fun _ _ => ⟨_, rfl⟩

/-- What it selects is eligible, and precedes every eligible candidate. -/
theorem select_selected {registry : KernelRegistry} {report : SelectionReport}
    (h : registry.select deterministicCost request target = .ok report) {s : SelectedKernelCandidate}
    (hs : report.selected = some s) :
    (∃ candidate, Eligible registry.candidates request target candidate ∧
        s = selectCandidate candidate request (deterministicScore candidate target)) ∧
      ∀ candidate, Eligible registry.candidates request target candidate →
        s.Precedes (selectCandidate candidate request (deterministicScore candidate target)) := by
  obtain ⟨candidate, heligible, hcost, hselected, hbest⟩ := (select_answers h).selected_best s hs
  rw [← Except.ok.inj hcost] at hselected
  refine ⟨⟨candidate, heligible, hselected⟩, fun other hother => ?_⟩
  rcases hbest other hother _ rfl with hlt | ⟨heq, hid⟩
  · exact .inl hlt
  · refine .inr ⟨heq, ?_⟩
    rw [hselected]
    exact hid

/-- Where ids are distinct, two best candidates are one. -/
theorem SelectionReport.Answers.selected_eq {candidates' : List KernelCandidateDescriptor}
    {report report' : SelectionReport} (h : report.Answers candidates cost request target)
    (h' : report'.Answers candidates' cost request target) (hids : (candidates.map (·.id)).Nodup)
    (hmem : ∀ candidate, candidate ∈ candidates ↔ candidate ∈ candidates') : report'.selected = report.selected := by
  have heligible (candidate : KernelCandidateDescriptor) :
      Eligible candidates request target candidate ↔ Eligible candidates' request target candidate :=
    ⟨fun h => ⟨(hmem _).mp h.mem, h.operation, h.meets⟩, fun h => ⟨(hmem _).mpr h.mem, h.operation, h.meets⟩⟩
  cases hs : report.selected with
  | none =>
    rw [h'.selected_none]
    exact fun candidate hc => h.selected_none.mp hs candidate ((heligible candidate).mpr hc)
  | some s =>
    cases hs' : report'.selected with
    | none =>
      obtain ⟨candidate, hc, -⟩ := h.selected_best s hs
      exact absurd ((heligible candidate).mp hc) (h'.selected_none.mp hs' candidate)
    | some s' =>
      obtain ⟨candidate, hc, hcost, hscored, hbest⟩ := h.selected_best s hs
      obtain ⟨candidate', hc', hcost', hscored', hbest'⟩ := h'.selected_best s' hs'
      have hle := hbest candidate' ((heligible candidate').mpr hc') _ hcost'
      have hle' := hbest' candidate ((heligible candidate).mp hc) _ hcost
      have hscore : s'.score = s.score := by omega
      have hid : candidate.id = candidate'.id := by
        rcases hle with h | ⟨_, hid⟩
        · omega
        rcases hle' with h | ⟨_, hid'⟩
        · omega
        exact le_antisymm hid hid'
      have hsame : candidate = candidate' :=
        List.inj_on_of_nodup_map hids hc.mem ((hmem _).mpr hc'.mem) hid
      rw [hscored, hscored', hscore, hsame]

/-- Candidates of distinct ids are all registered, in order. -/
theorem foldlM_register {registry : KernelRegistry}
    (hids : ((registry.candidates ++ candidates).map (·.id)).Nodup) :
    candidates.foldlM KernelRegistry.register registry =
      .ok { candidates := registry.candidates ++ candidates } := by
  induction candidates generalizing registry with
  | nil => rw [List.append_nil]; rfl
  | cons candidate candidates ih =>
    have hfresh : registry.candidates.any (·.id == candidate.id) = false := by
      simp only [List.any_eq_false, beq_iff_eq]
      intro other hmem hid
      rw [List.map_append, List.nodup_append'] at hids
      exact hids.2.2 (List.mem_map_of_mem hmem) (by simp [hid])
    rw [List.foldlM_cons, KernelRegistry.register, if_neg (by simp [hfresh]), Fallible.ok_bind]
    simpa using @ih { candidates := registry.candidates ++ [candidate] } (by simpa using hids)

end walk

/-! ## Selection -/

/-- **Selection is optimal, sound and independent of order.** Candidates of distinct ids are all
registered. Whatever the cost model, a selection that returns (it does unless the model fails on an
eligible candidate) selects an eligible candidate of the greatest score, of the smallest id among
equals, and none only where none is eligible. It rejects the violating candidates, each once and with
its reported violations. Any other order of registration gives the same selection. -/
theorem select_optimal (candidates : List KernelCandidateDescriptor) (hids : (candidates.map (·.id)).Nodup)
    (cost : KernelCost) (request : KernelRequest) (target : TargetProfile) :
    ∃ registry, candidates.foldlM KernelRegistry.register {} = .ok registry ∧
      ((∃ report, registry.select cost request target = .ok report) ↔
        ∀ candidate, Eligible candidates request target candidate →
          ∃ score, cost candidate request target = .ok score) ∧
      (∀ candidate reason, reason ∈ rejectionReasons candidate request target ↔
        Reported candidate request target reason) ∧
      ∀ report, registry.select cost request target = .ok report →
        report.Answers candidates cost request target ∧
        ∀ reordered : List KernelCandidateDescriptor, reordered.Perm candidates →
          ∃ registry' report', reordered.foldlM KernelRegistry.register {} = .ok registry' ∧
            registry'.select cost request target = .ok report' ∧ report'.selected = report.selected := by
  refine ⟨⟨candidates⟩, foldlM_register (by simpa using hids), select_ok_iff,
    fun _ _ => mem_rejectionReasons_iff, fun report hreport => ?_⟩
  have hanswers := select_answers hreport
  refine ⟨hanswers, fun reordered hperm => ?_⟩
  have hmem (candidate : KernelCandidateDescriptor) : candidate ∈ candidates ↔ candidate ∈ reordered :=
    hperm.mem_iff.symm
  have hids' : (reordered.map (·.id)).Nodup := (hperm.map _).nodup_iff.mpr hids
  obtain ⟨report', hreport'⟩ : ∃ report', KernelRegistry.select ⟨reordered⟩ cost request target = .ok report' := by
    rw [select_ok_iff]
    intro candidate hc
    exact select_ok_iff.mp ⟨report, hreport⟩ candidate ⟨(hmem _).mpr hc.mem, hc.operation, hc.meets⟩
  exact ⟨⟨reordered⟩, report', foldlM_register (by simpa using hids'), hreport',
    hanswers.selected_eq (select_answers hreport') hids hmem⟩

/-- A request of attention, and a target that names its driver alone. -/
def attentionRequest : KernelRequest where
  operation := .attention
  encoding := none
  logicalShape := none
  orientation := .native
  mode := .decode
  precisionPolicy := {}

theorem select_optimal_builtin : ∃ registry report,
    registerBuiltinSemanticCandidates {} = .ok registry ∧
      registry.select deterministicCost attentionRequest { driver := "local-task" } = .ok report ∧
      report.Answers builtinSemanticCandidates deterministicCost attentionRequest { driver := "local-task" } := by
  obtain ⟨registry, hregistry, htotal, _, hselect⟩ := select_optimal builtinSemanticCandidates (by decide)
    deterministicCost attentionRequest { driver := "local-task" }
  obtain ⟨report, hreport⟩ := htotal.mpr fun _ _ => ⟨_, rfl⟩
  exact ⟨registry, report, hregistry, hreport, (hselect report hreport).1⟩

/-- An attention kernel of no input type, which accumulates below the precision floor. -/
def untypedAttention : KernelCandidateDescriptor :=
  { semanticCandidate .attention "attention.untyped" "attention.untyped" .f16 100 with inputTypes := [] }

theorem precision_floor_unlisted : ∃ registry report reasons,
    [untypedAttention].foldlM KernelRegistry.register {} = .ok registry ∧
      registry.select deterministicCost attentionRequest { driver := "local-task" } = .ok report ∧
      report.rejected = [(untypedAttention.id, reasons)] ∧
      Violates untypedAttention attentionRequest { driver := "local-task" } (.precisionFloor .f32 [.f16]) ∧
      .precisionFloor .f32 [.f16] ∉ reasons :=
  ⟨⟨[untypedAttention]⟩, ⟨none, [(untypedAttention.id, [.missingTypeChoice])]⟩, [.missingTypeChoice], rfl, rfl, rfl,
    .precision rfl (by decide), by decide⟩

end Dyninfer
