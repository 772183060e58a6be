/-
Which index of a row of logits is the greatest: by the scan with `>` of a
generation and of a trace, and by the sort of `compare`. The scan ends at the
first maximum by number and the sort begins with the first maximum in the total
order. These differ where the row's maximum is zero, its first zero is
negative, and a positive one follows.
-/
import Dyninfer.Cli.Drift

namespace Dyninfer

open Binary32 Effect FirstMax

namespace Drift

variable {row : List Binary32}

/-! ## The two maxima -/

theorem weakOrderOn_gt : WeakOrderOn Binary32.gt negInfinity (fun x => x.isNaN = false) := by
  refine ⟨by decide, fun x y z hx hy hz h => ?_, fun x hx => ?_⟩
  · rw [gt_iff hx hz] at h
    rw [gt_iff hx hy, gt_iff hy hz]
    omega
  · rw [← Bool.not_eq_true, gt_iff (by decide) hx]
    have hplace := place_negInfinity_le hx
    omega

theorem isFirstMax_gt_iff (hrow : ∀ x ∈ row, x.isFinite = true) {i : Nat} :
    IsFirstMax Binary32.gt row i ↔ IsFirstMax (byKey place) row i :=
  isFirstMax_congr fun x hx y hy => by
    rw [Bool.eq_iff_iff, gt_iff (not_isNaN_of_isFinite (hrow x hx)) (not_isNaN_of_isFinite (hrow y hy)), byKey,
      decide_eq_true_eq]

/-- Both scans end at the first maximum. -/
theorem argmax_of_isFirstMax (hrow : ∀ x ∈ row, x.isFinite = true) {i : Nat} (h : IsFirstMax Binary32.gt row i) :
    LogitTrace.argmax row = UInt32.ofNat i := by
  have hscan := scan_eq_on weakOrderOn_gt (fun x hx => not_isNaN_of_isFinite (hrow x hx)) h
  show UInt32.ofNat (scan Binary32.gt (0, negInfinity) row 0).1 = _
  rw [hscan]

/-- The sorted indices begin with the first maximum in the total order. -/
theorem head?_descendingIndices {i : Nat} (h : (descendingIndices row).head? = some i) :
    IsFirstMax (byKey totalPlace) row i := by
  unfold descendingIndices at h
  rw [List.head?_map, Option.map_eq_some_iff] at h
  obtain ⟨v, hv, rfl⟩ := h
  obtain ⟨hmem, hle⟩ := Sorting.head?_sortByKey hv
  refine isFirstMax_of_le (List.mem_zipIdx_iff_getElem?.mp hmem) fun k x hx => ?_
  have hk := hle (x, k) (List.mem_zipIdx_iff_getElem?.mpr hx)
  rw [Prod.Lex.le_iff] at hk
  simp only [ofLex_toLex] at hk
  omega

theorem exists_head?_descendingIndices (hne : row ≠ []) : ∃ i, (descendingIndices row).head? = some i := by
  cases hhead : (descendingIndices row).head? with
  | some i => exact ⟨i, rfl⟩
  | none =>
    have hlength : (descendingIndices row).length = row.length := by
      unfold descendingIndices
      rw [List.length_map, (Sorting.perm_sortByKey _ _).length_eq, List.length_zipIdx]
    rw [List.head?_eq_none_iff.mp hhead] at hlength
    exact absurd (List.length_eq_zero_iff.mp hlength.symm) hne

/-! ## Where they differ -/

/-- No value is positive, and the first zero is negative where a positive one follows. -/
def NegZeroLeads (row : List Binary32) : Prop :=
  (∀ x ∈ row, x.gt zero = false) ∧ row.find? (fun x => x == zero || x == negZero) = some negZero ∧ zero ∈ row

instance (row : List Binary32) : Decidable (NegZeroLeads row) :=
  inferInstanceAs (Decidable (_ ∧ _ ∧ _))

/-- The element that is greatest by number is that of the total order but for the zeros. -/
theorem eq_or_zeros {i j : Nat} (hi : IsFirstMax (byKey place) row i) (hj : IsFirstMax (byKey totalPlace) row j) :
    i = j ∨ row[i]? = some negZero ∧ row[j]? = some zero := by
  obtain ⟨m, hm, hplace⟩ := hi.le
  obtain ⟨m', hm', htotal⟩ := hj.le
  by_cases hlt : m.totalPlace < m'.totalPlace
  · obtain ⟨rfl, rfl⟩ := zeros_of_totalPlace_lt (hplace j m' hm').1 hlt
    exact .inr ⟨hm, hm'⟩
  · left
    have hle : m.place ≤ m'.place := by
      by_cases h : m'.place < m.place
      · have := totalPlace_lt h
        have := (htotal i m hm).1
        omega
      · omega
    rcases lt_trichotomy i j with h | h | h
    · exact absurd ((htotal i m hm).2 h) hlt
    · exact h
    · have := (hplace j m' hm').2 h
      omega

theorem negZeroLeads_of_zeros {i j : Nat} (hrow : ∀ x ∈ row, x.isFinite = true) (hi : IsFirstMax (byKey place) row i)
    (hneg : row[i]? = some negZero) (hzero : row[j]? = some zero) : NegZeroLeads row := by
  obtain ⟨before, m, after, rfl, rfl, hbefore, hafter⟩ := hi
  obtain rfl : m = negZero := by simpa using hneg
  have hplace : negZero.place = 0 := by decide
  simp only [byKey, decide_eq_true_eq, decide_eq_false_iff_not, not_lt, hplace] at hbefore hafter
  refine ⟨fun x hx => ?_, ?_, List.mem_of_getElem? hzero⟩
  · rw [← Bool.not_eq_true, gt_iff (not_isNaN_of_isFinite (hrow x hx)) (by decide)]
    have hzeroPlace : zero.place = 0 := by decide
    rcases List.mem_append.mp hx with h | h
    · have := hbefore x h
      omega
    · cases h with
      | head => omega
      | tail _ h =>
        have := hafter x h
        omega
  · refine List.find?_eq_some_iff_append.mpr ⟨by decide, before, after, rfl, fun x hx => ?_⟩
    have hne := hbefore x hx
    rw [Bool.not_eq_true', Bool.or_eq_false_iff, beq_eq_false_iff_ne, beq_eq_false_iff_ne]
    constructor
    · rintro rfl
      exact absurd hne (by decide)
    · rintro rfl
      exact absurd hne (by decide)

theorem ne_of_negZeroLeads {i j : Nat} (hrow : ∀ x ∈ row, x.isFinite = true) (h : NegZeroLeads row)
    (hi : IsFirstMax (byKey place) row i) (hj : IsFirstMax (byKey totalPlace) row j) : i ≠ j := by
  rintro rfl
  obtain ⟨hpos, hfind, hzero⟩ := h
  obtain ⟨m, hm, hplace⟩ := hi.le
  obtain ⟨m', hm', htotal⟩ := hj.le
  obtain rfl : m = m' := Option.some.inj (hm.symm.trans hm')
  have hmem := List.mem_of_getElem? hm
  -- The greatest is no positive number, and in the total order no less than the positive zero.
  have hle : m.place ≤ 0 := by
    have h := hpos m hmem
    rw [← Bool.not_eq_true, gt_iff (not_isNaN_of_isFinite (hrow m hmem)) (by decide)] at h
    have hzeroPlace : zero.place = 0 := by decide
    omega
  obtain ⟨k, hk⟩ := List.mem_iff_getElem?.mp hzero
  have hge : 0 ≤ m.totalPlace := by
    have h := (htotal k zero hk).1
    have hzeroPlace : zero.totalPlace = 0 := by decide
    omega
  obtain rfl : m = zero := eq_zero_of_totalPlace hge hle
  -- Then the first zero is before it, and is as great.
  obtain ⟨-, before, after, rfl, hbefore⟩ := List.find?_eq_some_iff_append.mp hfind
  have hfirst := hplace before.length negZero (by simp)
  rcases Nat.lt_trichotomy before.length i with h | h | h
  · exact absurd (hfirst.2 h) (by decide)
  · subst h
    have hsame : negZero = zero := by simpa using hm
    exact absurd hsame (by decide)
  · rw [List.getElem?_append_left h] at hm
    exact absurd (hbefore zero (List.mem_of_getElem? hm)) (by decide)

/-! ## The check of a row -/

theorem firstIndex_ok {indices : List Nat} {token : TokenId} (h : firstIndex indices = .ok token) :
    indices.headD 0 < 2 ^ 32 ∧ token = UInt32.ofNat (indices.headD 0) := by
  unfold firstIndex at h
  split at h
  case isTrue hlt =>
    cases h
    exact ⟨hlt, rfl⟩
  case isFalse => cases h

theorem firstIndex_of_head {indices : List Nat} {i : Nat} (h : indices.head? = some i) (hi : i < 2 ^ 32) :
    firstIndex indices = .ok (UInt32.ofNat i) := by
  unfold firstIndex
  rw [List.headD_eq_head?_getD, h]
  exact if_pos hi

theorem checkFinite_ok {engine : String} {values : List Binary32} (h : ∀ x ∈ values, x.isFinite = true) :
    checkFinite engine values = .ok () := by
  unfold checkFinite
  rw [LogitTrace.firstNonFinite_eq_none_iff.mpr h]

/-- Two finite rows of one width compare, and the argmaxes reported begin the sorted indices. -/
theorem compare_ok {dyninfer : List Binary32} {topK : Nat} {r d : TokenId} (hne : row ≠ [])
    (hlength : dyninfer.length = row.length) (htopK : topK ≠ 0) (hrow : ∀ x ∈ row, x.isFinite = true)
    (hdyninfer : ∀ x ∈ dyninfer, x.isFinite = true) (hr : firstIndex (descendingIndices row) = .ok r)
    (hd : firstIndex (descendingIndices dyninfer) = .ok d) :
    ∃ metrics, compare row dyninfer topK = .ok metrics ∧ metrics.referenceArgmax = r ∧ metrics.dyninferArgmax = d := by
  unfold compare
  rw [if_neg hne, if_neg (not_not.mpr hlength.symm), if_neg htopK]
  simp only [checkFinite_ok hrow, checkFinite_ok hdyninfer, hr, hd, Fallible.ok_bind]
  exact ⟨_, rfl, rfl, rfl⟩

theorem isFirstMax_lt {key : Binary32 → Int} {i : Nat} (h : IsFirstMax (byKey key) row i) : i < row.length := by
  obtain ⟨m, hm, -⟩ := h.le
  exact (List.getElem?_eq_some_iff.mp hm).1

/-- **The three argmaxes agree** on a finite row, and no row a trace reader accepted is refused against a finite row
of its width, exactly where no negative zero leads and the first maximum is a token. -/
theorem argmax_agree_iff (hne : row ≠ []) (hrow : ∀ x ∈ row, x.isFinite = true) :
    (Dyninfer.argmax row = LogitTrace.argmax row ∧
      firstIndex (descendingIndices row) = .ok (LogitTrace.argmax row) ∧
      ∀ reader reader' traceRow dyninfer topK, LogitTrace.TraceReader.next.run reader = .ok row reader' →
        reader.header.rows[reader.nextRow]? = some traceRow → dyninfer.length = row.length →
        (∀ x ∈ dyninfer, x.isFinite = true) → topK ≠ 0 →
        ∃ metrics, compareRow topK reader.nextRow traceRow row dyninfer = .ok metrics ∧
          metrics.referenceArgmax = LogitTrace.argmax row ∧
          firstIndex (descendingIndices dyninfer) = .ok metrics.dyninferArgmax) ↔
      ¬ NegZeroLeads row ∧ ∃ i < 2 ^ 32, IsFirstMax Binary32.gt row i := by
  obtain ⟨j, hhead⟩ := exists_head?_descendingIndices hne
  have hj := head?_descendingIndices hhead
  constructor
  · rintro ⟨-, hfirst, -⟩
    obtain ⟨hlt, heq⟩ := firstIndex_ok hfirst
    rw [List.headD_eq_head?_getD, hhead, Option.getD_some] at hlt heq
    obtain ⟨i, hi⟩ := (exists_isFirstMax hne : ∃ i, IsFirstMax (byKey place) row i)
    rw [argmax_of_isFirstMax hrow ((isFirstMax_gt_iff hrow).mpr hi)] at heq
    have hij : i = j := by
      rcases eq_or_zeros hi hj with h | ⟨hneg, hzero⟩
      · exact h
      · -- The negative zero comes first, so its index is a token too.
        obtain ⟨m, hm, hle⟩ := hi.le
        obtain rfl : m = negZero := Option.some.inj (hm.symm.trans hneg)
        have hji : i ≤ j := by
          rcases Nat.lt_or_ge j i with h | h
          · exact absurd ((hle j zero hzero).2 h) (by decide)
          · exact h
        have htoNat := congrArg UInt32.toNat heq
        rw [UInt32.toNat_ofNat', UInt32.toNat_ofNat', Nat.mod_eq_of_lt (by omega), Nat.mod_eq_of_lt hlt] at htoNat
        exact htoNat
    refine ⟨fun h => ne_of_negZeroLeads hrow h hi hj hij, i, hij ▸ hlt, (isFirstMax_gt_iff hrow).mpr hi⟩
  · rintro ⟨hzeros, i, hlt, hi⟩
    have hargmax := argmax_of_isFirstMax hrow hi
    have hij : i = j := by
      rcases eq_or_zeros ((isFirstMax_gt_iff hrow).mp hi) hj with h | ⟨hneg, hzero⟩
      · exact h
      · exact absurd (negZeroLeads_of_zeros hrow ((isFirstMax_gt_iff hrow).mp hi) hneg hzero) hzeros
    subst hij
    have hfirst : firstIndex (descendingIndices row) = .ok (LogitTrace.argmax row) := by
      rw [hargmax]
      exact firstIndex_of_head hhead hlt
    refine ⟨rfl, hfirst, fun reader reader' traceRow dyninfer topK hnext htrace hlength hdyninfer htopK => ?_⟩
    obtain ⟨traceRow', htrace', hvocab, -, hrecorded⟩ := LogitTrace.next_ok hnext
    obtain rfl : traceRow = traceRow' := Option.some.inj (htrace.symm.trans htrace')
    have hdne : dyninfer ≠ [] := by
      rw [← List.length_pos_iff, hlength]
      exact List.length_pos_iff.mpr hne
    obtain ⟨k, hk⟩ := exists_head?_descendingIndices hdne
    have hklt : k < 2 ^ 32 := by
      have h1 := isFirstMax_lt (head?_descendingIndices hk)
      have h2 := UInt32.toNat_lt reader.header.vocabSize
      omega
    have hd := firstIndex_of_head hk hklt
    obtain ⟨metrics, hcompare, href, hdyn⟩ := compare_ok hne hlength htopK hrow hdyninfer hfirst hd
    refine ⟨metrics, ?_, href, hdyn ▸ hd⟩
    unfold compareRow
    rw [hcompare, Fallible.ok_bind, if_neg (by rw [href, hrecorded]; exact not_not.mpr rfl)]
    rfl

theorem argmax_agree_iff_zeros : Dyninfer.argmax [zero, negZero] = LogitTrace.argmax [zero, negZero] ∧
    firstIndex (descendingIndices [zero, negZero]) = .ok (LogitTrace.argmax [zero, negZero]) :=
  have h := (argmax_agree_iff (List.cons_ne_nil zero [negZero]) (by decide)).mpr
    ⟨by decide, 0, by decide, [], zero, [negZero], rfl, rfl, by decide, by decide⟩
  ⟨h.1, h.2.1⟩

/-- A trace of one row, the two zeros with the negative one first. -/
def zerosReader : LogitTrace.TraceReader where
  header := {
    format := LogitTrace.traceFormat
    version := LogitTrace.traceVersion
    engine := "llama.cpp"
    checkpointSha256 := "0123456789abcdef0123456789abcdef0123456789abcdef0123456789abcdef"
    vocabSize := 2
    promptTokens := [0]
    decodeInputs := []
    logitsDtype := "f32"
    logitsByteOrder := "little"
    rows := [{ phase := .prefill, position := 0, inputToken := 0, argmax := 0 }]
    logitsFile := "logits.f32le" }
  logits := LogitTrace.encode [negZero, zero]
  nextRow := 0

/-- The reader takes the row, and the comparison of the row with itself is refused. -/
theorem neg_zero_refused : Dyninfer.argmax [negZero, zero] = 0 ∧ LogitTrace.argmax [negZero, zero] = 0 ∧
    firstIndex (descendingIndices [negZero, zero]) = .ok 1 ∧ LogitTrace.validateHeader zerosReader.header = .ok () ∧
    (∃ reader, LogitTrace.TraceReader.next.run zerosReader = .ok [negZero, zero] reader) ∧
    ∃ traceRow, zerosReader.header.rows[zerosReader.nextRow]? = some traceRow ∧
      compareRow 1 zerosReader.nextRow traceRow [negZero, zero] [negZero, zero] =
        .error "reference row 0 metadata/logit argmax mismatch" := by
  have hne : [negZero, zero] ≠ [] := List.cons_ne_nil _ _
  have hfinite : ∀ x ∈ [negZero, zero], x.isFinite = true := by decide
  obtain ⟨j, hj⟩ := exists_head?_descendingIndices hne
  have hsecond : IsFirstMax (byKey totalPlace) [negZero, zero] 1 :=
    ⟨[negZero], zero, [], rfl, rfl, by decide, by decide⟩
  obtain rfl : j = 1 := (head?_descendingIndices hj).unique hsecond
  have hfirst := firstIndex_of_head hj (by decide)
  refine ⟨rfl, rfl, hfirst, rfl, ⟨_, LogitTrace.next_encode rfl rfl rfl hfinite rfl⟩, _, rfl, ?_⟩
  obtain ⟨metrics, hcompare, href, -⟩ := compare_ok hne rfl (by decide : 1 ≠ 0) hfinite hfinite hfirst hfirst
  unfold compareRow
  rw [hcompare, Fallible.ok_bind, if_pos (by rw [href]; decide)]
  rfl

end Drift

end Dyninfer
