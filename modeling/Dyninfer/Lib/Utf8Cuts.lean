/-
Cutting bytes in two and decoding the halves apart: the texts put together are
the text of the whole, except where the first half ends with the beginning of a
character that the second one goes on with. There each byte that is taken over
the cut is a replacement character more.
-/
import Dyninfer.Lib.Utf8

namespace Utf8

/-- `x` ends with the beginning of a character, and `y` goes on with it. -/
def Continues (x y : List UInt8) : Prop :=
  ∃ before part b rest c after, x = before ++ part ∧ part ≠ [] ∧ y = b :: rest ∧
    String.utf8EncodeChar c = part ++ b :: after

/-! ## Bytes of a character -/

theorem isContinuation_iff {b : UInt8} : isContinuation b = true ↔ 0x80 ≤ b.toNat ∧ b.toNat ≤ 0xbf := by
  have hall : ∀ n < 256, isContinuation (UInt8.ofNat n) = true ↔ 0x80 ≤ n ∧ n ≤ 0xbf := by decide +kernel
  have hb := hall b.toNat b.toNat_lt
  rwa [UInt8.ofNat_toNat] at hb

theorem isSecond_iff {b s : UInt8} : isSecond b s = true ↔ (0x80 ≤ s.toNat ∧ s.toNat ≤ 0xbf) ∧
    (b.toNat = 0xe0 → 0xa0 ≤ s.toNat) ∧ (b.toNat = 0xed → s.toNat ≤ 0x9f) ∧ (b.toNat = 0xf0 → 0x90 ≤ s.toNat) ∧
      (b.toNat = 0xf4 → s.toNat ≤ 0x8f) := by
  unfold isSecond
  simp only [← UInt8.toNat_inj, UInt8.le_iff_toNat_le, UInt8.reduceToNat]
  split
  · simp; omega
  split
  · simp; omega
  split
  · simp; omega
  split
  · simp; omega
  · simp; omega

theorem valid_toNat (c : Char) : c.val.toNat < 0xd800 ∨ 0xdfff < c.val.toNat ∧ c.val.toNat < 0x110000 := c.valid

theorem encodeChar_first {c : Char} {b : UInt8} {conts : List UInt8} (h : String.utf8EncodeChar c = b :: conts) :
    isContinuation b = false ∧ ∀ x ∈ conts, isContinuation x = true := by
  have hvalid := valid_toNat c
  unfold String.utf8EncodeChar at h
  simp only at h
  have hcont : ∀ n : Nat, isContinuation (UInt8.ofNat (n % 64 + 128)) = true := by
    intro n
    rw [isContinuation_iff, UInt8.toNat_ofNat']
    omega
  have hfirst : ∀ n : Nat, (n % 256 < 0x80 ∨ 0xbf < n % 256) → isContinuation (UInt8.ofNat n) = false := by
    intro n hn
    rw [Bool.eq_false_iff, ne_eq, isContinuation_iff, UInt8.toNat_ofNat']
    omega
  split at h
  · cases h
    exact ⟨hfirst _ (by omega), nofun⟩
  split at h
  · cases h
    exact ⟨hfirst _ (by omega), List.forall_mem_singleton.mpr (hcont _)⟩
  split at h
  · cases h
    refine ⟨hfirst _ (by omega), List.forall_mem_cons.mpr ⟨hcont _, ?_⟩⟩
    exact List.forall_mem_singleton.mpr (hcont _)
  · cases h
    refine ⟨hfirst _ (by omega), List.forall_mem_cons.mpr ⟨hcont _, List.forall_mem_cons.mpr ⟨hcont _, ?_⟩⟩⟩
    exact List.forall_mem_singleton.mpr (hcont _)

/-- The first two bytes of a character of three bytes or four. -/
theorem encodeChar_second {c : Char} {b s t : UInt8} {after : List UInt8}
    (h : String.utf8EncodeChar c = b :: s :: t :: after) : isSecond b s = true ∧
      ((0xe0 ≤ b.toNat ∧ b.toNat ≤ 0xef) ∧ after = [] ∨ (0xf0 ≤ b.toNat ∧ b.toNat ≤ 0xf4) ∧ ∃ u, after = [u]) := by
  have hvalid := valid_toNat c
  unfold String.utf8EncodeChar at h
  simp only at h
  split at h
  · cases h
  split at h
  · cases h
  rw [isSecond_iff]
  split at h
  · cases h
    simp only [UInt8.toNat_ofNat']
    refine ⟨by omega, .inl ⟨by omega, trivial⟩⟩
  · cases h
    simp only [UInt8.toNat_ofNat']
    refine ⟨by omega, .inr ⟨by omega, ?_⟩⟩
    simp

theorem exists_encodeChar {v : Nat} (hvalid : v < 0xd800 ∨ 0xdfff < v ∧ v < 0x110000) : ∃ c : Char, c.val.toNat = v :=
  ⟨Char.ofNatAux v hvalid, rfl⟩

theorem exists_three {b s : UInt8} (hb : 0xe0 ≤ b.toNat ∧ b.toNat ≤ 0xef) (hs : isSecond b s = true) :
    ∃ c t, String.utf8EncodeChar c = [b, s, t] := by
  rw [isSecond_iff] at hs
  obtain ⟨c, hc⟩ := exists_encodeChar (v := (b.toNat - 0xe0) * 4096 + (s.toNat - 0x80) * 64) (by omega)
  refine ⟨c, UInt8.ofNat (c.val.toNat % 64 + 128), ?_⟩
  unfold String.utf8EncodeChar
  simp only [hc]
  rw [if_neg (by omega), if_neg (by omega), if_pos (by omega)]
  congr 1
  · rw [← UInt8.toNat_inj, UInt8.toNat_ofNat']
    omega
  congr 1
  rw [← UInt8.toNat_inj, UInt8.toNat_ofNat']
  omega

theorem exists_four {b s t : UInt8} (hb : 0xf0 ≤ b.toNat ∧ b.toNat ≤ 0xf4) (hs : isSecond b s = true)
    (ht : isContinuation t = true) : ∃ c u, String.utf8EncodeChar c = [b, s, t, u] := by
  rw [isSecond_iff] at hs
  rw [isContinuation_iff] at ht
  obtain ⟨c, hc⟩ := exists_encodeChar
    (v := (b.toNat - 0xf0) * 262144 + (s.toNat - 0x80) * 4096 + (t.toNat - 0x80) * 64) (by omega)
  refine ⟨c, UInt8.ofNat (c.val.toNat % 64 + 128), ?_⟩
  unfold String.utf8EncodeChar
  simp only [hc]
  rw [if_neg (by omega), if_neg (by omega), if_neg (by omega)]
  congr 1
  · rw [← UInt8.toNat_inj, UInt8.toNat_ofNat']
    omega
  congr 1
  · rw [← UInt8.toNat_inj, UInt8.toNat_ofNat']
    omega
  congr 1
  rw [← UInt8.toNat_inj, UInt8.toNat_ofNat']
  omega

theorem three_iff {b : UInt8} : (0xe0 ≤ b ∧ b ≤ 0xef) ↔ 0xe0 ≤ b.toNat ∧ b.toNat ≤ 0xef := by
  simp only [UInt8.le_iff_toNat_le, UInt8.reduceToNat]

theorem four_iff {b : UInt8} : (0xf0 ≤ b ∧ b ≤ 0xf4) ↔ 0xf0 ≤ b.toNat ∧ b.toNat ≤ 0xf4 := by
  simp only [UInt8.le_iff_toNat_le, UInt8.reduceToNat]

/-! ## The beginning of a character -/

/-- All bytes of a beginning belong to it. -/
theorem invalidTail_eq {c : Char} {b : UInt8} {r after : List UInt8} (h : String.utf8EncodeChar c = b :: (r ++ after))
    (hne : after ≠ []) : invalidTail b r = r.length := by
  unfold invalidTail
  simp only [three_iff, four_iff]
  cases r with
  | nil => simp
  | cons s r =>
    cases r with
    | nil =>
      cases after with
      | nil => exact absurd rfl hne
      | cons t after =>
        obtain ⟨hs, ⟨hb, -⟩ | ⟨hb, -⟩⟩ := encodeChar_second h
        · rw [if_pos hb]
          simp [hs]
        · rw [if_neg (by omega), if_pos hb]
          simp [hs]
    | cons t r =>
      have ht := (encodeChar_first h).2 t (by simp)
      obtain ⟨hs, ⟨hb, hafter⟩ | ⟨hb, u, hafter⟩⟩ := encodeChar_second h
      · exact absurd (List.append_eq_nil_iff.mp hafter).2 hne
      · have hr : r = [] := by
          cases r with
          | nil => rfl
          | cons x r => exact absurd (List.append_eq_nil_iff.mp (List.cons.inj hafter).2).2 hne
        rw [if_neg (by omega), if_pos hb, hr]
        simp [hs, ht]

/-- Bytes behind make no beginning longer that they do not go on with. -/
theorem invalidTail_append {b : UInt8} {r y : List UInt8}
    (hnot : ∀ c b' rest after, y = b' :: rest → String.utf8EncodeChar c ≠ b :: (r ++ b' :: after)) :
    invalidTail b (r ++ y) = invalidTail b r := by
  cases y with
  | nil => rw [List.append_nil]
  | cons b' rest =>
    have hnot := fun c after => hnot c b' rest after rfl
    unfold invalidTail
    simp only [three_iff, four_iff]
    cases r with
    | nil =>
      have hsecond : (0xe0 ≤ b.toNat ∧ b.toNat ≤ 0xef) ∨ (0xf0 ≤ b.toNat ∧ b.toNat ≤ 0xf4) → isSecond b b' = false := by
        intro hb
        rw [Bool.eq_false_iff]
        intro hs
        rcases hb with hb | hb
        · obtain ⟨c, t, hc⟩ := exists_three hb hs
          exact hnot c [t] hc
        · obtain ⟨c, u, hc⟩ := exists_four (t := 0x80) hb hs (by decide)
          exact hnot c [0x80, u] hc
      by_cases hthree : 0xe0 ≤ b.toNat ∧ b.toNat ≤ 0xef
      · simp [hthree, hsecond (.inl hthree)]
      · by_cases hfour : 0xf0 ≤ b.toNat ∧ b.toNat ≤ 0xf4
        · rw [if_neg hthree, if_neg hthree, if_pos hfour, if_pos hfour]
          simp [hsecond (.inr hfour)]
        · rw [if_neg hthree, if_neg hthree, if_neg hfour, if_neg hfour]
    | cons s r =>
      cases r with
      | nil =>
        by_cases hfour : 0xf0 ≤ b.toNat ∧ b.toNat ≤ 0xf4
        · have hthree : ¬ (0xe0 ≤ b.toNat ∧ b.toNat ≤ 0xef) := by omega
          rw [if_neg hthree, if_neg hthree, if_pos hfour, if_pos hfour]
          by_cases hs : isSecond b s = true
          · have hthird : isContinuation b' = false := by
              rw [Bool.eq_false_iff]
              intro ht
              obtain ⟨c, u, hc⟩ := exists_four hfour hs ht
              exact hnot c [u] hc
            simp [hs, hthird]
          · simp [hs]
        · rw [if_neg hfour, if_neg hfour]
          rfl
      | cons t r => rfl

theorem decodeChar_eq_none {bytes : List UInt8} :
    decodeChar bytes = none ↔ ∀ c rest, bytes ≠ String.utf8EncodeChar c ++ rest := by
  constructor
  · intro h c rest hbytes
    rw [hbytes, decodeChar_append] at h
    cases h
  · intro h
    refine Option.eq_none_iff_forall_ne_some.mpr fun c hc => ?_
    obtain ⟨rest, hrest⟩ := exists_of_decodeChar hc
    exact h c rest hrest

/-- No byte that goes on with a character starts one. -/
theorem lossy_continuations {conts : List UInt8} (h : ∀ x ∈ conts, isContinuation x = true) (rest : List UInt8) :
    lossy (conts ++ rest) = List.replicate conts.length replacement ++ lossy rest := by
  induction conts with
  | nil => rfl
  | cons x conts ih =>
    rw [List.forall_mem_cons] at h
    have hnone : decodeChar (x :: (conts ++ rest)) = none := by
      refine decodeChar_eq_none.mpr fun c after hc => ?_
      obtain ⟨b, more, hb, -⟩ := encodeChar_cons c
      rw [hb, List.cons_append] at hc
      rw [(List.cons.inj hc).1, (encodeChar_first hb).1] at h
      cases h.1
    have htail : invalidTail x (conts ++ rest) = 0 := by
      have hx := isContinuation_iff.mp h.1
      unfold invalidTail
      simp only [three_iff, four_iff]
      rw [if_neg (by omega), if_neg (by omega)]
    rw [List.cons_append, lossy_invalid hnone, htail, List.drop_zero, ih h.2]
    rfl

/-! ## The cut -/

theorem continues_append {c : Char} {x y : List UInt8} :
    Continues (String.utf8EncodeChar c ++ x) y ↔ Continues x y := by
  constructor
  · rintro ⟨before, part, b, rest, c', after, hx, hpart, hy, hc'⟩
    rcases List.append_eq_append_iff.mp hx with ⟨mid, hbefore, hrest⟩ | ⟨mid, hchar, hpart'⟩
    · exact ⟨mid, part, b, rest, c', after, hrest, hpart, hy, hc'⟩
    · cases mid with
      | nil => exact ⟨[], part, b, rest, c', after, by simpa using hpart'.symm, hpart, hy, hc'⟩
      | cons m mid =>
        rw [hpart', List.cons_append, List.cons_append] at hc'
        cases before with
        | nil =>
          -- one character would be a beginning of another one
          rw [List.nil_append] at hchar
          have hdecode := decodeChar_append c' []
          rw [hc', ← List.cons_append, ← List.cons_append, ← hchar, List.append_assoc, List.append_assoc,
            decodeChar_append, Option.some_inj] at hdecode
          rw [← hdecode, hchar] at hc'
          have hlength := congrArg List.length hc'
          simp only [List.length_cons, List.length_append] at hlength
          omega
        | cons f before =>
          rw [List.cons_append] at hchar
          have hcont := (encodeChar_first hchar).2 m (by simp)
          rw [(encodeChar_first hc').1] at hcont
          cases hcont
  · rintro ⟨before, part, b, rest, c', after, rfl, hpart, hy, hc'⟩
    exact ⟨String.utf8EncodeChar c ++ before, part, b, rest, c', after, by simp, hpart, hy, hc'⟩

theorem continuation_of_mem_invalidTail {b : UInt8} {rest : List UInt8} :
    ∀ x ∈ rest.take (invalidTail b rest), isContinuation x = true := by
  have hsecond : rest.head?.any (isSecond b) = true → ∀ x ∈ rest.take 1, isContinuation x = true := by
    cases rest with
    | nil => simp
    | cons x rest =>
      intro h
      exact List.forall_mem_singleton.mpr (isContinuation_iff.mpr (isSecond_iff.mp h).1)
  unfold invalidTail
  split
  · split
    · next h => exact hsecond h
    · simp
  split
  · split
    · next h =>
      split
      · next hthird =>
        cases rest with
        | nil => simp
        | cons x rest =>
          cases rest with
          | nil => cases hthird
          | cons y rest =>
            have hx : isContinuation x = true := isContinuation_iff.mpr (isSecond_iff.mp h).1
            exact List.forall_mem_cons.mpr ⟨hx, List.forall_mem_singleton.mpr hthird⟩
      · exact hsecond h
    · simp
  · simp

/-- A byte that starts no character, with what belongs to it, is left behind. -/
theorem continues_invalid {b : UInt8} {r y : List UInt8}
    (hnot : ∀ c b' rest after, y = b' :: rest → String.utf8EncodeChar c ≠ b :: (r ++ b' :: after)) :
    Continues (b :: r) y ↔ Continues (r.drop (invalidTail b r)) y := by
  constructor
  · rintro ⟨before, part, b', rest, c, after, hx, hpart, hy, hc⟩
    cases before with
    | nil =>
      rw [List.nil_append] at hx
      rw [← hx, List.cons_append] at hc
      exact absurd hc (hnot c b' rest after hy)
    | cons f before =>
      obtain ⟨rfl, hr⟩ := List.cons.inj hx
      have hr' := (List.take_append_drop (invalidTail b r) r).trans hr
      rcases List.append_eq_append_iff.mp hr' with ⟨mid, -, hdrop⟩ | ⟨mid, htake, hpart'⟩
      · exact ⟨mid, part, b', rest, c, after, hdrop, hpart, hy, hc⟩
      · cases mid with
        | nil => exact ⟨[], part, b', rest, c, after, by simpa using hpart'.symm, hpart, hy, hc⟩
        | cons m mid =>
          have hcont := @continuation_of_mem_invalidTail b r m (by rw [htake]; simp)
          rw [hpart', List.cons_append, List.cons_append] at hc
          rw [(encodeChar_first hc).1] at hcont
          cases hcont
  · rintro ⟨before, part, b', rest, c, after, hx, hpart, hy, hc⟩
    refine ⟨b :: (r.take (invalidTail b r) ++ before), part, b', rest, c, after, ?_, hpart, hy, hc⟩
    rw [List.cons_append, List.append_assoc, ← hx, List.take_append_drop]

theorem invalidTail_le_append (b : UInt8) (r more : List UInt8) : invalidTail b r ≤ invalidTail b (r ++ more) := by
  unfold invalidTail
  cases r with
  | nil => simp
  | cons s r =>
    cases r with
    | nil =>
      by_cases hs : isSecond b s = true
      · simp only [List.cons_append, List.nil_append, List.head?_cons, Option.any_some, hs, if_true]
        repeat' split
        all_goals simp_all
      · simp [hs]
    | cons t r => exact Nat.le_refl _

theorem invalidTail_le (b : UInt8) (r : List UInt8) : invalidTail b r ≤ r.length := by
  unfold invalidTail
  cases r with
  | nil => simp
  | cons s r =>
    cases r with
    | nil =>
      by_cases hs : isSecond b s = true
      · simp [hs]
        repeat' split
        all_goals simp
      · simp [hs]
    | cons t r =>
      simp only [List.length_cons]
      repeat' split
      all_goals omega

/-- Over the cut, one character takes the place of several. -/
theorem length_lossy_lt {c : Char} {b b' : UInt8} {r rest after : List UInt8}
    (hc : String.utf8EncodeChar c = b :: (r ++ b' :: after)) :
    (lossy (b :: r ++ b' :: rest)).length < (lossy (b :: r)).length + (lossy (b' :: rest)).length := by
  have hnone : ∀ c' more, b :: r ≠ String.utf8EncodeChar c' ++ more := by
    intro c' more hc'
    have hdecode := decodeChar_append c []
    rw [hc, ← List.cons_append, hc', List.append_assoc, List.append_assoc, decodeChar_append, Option.some_inj] at hdecode
    have hlength := congrArg List.length hc'
    rw [hdecode, hc] at hlength
    simp only [List.length_cons, List.length_append] at hlength
    omega
  have hfirst : lossy (b :: r) = [replacement] := by
    rw [lossy_invalid (decodeChar_eq_none.mpr hnone), invalidTail_eq hc (by simp), List.drop_length]
    rfl
  -- the first character of the whole takes continuation bytes of the second half, at least one
  obtain ⟨ch, conts, more, hrest, hne, hconts, hwhole⟩ : ∃ ch conts more, b' :: rest = conts ++ more ∧ conts ≠ [] ∧
      (∀ x ∈ conts, isContinuation x = true) ∧ lossy (b :: r ++ b' :: rest) = ch :: lossy more := by
    cases hdecode : decodeChar (b :: r ++ b' :: rest) with
    | some c' =>
      obtain ⟨more, hmore⟩ := exists_of_decodeChar hdecode
      rcases List.append_eq_append_iff.mp hmore with ⟨mid, hchar, hrest⟩ | ⟨mid, hchar, -⟩
      · refine ⟨c', mid, more, hrest, fun hmid => ?_, fun x hx => ?_, ?_⟩
        · rw [hmid, List.append_nil] at hchar
          exact hnone c' [] (by rw [hchar, List.append_nil])
        · exact (encodeChar_first hchar).2 x (List.mem_append_right _ hx)
        · rw [hmore, lossy_append]
      · exact absurd hchar (hnone c' mid)
    | none =>
      have hafter : after ≠ [] := by
        intro hafter
        rw [hafter] at hc
        refine decodeChar_eq_none.mp hdecode c rest ?_
        rw [hc]
        simp
      have hlonger : r.length < invalidTail b (r ++ b' :: rest) := by
        have hbegin := invalidTail_eq (b := b) (r := r ++ [b']) (c := c) (by simpa using hc) hafter
        have hle := invalidTail_le_append b (r ++ [b']) rest
        rw [hbegin, List.length_append, List.length_singleton, List.append_assoc] at hle
        exact hle
      have htail := @continuation_of_mem_invalidTail b (r ++ b' :: rest)
      generalize htake : invalidTail b (r ++ b' :: rest) = k at hlonger htail
      rw [List.take_append] at htail
      refine ⟨replacement, (b' :: rest).take (k - r.length), (b' :: rest).drop (k - r.length),
        (List.take_append_drop _ _).symm, fun hnil => ?_, fun x hx => htail x (List.mem_append_right _ hx), ?_⟩
      · have hlength := congrArg List.length hnil
        rw [List.length_take, List.length_cons, List.length_nil] at hlength
        omega
      · rw [List.cons_append] at hdecode ⊢
        rw [lossy_invalid hdecode, htake, List.drop_append, List.drop_eq_nil_of_le (by omega), List.nil_append]
  have hpos := List.length_pos_iff.mpr hne
  rw [hwhole, hfirst, hrest, lossy_continuations hconts, List.length_append, List.length_replicate, List.length_cons,
    List.length_singleton]
  omega

/-- **Cutting.** The halves decode apart just when no character goes over the cut, not even the beginning of one; and
where one does, the whole has fewer characters. -/
theorem lossy_cut (x y : List UInt8) : (¬ Continues x y ∧ lossy (x ++ y) = lossy x ++ lossy y) ∨
    (Continues x y ∧ (lossy (x ++ y)).length < (lossy x).length + (lossy y).length ∧
      ∃ common, lossy x = common ++ [replacement] ∧ common <+: lossy (x ++ y)) := by
  induction hn : x.length using Nat.strong_induction_on generalizing x with
  | _ n ih =>
    subst hn
    cases x with
    | nil =>
      refine .inl ⟨?_, rfl⟩
      rintro ⟨before, part, b, rest, c, after, hx, hpart, -⟩
      exact hpart (List.append_eq_nil_iff.mp hx.symm).2
    | cons b r =>
      cases hdecode : decodeChar (b :: r) with
      | some c =>
        obtain ⟨more, hmore⟩ := exists_of_decodeChar hdecode
        have hshort : more.length < (b :: r).length := by
          have hpos := c.utf8Size_pos
          rw [hmore, List.length_append, String.length_utf8EncodeChar]
          omega
        rw [hmore, List.append_assoc, lossy_append, lossy_append, continues_append]
        rcases ih _ hshort more rfl with ⟨hnot, heq⟩ | ⟨hcont, hlt, common, hcommon, hbegin⟩
        · exact .inl ⟨hnot, by rw [heq]; rfl⟩
        · refine .inr ⟨hcont, ?_, c :: common, by rw [hcommon]; rfl, List.cons_prefix_cons.mpr ⟨rfl, hbegin⟩⟩
          simp only [List.length_cons]
          omega
      | none =>
        by_cases hover : ∃ c b' rest after, y = b' :: rest ∧ String.utf8EncodeChar c = b :: (r ++ b' :: after)
        · obtain ⟨c, b', rest, after, rfl, hc⟩ := hover
          refine .inr ⟨⟨[], b :: r, b', rest, c, after, rfl, by simp, rfl, hc⟩, length_lossy_lt hc, [], ?_, ?_⟩
          · rw [lossy_invalid hdecode, invalidTail_eq hc (by simp), List.drop_length]
            rfl
          · exact List.nil_prefix
        · have hnot : ∀ c b' rest after, y = b' :: rest → String.utf8EncodeChar c ≠ b :: (r ++ b' :: after) :=
            fun c b' rest after hy hc => hover ⟨c, b', rest, after, hy, hc⟩
          have hwhole : decodeChar (b :: (r ++ y)) = none := by
            refine decodeChar_eq_none.mpr fun c more hc => ?_
            rw [← List.cons_append] at hc
            rcases List.append_eq_append_iff.mp hc with ⟨mid, hchar, hrest⟩ | ⟨mid, hchar, -⟩
            · cases mid with
              | nil =>
                rw [List.append_nil] at hchar
                exact decodeChar_eq_none.mp hdecode c [] (by rw [hchar, List.append_nil])
              | cons b' after => exact hnot c b' _ after hrest hchar
            · exact decodeChar_eq_none.mp hdecode c mid hchar
          have htail := invalidTail_append hnot
          have hle := invalidTail_le b r
          have hshort : (r.drop (invalidTail b r)).length < (b :: r).length := by
            rw [List.length_drop, List.length_cons]
            omega
          rw [List.cons_append, lossy_invalid hwhole, lossy_invalid hdecode, htail, continues_invalid hnot,
            List.drop_append_of_le_length hle]
          rcases ih _ hshort _ rfl with ⟨hno, heq⟩ | ⟨hcont, hlt, common, hcommon, hbegin⟩
          · exact .inl ⟨hno, by rw [heq]; rfl⟩
          · refine .inr ⟨hcont, ?_, replacement :: common, by rw [hcommon]; rfl,
              List.cons_prefix_cons.mpr ⟨rfl, hbegin⟩⟩
            simp only [List.length_cons]
            omega

/-- The second half does not start with a character. -/
theorem Continues.start {x y : List UInt8} (h : Continues x y) : ∃ rest, lossy y = replacement :: rest := by
  obtain ⟨before, part, b, rest, c, after, -, hpart, rfl, hc⟩ := h
  have hcont : isContinuation b = true := by
    cases part with
    | nil => exact absurd rfl hpart
    | cons f part => exact (encodeChar_first hc).2 b (by simp)
  have hconts : ∀ x ∈ [b], isContinuation x = true := List.forall_mem_singleton.mpr hcont
  exact ⟨lossy rest, lossy_continuations hconts rest⟩

end Utf8
