/-
Text as Rust's `str` reads it: searching and splitting by characters, and
parsing an unsigned number, which may carry a plus sign and leading zeros. The
lemmas say what a name that was printed around a number gives back, and that a
text without digits is not found across one.
-/
import Mathlib.Data.List.Infix
import Mathlib.Data.List.TakeWhile

namespace Text

/-- `str::contains`. -/
def contains (s part : String) : Bool := decide (part.toList <:+: s.toList)

/-- `str::starts_with`. -/
def startsWith (s start : String) : Bool := start.toList.isPrefixOf s.toList

/-- `str::ends_with`. -/
def endsWith (s ending : String) : Bool := ending.toList.isSuffixOf s.toList

/-- `str::strip_prefix`. -/
def strip (s start : String) : Option String :=
  if startsWith s start then some (String.ofList (s.toList.drop start.toList.length)) else none

/-- `str::strip_suffix`. -/
def stripEnd (s ending : String) : Option String :=
  if endsWith s ending then some (String.ofList (s.toList.take (s.toList.length - ending.toList.length))) else none

/-- `str::split_once`, at a character. -/
def splitOnce (s : String) (sep : Char) : Option (String × String) :=
  match s.toList.span (· ≠ sep) with
  | (_, []) => none
  | (before, _ :: after) => some (String.ofList before, String.ofList after)

/-- `str::find`, of a string: the characters before its first occurrence. -/
def find (part : List Char) : List Char → Option Nat
  | [] => if part.isEmpty then some 0 else none
  | c :: rest => if part.isPrefixOf (c :: rest) then some 0 else (find part rest).map (· + 1)

/-- `str::to_ascii_lowercase`. -/
def toAsciiLowercase (s : String) : String := String.ofList (s.toList.map Char.toLower)

/-- One leading plus sign is part of a number; alone it is not one. -/
def dropPlus : List Char → List Char
  | '+' :: digits => digits
  | digits => digits

/-- `str::parse`, of an unsigned number below `bound`. -/
def parseUnsigned (bound : Nat) (s : String) : Option Nat :=
  let digits := dropPlus s.toList
  if digits ≠ [] ∧ digits.all Char.isDigit ∧ Nat.ofDigitChars 10 digits 0 < bound then
    some (Nat.ofDigitChars 10 digits 0)
  else none

/-- A bracketed list, as `Debug` of a vector prints it. -/
def bracketed (items : List String) : String := "[" ++ ", ".intercalate items ++ "]"

theorem endsWith_iff {s ending : String} : endsWith s ending = true ↔ ∃ base, s = base ++ ending := by
  unfold endsWith
  rw [List.isSuffixOf_iff_suffix]
  constructor
  · rintro ⟨before, h⟩
    exact ⟨String.ofList before, String.toList_inj.mp (by rw [String.toList_append, String.toList_ofList, h])⟩
  · rintro ⟨base, rfl⟩
    exact ⟨base.toList, (String.toList_append).symm⟩

theorem stripEnd_eq_some {s ending base : String} : stripEnd s ending = some base ↔ s = base ++ ending := by
  have hstrip : ∀ b : String, stripEnd (b ++ ending) ending = some b := by
    intro b
    unfold stripEnd
    rw [if_pos (endsWith_iff.mpr ⟨b, rfl⟩), String.toList_append]
    simp
  constructor
  · intro h
    by_cases hends : endsWith s ending = true
    · obtain ⟨b, rfl⟩ := endsWith_iff.mp hends
      rw [hstrip, Option.some_inj] at h
      rw [h]
    · rw [stripEnd, if_neg hends] at h
      cases h
  · rintro rfl
    exact hstrip base

theorem find_some {part s : List Char} {i : Nat} (h : find part s = some i) :
    ∃ before after, s = before ++ part ++ after ∧ before.length = i := by
  induction s generalizing i with
  | nil =>
    unfold find at h
    split at h
    · next hempty =>
      cases h
      exact ⟨[], [], by simp [List.isEmpty_iff.mp hempty], rfl⟩
    · cases h
  | cons c rest ih =>
    unfold find at h
    split at h
    · next hprefix =>
      cases h
      obtain ⟨after, hafter⟩ := List.isPrefixOf_iff_prefix.mp hprefix
      exact ⟨[], after, hafter.symm, rfl⟩
    · obtain ⟨j, hj, rfl⟩ := Option.map_eq_some_iff.mp h
      obtain ⟨before, after, hrest, hbefore⟩ := ih hj
      exact ⟨c :: before, after, by simp [hrest], by simp [hbefore]⟩

/-- An occurrence is not before the one that is found. -/
theorem find_le (part before after : List Char) : ∃ i ≤ before.length, find part (before ++ part ++ after) = some i := by
  induction before with
  | nil =>
    refine ⟨0, Nat.le_refl _, ?_⟩
    cases h : ([] ++ part ++ after : List Char) with
    | nil =>
      have hpart : part = [] := (List.append_eq_nil_iff.mp h).1
      rw [hpart]
      rfl
    | cons c rest =>
      rw [find, if_pos]
      rw [List.isPrefixOf_iff_prefix, ← h]
      exact ⟨after, rfl⟩
  | cons c before ih =>
    obtain ⟨i, hi, hfind⟩ := ih
    rw [List.cons_append, List.cons_append, find]
    split
    · exact ⟨0, Nat.zero_le _, rfl⟩
    · exact ⟨i + 1, Nat.succ_le_succ hi, by rw [hfind]; rfl⟩

theorem find_self (s : List Char) : find s s = some 0 := by
  cases s with
  | nil => rfl
  | cons c rest => rw [find, if_pos (List.isPrefixOf_iff_prefix.mpr (List.prefix_refl _))]

/-! ## What a text does not hold -/

theorem mem_of_contains {s part : String} {c : Char} (h : contains s part = true) (hc : c ∈ part.toList) :
    c ∈ s.toList := (of_decide_eq_true h).subset hc

theorem getLast_of_endsWith {s ending : String} {c : Char} (h : endsWith s ending = true)
    (hc : ending.toList.getLast? = some c) : s.toList.getLast? = some c := by
  obtain ⟨before, hs⟩ := List.isSuffixOf_iff_suffix.mp h
  rw [← hs, List.getLast?_append, hc, Option.some_or]

theorem head_of_startsWith {s start : String} {c : Char} (h : startsWith s start = true)
    (hc : start.toList.head? = some c) : s.toList.head? = some c := by
  obtain ⟨after, hs⟩ := List.isPrefixOf_iff_prefix.mp h
  rw [← hs, List.head?_append, hc, Option.some_or]

theorem strip_eq_none {s start : String} {c d : Char} (hs : s.toList.head? = some c)
    (hstart : start.toList.head? = some d) (h : c ≠ d) : strip s start = none := by
  refine if_neg fun hstarts => h ?_
  rw [head_of_startsWith hstarts hstart, Option.some_inj] at hs
  exact hs.symm

/-! ## Printed numbers -/

theorem toString_toList (n : Nat) : (toString n).toList = Nat.toDigits 10 n := Nat.toList_repr

theorem isDigit_of_mem_toString {n : Nat} {c : Char} (h : c ∈ (toString n).toList) : c.isDigit = true := by
  rw [toString_toList] at h
  exact Nat.isDigit_of_mem_toDigits (by decide) (by decide) h

theorem toString_injective {n m : Nat} (h : (toString n).toList = (toString m).toList) : n = m := by
  rw [toString_toList, toString_toList] at h
  rw [← Nat.ofDigitChars_ten_toDigits (n := n), h, Nat.ofDigitChars_ten_toDigits]

/-- A number up to a separator that is no digit gives both back. -/
theorem number_append_injective {n m : Nat} {sep : Char} (hsep : sep.isDigit = false) {s t : List Char}
    (h : (toString n).toList ++ sep :: s = (toString m).toList ++ sep :: t) : n = m ∧ s = t := by
  have hcut : ∀ (k : Nat) (rest : List Char),
      ((toString k).toList ++ sep :: rest).takeWhile Char.isDigit = (toString k).toList := fun k rest => by
    rw [List.takeWhile_append_of_pos fun c => isDigit_of_mem_toString, List.takeWhile_cons_of_neg (by rw [hsep]; nofun),
      List.append_nil]
  have hnum : (toString n).toList = (toString m).toList := by rw [← hcut n s, h, hcut m t]
  have hrest := h
  rw [hnum] at hrest
  exact ⟨toString_injective hnum, (List.cons_inj_right _).mp (List.append_cancel_left hrest)⟩

/-! ## Parts around a printed number -/

/-- An ending that lacks a character lies after it. -/
theorem suffix_append_cons_iff {part before after : List Char} {c : Char} (hc : c ∉ part) :
    part <:+ before ++ c :: after ↔ part <:+ after := by
  constructor
  · rintro ⟨s, h⟩
    rcases List.append_eq_append_iff.mp h with ⟨w, -, hpart⟩ | ⟨w, -, hafter⟩
    · exact absurd (hpart ▸ List.mem_append_right w List.mem_cons_self) hc
    · rcases w with _ | ⟨d, w⟩
      · exact absurd (show c ∈ part by rw [← List.nil_append part, ← hafter]; exact List.mem_cons_self) hc
      · obtain ⟨-, rfl⟩ := List.cons_eq_cons.mp hafter
        exact ⟨w, rfl⟩
  · rintro ⟨s, rfl⟩
    exact ⟨before ++ c :: s, by simp⟩

/-- A part that lacks a character lies before it or after it. -/
theorem infix_append_cons_iff {part before after : List Char} {c : Char} (hc : c ∉ part) :
    part <:+: before ++ c :: after ↔ part <:+: before ∨ part <:+: after := by
  constructor
  · rintro ⟨s, t, h⟩
    rcases List.append_eq_append_iff.mp h with ⟨w, hbefore, -⟩ | ⟨w, hpart, hafter⟩
    · exact .inl ⟨s, w, hbefore.symm⟩
    · rcases w with _ | ⟨d, w⟩
      · exact .inl ⟨s, [], by simpa using hpart⟩
      · obtain ⟨rfl, rfl⟩ := List.cons_eq_cons.mp hafter
        obtain ⟨s', hs'⟩ := (suffix_append_cons_iff hc).mp ⟨s, hpart⟩
        exact .inr ⟨s', t, by rw [hs']; rfl⟩
  · rintro (h | h)
    · exact h.trans (List.infix_append' [] before (c :: after))
    · exact h.trans ⟨before ++ [c], [], by simp⟩

/-- A part without digits lies before a number or after it. -/
theorem infix_number_iff {part before after : List Char} (n : Nat) (hpart : part.all (!·.isDigit) = true) :
    part <:+: before ++ ((toString n).toList ++ after) ↔ part <:+: before ∨ part <:+: after := by
  have hnot {d : Char} (hd : d.isDigit = true) : d ∉ part := fun h => by
    have := List.all_eq_true.mp hpart d h
    simp [hd] at this
  have hdigits : ∀ digits : List Char, (∀ c ∈ digits, c.isDigit = true) → digits ≠ [] → ∀ before : List Char,
      (part <:+: before ++ (digits ++ after) ↔ part <:+: before ∨ part <:+: after) := by
    intro digits hall hne
    induction digits with
    | nil => exact absurd rfl hne
    | cons d ds ih =>
      intro before
      rw [List.cons_append, infix_append_cons_iff (hnot (hall d List.mem_cons_self))]
      cases ds with
      | nil => rfl
      | cons d' ds =>
        refine or_congr_right ?_
        rw [← List.nil_append (d' :: ds ++ after), ih (fun c hc => hall c (List.mem_cons_of_mem d hc)) (by simp)]
        refine or_iff_right_of_imp fun h => ?_
        rw [List.infix_nil.mp h]
        exact List.nil_infix
  refine hdigits _ (fun c => isDigit_of_mem_toString) ?_ before
  rw [toString_toList]
  exact Nat.toDigits_ne_nil

/-- An ending without digits lies after a number. -/
theorem suffix_number_iff {part before after : List Char} (n : Nat) (hpart : part.all (!·.isDigit) = true) :
    part <:+ before ++ ((toString n).toList ++ after) ↔ part <:+ after := by
  rcases List.eq_nil_or_concat (toString n).toList with h | ⟨ds, d, h⟩
  · rw [toString_toList] at h
    exact absurd h Nat.toDigits_ne_nil
  · rw [List.concat_eq_append] at h
    have hd : d ∉ part := fun hd => by
      have hdigit := isDigit_of_mem_toString (n := n) (c := d) (h ▸ List.mem_append_right ds List.mem_cons_self)
      have := List.all_eq_true.mp hpart d hd
      simp [hdigit] at this
    rw [h, List.append_assoc, List.singleton_append, ← List.append_assoc]
    exact suffix_append_cons_iff hd

/-- A part starts after a text that lacks its first character. -/
theorem infix_append_iff_of_head {c : Char} {part before after : List Char} (hc : c ∉ before) :
    c :: part <:+: before ++ after ↔ c :: part <:+: after := by
  induction before with
  | nil => rfl
  | cons d before ih =>
    rw [List.cons_append, List.infix_cons_iff, List.cons_prefix_cons, ih fun h => hc (List.mem_cons_of_mem d h)]
    exact or_iff_right fun h => hc (h.1 ▸ List.mem_cons_self)

end Text
