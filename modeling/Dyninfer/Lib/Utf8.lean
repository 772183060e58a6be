/-
Lossy decoding of UTF-8, as Rust's `String::from_utf8_lossy` does it: every
longest beginning of a character that is not completed becomes one replacement
character. What is valid comes back as it is; and an output with no more
replacement characters than the bytes hold themselves comes from valid bytes.
-/
import Mathlib.Data.List.Infix

namespace Utf8

/-- The bytes of a text. -/
def encode (cs : List Char) : List UInt8 := cs.flatMap String.utf8EncodeChar

/-- The character that bytes begin with. -/
def decodeChar (bytes : List UInt8) : Option Char := bytes.toByteArray.utf8DecodeChar? 0

def isContinuation (b : UInt8) : Bool := b &&& 0xc0 == 0x80

/-- The second bytes that may follow a first one, of characters of three bytes or four. -/
def isSecond (b second : UInt8) : Bool :=
  if b = 0xe0 then 0xa0 ≤ second && second ≤ 0xbf
  else if b = 0xed then 0x80 ≤ second && second ≤ 0x9f
  else if b = 0xf0 then 0x90 ≤ second && second ≤ 0xbf
  else if b = 0xf4 then 0x80 ≤ second && second ≤ 0x8f
  else 0x80 ≤ second && second ≤ 0xbf

/-- The bytes after the first one that belong to the beginning of a character which is not completed. -/
def invalidTail (b : UInt8) (rest : List UInt8) : Nat :=
  if 0xe0 ≤ b ∧ b ≤ 0xef then
    if (rest.head?.any (isSecond b)) then 1 else 0
  else if 0xf0 ≤ b ∧ b ≤ 0xf4 then
    if (rest.head?.any (isSecond b)) then
      if (rest[1]?.any isContinuation) then 2 else 1
    else 0
  else 0

def replacement : Char := '\uFFFD'

/-- The decoding, of at most `n` characters. -/
def lossyFrom : Nat → List UInt8 → List Char
  | 0, _ => []
  | _, [] => []
  | n + 1, b :: rest =>
    match decodeChar (b :: rest) with
    | some c => c :: lossyFrom n ((b :: rest).drop c.utf8Size)
    | none => replacement :: lossyFrom n (rest.drop (invalidTail b rest))

/-- `String::from_utf8_lossy`; every character takes a byte or more. -/
def lossy (bytes : List UInt8) : List Char := lossyFrom bytes.length bytes

/-! ## One character -/

theorem decodeChar_append (c : Char) (rest : List UInt8) : decodeChar (String.utf8EncodeChar c ++ rest) = some c := by
  unfold decodeChar
  rw [List.toByteArray_append]
  exact ByteArray.utf8DecodeChar?_utf8EncodeChar_append

theorem exists_of_decodeChar {bytes : List UInt8} {c : Char} (h : decodeChar bytes = some c) :
    ∃ rest, bytes = String.utf8EncodeChar c ++ rest := by
  have harray := String.toByteArray_utf8EncodeChar_of_utf8DecodeChar?_eq_some h
  have hdata := congrArg (fun array : ByteArray => array.data.toList) harray
  simp only [ByteArray.data_extract, List.data_toByteArray, List.extract_toArray] at hdata
  refine ⟨bytes.drop c.utf8Size, ?_⟩
  rw [hdata]
  simp

/-- The bytes of a character after the first one. -/
theorem encodeChar_cons (c : Char) :
    ∃ b conts, String.utf8EncodeChar c = b :: conts ∧ ∀ x ∈ conts, x ≠ 0xef := by
  have hcont : ∀ n : Nat, UInt8.ofNat (n % 64 + 128) ≠ 0xef := by
    intro n h
    have hnat := congrArg UInt8.toNat h
    simp at hnat
    omega
  unfold String.utf8EncodeChar
  simp only
  split
  · exact ⟨_, _, rfl, by simp⟩
  split
  · exact ⟨_, _, rfl, List.forall_mem_singleton.mpr (hcont _)⟩
  split
  · exact ⟨_, _, rfl, List.forall_mem_cons.mpr ⟨hcont _, List.forall_mem_singleton.mpr (hcont _)⟩⟩
  · exact ⟨_, _, rfl, List.forall_mem_cons.mpr ⟨hcont _, List.forall_mem_cons.mpr
      ⟨hcont _, List.forall_mem_singleton.mpr (hcont _)⟩⟩⟩

/-! ## The decoding -/

theorem lossyFrom_eq {n m : Nat} {bytes : List UInt8} (hn : bytes.length ≤ n) (hm : bytes.length ≤ m) :
    lossyFrom n bytes = lossyFrom m bytes := by
  induction n generalizing m bytes with
  | zero =>
    cases List.length_eq_zero_iff.mp (Nat.le_zero.mp hn)
    cases m <;> rfl
  | succ n ih =>
    cases bytes with
    | nil => cases m <;> rfl
    | cons b rest =>
      cases m with
      | zero => cases hm
      | succ m =>
        simp only [List.length_cons, Nat.succ_le_succ_iff] at hn hm
        simp only [lossyFrom]
        split
        · next c h =>
          have hpos := c.utf8Size_pos
          rw [ih] <;> simp only [List.length_drop, List.length_cons] <;> omega
        · rw [ih] <;> simp only [List.length_drop] <;> omega

theorem lossy_append (c : Char) (rest : List UInt8) :
    lossy (String.utf8EncodeChar c ++ rest) = c :: lossy rest := by
  have hdecode := decodeChar_append c rest
  have hlength := String.length_utf8EncodeChar c
  obtain ⟨b, conts, hbytes, -⟩ := encodeChar_cons c
  have hdrop : (b :: (conts ++ rest)).drop c.utf8Size = rest := by
    rw [← List.cons_append, ← hbytes, ← hlength, List.drop_left]
  rw [hbytes, List.cons_append] at hdecode ⊢
  rw [lossy, List.length_cons, lossyFrom, hdecode]
  simp only
  rw [hdrop]
  exact congrArg (c :: ·) (lossyFrom_eq (by simp) (Nat.le_refl _))

theorem lossy_invalid {b : UInt8} {rest : List UInt8} (h : decodeChar (b :: rest) = none) :
    lossy (b :: rest) = replacement :: lossy (rest.drop (invalidTail b rest)) := by
  rw [lossy, List.length_cons, lossyFrom, h]
  exact congrArg (replacement :: ·) (lossyFrom_eq (by simp) (Nat.le_refl _))

/-- What is valid comes back. -/
theorem lossy_encode (cs : List Char) : lossy (encode cs) = cs := by
  induction cs with
  | nil => rfl
  | cons c cs ih =>
    unfold encode at ih ⊢
    rw [List.flatMap_cons, lossy_append, ih]

/-! ## Replacement characters -/

/-- The replacement characters that bytes hold. -/
def marks : List UInt8 → Nat
  | [] => 0
  | b :: rest => (if [0xef, 0xbf, 0xbd].isPrefixOf (b :: rest) then 1 else 0) + marks rest

theorem utf8EncodeChar_replacement : String.utf8EncodeChar replacement = [0xef, 0xbf, 0xbd] := by decide +kernel

theorem marks_le_append (bytes rest : List UInt8) : marks rest ≤ marks (bytes ++ rest) := by
  induction bytes with
  | nil => exact Nat.le_refl _
  | cons b bytes ih =>
    rw [List.cons_append, marks]
    omega

theorem marks_replacement (rest : List UInt8) : marks rest + 1 ≤ marks (String.utf8EncodeChar replacement ++ rest) := by
  have hrest := marks_le_append [0xbf, 0xbd] rest
  rw [utf8EncodeChar_replacement, List.cons_append, marks, if_pos (by simp [List.isPrefixOf])]
  omega

/-- No replacement character starts at a byte other than its first one. -/
theorem marks_append {conts : List UInt8} (h : ∀ x ∈ conts, x ≠ 0xef) (rest : List UInt8) :
    marks (conts ++ rest) = marks rest := by
  induction conts with
  | nil => rfl
  | cons x conts ih =>
    rw [List.forall_mem_cons] at h
    have hno : [0xef, 0xbf, 0xbd].isPrefixOf (x :: (conts ++ rest)) = false := by
      simp [List.isPrefixOf, Ne.symm h.1]
    rw [List.cons_append, marks, hno, ih h.2]
    simp

theorem decodeChar_eq_replacement {bytes : List UInt8} (h : [0xef, 0xbf, 0xbd].isPrefixOf bytes = true) :
    decodeChar bytes = some replacement := by
  obtain ⟨rest, rfl⟩ := List.isPrefixOf_iff_prefix.mp h
  rw [← utf8EncodeChar_replacement, decodeChar_append]

theorem ne_of_isSecond {b x : UInt8} (h : isSecond b x = true) : x ≠ 0xef := by
  rintro rfl
  unfold isSecond at h
  split at h
  · exact absurd h (by decide)
  split at h
  · exact absurd h (by decide)
  split at h
  · exact absurd h (by decide)
  split at h
  · exact absurd h (by decide)
  · exact absurd h (by decide)

theorem ne_of_invalidTail {b : UInt8} {rest : List UInt8} : ∀ x ∈ rest.take (invalidTail b rest), x ≠ 0xef := by
  have hsecond : rest.head?.any (isSecond b) = true → ∀ x ∈ rest.take 1, x ≠ 0xef := by
    cases rest with
    | nil => simp
    | cons x rest => exact fun h => List.forall_mem_singleton.mpr (ne_of_isSecond h)
  unfold invalidTail
  split
  · split
    · next h => exact hsecond h
    · simp
  split
  · split
    · next h =>
      split
      · next hthird =>
        cases rest with
        | nil => simp
        | cons x rest =>
          cases rest with
          | nil => cases hthird
          | cons y rest =>
            have hy : y ≠ 0xef := by
              have hcont : isContinuation y = true := hthird
              rintro rfl
              exact absurd hcont (by decide)
            exact List.forall_mem_cons.mpr ⟨ne_of_isSecond h, List.forall_mem_singleton.mpr hy⟩
      · exact hsecond h
    · simp
  · simp

theorem marks_valid (c : Char) (rest : List UInt8) :
    marks (String.utf8EncodeChar c ++ rest) ≤ marks rest + if c = replacement then 1 else 0 := by
  have hdecode := decodeChar_append c rest
  obtain ⟨b, conts, hbytes, hconts⟩ := encodeChar_cons c
  rw [hbytes, List.cons_append] at hdecode ⊢
  rw [marks, marks_append hconts]
  split
  · next h =>
    rw [decodeChar_eq_replacement h, Option.some.injEq] at hdecode
    rw [if_pos hdecode.symm]
    omega
  · omega

theorem marks_invalid {b : UInt8} {rest : List UInt8} (h : decodeChar (b :: rest) = none) :
    marks (b :: rest) = marks (rest.drop (invalidTail b rest)) := by
  have hno : [0xef, 0xbf, 0xbd].isPrefixOf (b :: rest) ≠ true := by
    intro hprefix
    rw [decodeChar_eq_replacement hprefix] at h
    cases h
  have hrest := marks_append (@ne_of_invalidTail b rest) (rest.drop (invalidTail b rest))
  rw [List.take_append_drop] at hrest
  rw [marks, if_neg hno, Nat.zero_add, hrest]

/-- The output holds the replacement characters of the bytes; when it holds no more, the bytes are those of the output. -/
theorem marks_le_count (bytes : List UInt8) : marks bytes ≤ (lossy bytes).count replacement ∧
    ((lossy bytes).count replacement ≤ marks bytes → encode (lossy bytes) = bytes) := by
  induction hn : bytes.length using Nat.strong_induction_on generalizing bytes with
  | _ n ih =>
    subst hn
    cases bytes with
    | nil => exact ⟨Nat.le_refl _, fun _ => rfl⟩
    | cons b rest =>
      cases h : decodeChar (b :: rest) with
      | some c =>
        obtain ⟨after, hbytes⟩ := exists_of_decodeChar h
        have hshort : after.length < (b :: rest).length := by
          have hpos := c.utf8Size_pos
          rw [hbytes, List.length_append, String.length_utf8EncodeChar]
          omega
        have hmarks := marks_valid c after
        obtain ⟨hle, hexact⟩ := ih _ hshort after rfl
        rw [hbytes, lossy_append, List.count_cons]
        simp only [beq_iff_eq]
        refine ⟨by omega, fun hcount => ?_⟩
        rw [encode, List.flatMap_cons, ← encode, hexact (by omega)]
      | none =>
        have hshort : (rest.drop (invalidTail b rest)).length < (b :: rest).length := by
          rw [List.length_drop, List.length_cons]
          omega
        obtain ⟨hle, -⟩ := ih _ hshort _ rfl
        rw [lossy_invalid h, marks_invalid h, List.count_cons_self]
        exact ⟨by omega, fun hcount => absurd hcount (by omega)⟩

/-- Bytes whose characters take less than the output's, and which hold the output's replacement characters, do not
decode to it. -/
theorem lossy_ne {bytes : List UInt8} {cs : List Char} (hmarks : cs.count replacement ≤ marks bytes)
    (hlength : bytes.length < (encode cs).length) : lossy bytes ≠ cs := by
  rintro rfl
  rw [(marks_le_count bytes).2 hmarks] at hlength
  exact Nat.lt_irrefl _ hlength

end Utf8
