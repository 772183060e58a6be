/-
How a SentencePiece text is spelled: a piece is read as a byte or as its own
characters, bytes that stand together are decoded together, and the white space
that the text then starts with is taken off.
-/
import Dyninfer.Lib.Utf8Cuts
import Dyninfer.Runtime.Tokenizer

namespace Dyninfer

open Utf8

/-- A byte, or a character. -/
abbrev Sign : Type := UInt8 ⊕ Char

/-- The byte that a piece stands for. -/
def byteOf (piece : String) : Option UInt8 :=
  ((Text.strip piece "<0x").bind (Text.stripEnd · ">")).bind BpeTokenizer.parseHexByte

/-- What a piece is read as. -/
def reading (piece : String) : List Sign :=
  match byteOf piece with
  | some b => [.inl b]
  | none => piece.toList.map .inr

/-- The text of signs, behind bytes that stand before them. -/
def spellFrom : List UInt8 → List Sign → List Char
  | bytes, [] => lossy bytes
  | bytes, .inl b :: signs => spellFrom (bytes ++ [b]) signs
  | bytes, .inr ch :: signs => lossy bytes ++ ch :: spellFrom [] signs

def spell (signs : List Sign) : List Char := spellFrom [] signs

/-- The mark of a space is a space again. -/
def unmark (ch : Char) : Char := if ch = spaceMark then ' ' else ch

/-- What of a trimmed text is white space in front. -/
def trimStart (cs : List Char) : List Char := cs.dropWhile BpeTokenizer.isWhiteSpace

namespace BpeTokenizer

/-- What the ids are read as. -/
def readings (tokenizer : BpeTokenizer) (ids : List Nat) (skipSpecialTokens : Bool) : List Sign :=
  ids.flatMap fun id => if skipSpecialTokens && tokenizer.isSpecial id then [] else reading (tokenizer.tokenText id)

/-- The text of the ids, before it is trimmed. -/
def rawText (tokenizer : BpeTokenizer) (ids : List Nat) (skipSpecialTokens : Bool) : List Char :=
  (spell (tokenizer.readings ids skipSpecialTokens)).map unmark

end BpeTokenizer

/-! ## Spelling -/

theorem spellFrom_chars (bytes : List UInt8) {cs : List Char} (hne : cs ≠ []) (signs : List Sign) :
    spellFrom bytes (cs.map .inr ++ signs) = lossy bytes ++ cs ++ spellFrom [] signs := by
  have hempty : ∀ (cs : List Char) (signs : List Sign), spellFrom [] (cs.map .inr ++ signs) = cs ++ spellFrom [] signs := by
    intro cs signs
    induction cs with
    | nil => rfl
    | cons ch cs ih =>
      rw [List.map_cons, List.cons_append, spellFrom, ih]
      rfl
  cases cs with
  | nil => exact absurd rfl hne
  | cons ch cs =>
    rw [List.map_cons, List.cons_append, spellFrom, hempty]
    simp

theorem spellFrom_bytes (bytes more : List UInt8) (signs : List Sign) :
    spellFrom bytes (more.map .inl ++ signs) = spellFrom (bytes ++ more) signs := by
  induction more generalizing bytes with
  | nil => simp
  | cons b more ih =>
    rw [List.map_cons, List.cons_append, spellFrom, ih]
    simp

/-! ## Where signs are cut -/

/-- The bytes that the signs end with, behind bytes that stand before them. -/
def waiting : List UInt8 → List Sign → List UInt8
  | bytes, [] => bytes
  | bytes, .inl b :: signs => waiting (bytes ++ [b]) signs
  | _, .inr _ :: signs => waiting [] signs

/-- The text of the signs up to the bytes that wait. -/
def settled : List UInt8 → List Sign → List Char
  | _, [] => []
  | bytes, .inl b :: signs => settled (bytes ++ [b]) signs
  | bytes, .inr ch :: signs => lossy bytes ++ ch :: settled [] signs

/-- The bytes that the signs start with. -/
def leading : List Sign → List UInt8
  | .inl b :: signs => b :: leading signs
  | _ => []

/-- The signs behind those bytes. -/
def behind : List Sign → List Sign
  | .inl _ :: signs => behind signs
  | signs => signs

theorem spellFrom_append (bytes : List UInt8) (signs more : List Sign) :
    spellFrom bytes (signs ++ more) = settled bytes signs ++ spellFrom (waiting bytes signs) more := by
  induction signs generalizing bytes with
  | nil => rfl
  | cons sign signs ih =>
    cases sign with
    | inl b => exact ih _
    | inr ch =>
      rw [List.cons_append, spellFrom, ih, settled, waiting, List.append_assoc]
      rfl

theorem spellFrom_eq (bytes : List UInt8) (signs : List Sign) :
    spellFrom bytes signs = settled bytes signs ++ lossy (waiting bytes signs) := by
  have h := spellFrom_append bytes signs []
  rwa [List.append_nil] at h

theorem spellFrom_leading (bytes : List UInt8) (signs : List Sign) :
    spellFrom bytes signs = lossy (bytes ++ leading signs) ++ spell (behind signs) := by
  induction signs generalizing bytes with
  | nil => simp [leading, behind, spell, spellFrom, lossy, lossyFrom]
  | cons sign signs ih =>
    cases sign with
    | inl b =>
      rw [spellFrom, ih]
      simp [leading, behind]
    | inr ch =>
      show lossy bytes ++ ch :: spellFrom [] signs = lossy (bytes ++ []) ++ spell (.inr ch :: signs)
      rw [List.append_nil]
      rfl

/-- Signs cut in two, with the bytes at the cut decoded together. -/
theorem spell_append (signs more : List Sign) : spell (signs ++ more) =
    settled [] signs ++ lossy (waiting [] signs ++ leading more) ++ spell (behind more) := by
  rw [spell, spellFrom_append, spellFrom_leading, List.append_assoc]

/-! ## Trimming -/

theorem isWhiteSpace_replacement : BpeTokenizer.isWhiteSpace replacement = false := by decide

theorem trimStart_append (cs more : List Char) :
    trimStart (cs ++ more) = if trimStart cs = [] then trimStart more else trimStart cs ++ more := by
  unfold trimStart
  rw [List.dropWhile_append]
  simp only [List.isEmpty_iff]

theorem trimStart_eq_self {cs : List Char} : trimStart cs = cs ↔ ∀ c ∈ cs.head?, BpeTokenizer.isWhiteSpace c = false := by
  cases cs with
  | nil => simp [trimStart]
  | cons c cs =>
    cases h : BpeTokenizer.isWhiteSpace c with
    | false => simp [trimStart, h]
    | true =>
      have hlength := (List.dropWhile_sublist BpeTokenizer.isWhiteSpace (l := cs)).length_le
      refine iff_of_false (fun heq => ?_) (by simp [h])
      have hshort := congrArg List.length heq
      simp only [trimStart, List.dropWhile_cons, h, if_true, List.length_cons] at hshort
      omega

/-- A trimmed text starts with no white space. -/
theorem trimStart_trimStart (cs : List Char) : trimStart (trimStart cs) = trimStart cs := by
  unfold trimStart
  induction cs with
  | nil => rfl
  | cons c cs ih =>
    rw [List.dropWhile_cons]
    split
    · exact ih
    · next h => simp [h]

/-! ## The decoder -/

theorem reading_empty : reading "" = [] := by decide

/-- The body of the loop of `decode_sp`, over the bytes that wait and the text so far. -/
def spStep (tokenizer : BpeTokenizer) (skipSpecialTokens : Bool) (acc : List UInt8 × List Char) (id : Nat) :
    List UInt8 × List Char :=
  if skipSpecialTokens && tokenizer.isSpecial id then acc
  else if (tokenizer.tokenText id).isEmpty then acc
  else match byteOf (tokenizer.tokenText id) with
    | some b => (acc.1 ++ [b], acc.2)
    | none => ([], acc.2 ++ lossy acc.1 ++ (tokenizer.tokenText id).toList)

theorem spStep_fold (tokenizer : BpeTokenizer) (skipSpecialTokens : Bool) (ids : List Nat)
    (acc : List UInt8 × List Char) :
    (ids.foldl (spStep tokenizer skipSpecialTokens) acc).2 ++ lossy (ids.foldl (spStep tokenizer skipSpecialTokens) acc).1 =
      acc.2 ++ spellFrom acc.1 (tokenizer.readings ids skipSpecialTokens) := by
  induction ids generalizing acc with
  | nil => rfl
  | cons id ids ih =>
    rw [List.foldl_cons, ih]
    unfold BpeTokenizer.readings spStep
    rw [List.flatMap_cons]
    by_cases hskip : (skipSpecialTokens && tokenizer.isSpecial id) = true
    · rw [if_pos hskip, if_pos hskip, List.nil_append]
    · rw [if_neg hskip, if_neg hskip]
      by_cases hempty : (tokenizer.tokenText id).isEmpty = true
      · rw [if_pos hempty, String.isEmpty_iff.mp hempty, reading_empty, List.nil_append]
      · rw [if_neg hempty]
        unfold reading
        cases byteOf (tokenizer.tokenText id) with
        | some b => rfl
        | none =>
          have hchars : (tokenizer.tokenText id).toList ≠ [] := by simpa using hempty
          simp only
          rw [spellFrom_chars _ hchars]
          simp

theorem decodeSp_eq (tokenizer : BpeTokenizer) (ids : List Nat) (skipSpecialTokens : Bool) :
    tokenizer.decodeSp ids skipSpecialTokens =
      String.ofList (trimStart (tokenizer.rawText ids skipSpecialTokens)) := by
  have hfold := spStep_fold tokenizer skipSpecialTokens ids ([], [])
  rw [List.nil_append] at hfold
  unfold BpeTokenizer.rawText spell
  rw [← hfold]
  rfl

end Dyninfer
