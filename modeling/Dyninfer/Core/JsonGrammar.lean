/-
JSON texts: which bytes spell which value, for whole numbers, strings, arrays
and objects, with white space between the tokens. A writer that joins the texts
of items by commas spells the array or the object of the items.
-/
import Dyninfer.Core.JsonText
import Dyninfer.Lib.Utf8

namespace Dyninfer

open Bytes

namespace JsonGrammar

/-- A tab, a line break, a carriage return or a blank. -/
def isSpace (b : UInt8) : Bool := [0x09, 0x0a, 0x0d, 0x20].contains b

def Space (bs : List UInt8) : Prop := bs.all isSpace = true

/-- The characters with an escape of one letter. -/
def shortEscapes : List (Char × UInt8) :=
  [('"', 0x22), ('\\', 0x5c), ('/', 0x2f), ('\x08', 0x62), ('\x0c', 0x66), ('\n', 0x6e), ('\r', 0x72), ('\t', 0x74)]

def hexDigit (n : Nat) : UInt8 := if n < 10 then UInt8.ofNat (0x30 + n) else UInt8.ofNat (0x57 + n)

/-- Four hexadecimal digits. -/
def hex4 (n : Nat) : List UInt8 :=
  [hexDigit (n / 4096 % 16), hexDigit (n / 256 % 16), hexDigit (n / 16 % 16), hexDigit (n % 16)]

/-- The bytes between the quotes of a string. -/
inductive SpellsChars : List Char → List UInt8 → Prop where
  | nil : SpellsChars [] []
  | plain {c : Char} {cs : List Char} {bs : List UInt8} : 0x20 ≤ c.toNat → c ≠ '"' → c ≠ '\\' → SpellsChars cs bs →
      SpellsChars (c :: cs) (String.utf8EncodeChar c ++ bs)
  | short {c : Char} {letter : UInt8} {cs : List Char} {bs : List UInt8} : (c, letter) ∈ shortEscapes →
      SpellsChars cs bs → SpellsChars (c :: cs) (0x5c :: letter :: bs)
  | code {c : Char} {cs : List Char} {bs : List UInt8} : c.toNat < 2 ^ 16 → SpellsChars cs bs →
      SpellsChars (c :: cs) (0x5c :: 0x75 :: hex4 c.toNat ++ bs)

/-- A string in its quotes. -/
inductive SpellsString (s : String) : List UInt8 → Prop where
  | mk {bs : List UInt8} : SpellsChars s.toList bs → SpellsString s (0x22 :: bs ++ [0x22])

mutual

/-- The bytes of a value. -/
inductive Spells : Json → List UInt8 → Prop where
  | nat (n : UInt64) : Spells (.number (.posInt n)) (utf8 (toString n.toNat))
  | neg {n : Nat} : 0 < n → n ≤ 2 ^ 63 → Spells (.number (.negInt (-n))) (0x2d :: utf8 (toString n))
  | string {s : String} {bs : List UInt8} : SpellsString s bs → Spells (.string s) bs
  | empty {space : List UInt8} : Space space → Spells (.array []) (0x5b :: space ++ [0x5d])
  | array {xs : List Json} {bs : List UInt8} : SpellsItems xs bs → Spells (.array xs) (0x5b :: bs ++ [0x5d])
  | object {fields : List (String × Json)} {bs : List UInt8} : SpellsFields fields bs →
      Spells (.object fields) (0x7b :: bs ++ [0x7d])

inductive SpellsItems : List Json → List UInt8 → Prop where
  | last {x : Json} {before bs after : List UInt8} : Space before → Spells x bs → Space after →
      SpellsItems [x] (before ++ bs ++ after)
  | cons {x : Json} {xs : List Json} {before bs after rest : List UInt8} : Space before → Spells x bs → Space after →
      SpellsItems xs rest → SpellsItems (x :: xs) (before ++ bs ++ after ++ 0x2c :: rest)

inductive SpellsFields : List (String × Json) → List UInt8 → Prop where
  | last {key : String} {x : Json} {before k mid bs after : List UInt8} : Space before → SpellsString key k → Space mid →
      Spells x bs → Space after → SpellsFields [(key, x)] (before ++ k ++ 0x3a :: mid ++ bs ++ after)
  | cons {key : String} {x : Json} {fields : List (String × Json)} {before k mid bs after rest : List UInt8} :
      Space before → SpellsString key k → Space mid → Spells x bs → Space after → SpellsFields fields rest →
      SpellsFields ((key, x) :: fields) (before ++ k ++ 0x3a :: mid ++ bs ++ after ++ 0x2c :: rest)

end

/-- A text of one value. -/
def Document (x : Json) (bs : List UInt8) : Prop :=
  ∃ text after, Spells x text ∧ Space after ∧ bs = text ++ after

end JsonGrammar

/-- `from_slice` reads a JSON text within its recursion limit as the value it spells. -/
def JsonText.Reads (json : JsonText) (x : Json) (text : List UInt8) : Prop :=
  JsonGrammar.Document x text → x.depth ≤ 127 → json.fromSlice text = .ok x

namespace JsonGrammar

/-! ## Joined texts -/

/-- Texts with a separator between them. -/
def join (separator : List UInt8) : List (List UInt8) → List UInt8
  | [] => []
  | [text] => text
  | text :: text' :: texts => text ++ separator ++ join separator (text' :: texts)

/-- The text of a field: the key, a colon and the value. -/
def SpellsField (field : String × Json) (text : List UInt8) : Prop :=
  ∃ k mid bs, SpellsString field.1 k ∧ Space mid ∧ Spells field.2 bs ∧ text = k ++ 0x3a :: mid ++ bs

theorem space_nil : Space [] := rfl

/-- Items joined by commas, each with the same white space in front. -/
theorem spellsItems_join {gap after : List UInt8} (hgap : Space gap) (hafter : Space after) : ∀ {xs texts}, List.Forall₂ Spells xs texts → ∀ {before}, Space before →
      ∀ {x text}, Spells x text → SpellsItems (x :: xs) (before ++ join (0x2c :: gap) (text :: texts) ++ after) := by
  intro xs texts h
  induction h with
  | nil => exact fun hbefore _ _ hx => .last hbefore hx hafter
  | @cons y text' ys texts hy _ ih =>
    intro before hbefore x text hx
    have h := SpellsItems.cons hbefore hx space_nil (ih hgap hy)
    simp only [join, List.append_nil, List.append_assoc, List.cons_append] at h ⊢
    exact h

/-- Fields joined by commas, each with the same white space in front. -/
theorem spellsFields_join {gap after : List UInt8} (hgap : Space gap) (hafter : Space after) : ∀ {fields texts},
    List.Forall₂ SpellsField fields texts → ∀ {before}, Space before → ∀ {field text}, SpellsField field text →
      SpellsFields (field :: fields) (before ++ join (0x2c :: gap) (text :: texts) ++ after) := by
  intro fields texts h
  induction h with
  | nil =>
    intro before hbefore field text hfield
    obtain ⟨k, mid, bs, hk, hmid, hbs, rfl⟩ := hfield
    have h := SpellsFields.last hbefore hk hmid hbs hafter
    simp only [join, List.append_assoc, List.cons_append] at h ⊢
    exact h
  | @cons field' text' fields texts hfield' _ ih =>
    intro before hbefore field text hfield
    obtain ⟨k, mid, bs, hk, hmid, hbs, rfl⟩ := hfield
    have h := SpellsFields.cons hbefore hk hmid hbs space_nil (ih hgap hfield')
    simp only [join, List.append_nil, List.append_assoc, List.cons_append] at h ⊢
    exact h

/-! ## Numbers and strings -/

theorem utf8_eq (s : String) : utf8 s = s.toList.flatMap String.utf8EncodeChar := by
  unfold utf8
  rw [← String.utf8Encode_toList]
  simp [List.utf8Encode]

theorem utf8_append (s t : String) : utf8 (s ++ t) = utf8 s ++ utf8 t := by
  rw [utf8_eq, String.toList_append, List.flatMap_append, ← utf8_eq, ← utf8_eq]

theorem spells_ofNat {n : Nat} (h : n < 2 ^ 64) : Spells (.ofNat n) (utf8 (toString n)) := by
  have hn := Spells.nat (UInt64.ofNat n)
  rwa [UInt64.toNat_ofNat', Nat.mod_eq_of_lt h] at hn

/-- A character that stands for itself in a string. -/
def isPlain (c : Char) : Bool := 0x20 ≤ c.toNat && c ≠ '"' && c ≠ '\\'

theorem spellsChars_plain {cs : List Char} (h : cs.all isPlain = true) :
    SpellsChars cs (cs.flatMap String.utf8EncodeChar) := by
  induction cs with
  | nil => exact .nil
  | cons c cs ih =>
    simp only [List.all_cons, isPlain, Bool.and_eq_true, decide_eq_true_eq] at h
    exact .plain h.1.1.1 h.1.1.2 h.1.2 (ih (by simpa [isPlain] using h.2))

/-- A string of plain characters between quotes. -/
theorem spellsString_plain {s : String} (h : s.toList.all isPlain = true) : SpellsString s (0x22 :: utf8 s ++ [0x22]) := by
  rw [utf8_eq]
  exact .mk (spellsChars_plain h)

end JsonGrammar

end Dyninfer
