/-
JSON values as `serde_json` writes and reads them. A value reads back as it
was, but for the last place of a float, unless it nests deeper than the limit
of the reader, which refuses it.
-/
import Dyninfer.Core.Json
import Dyninfer.Lib.Bytes

namespace Dyninfer

open Bytes

/-- `serde_json`, from a value to its text and back. -/
structure JsonText where
  /-- `to_writer_pretty` -/
  pretty : Json → List UInt8
  /-- `from_slice` -/
  fromSlice : List UInt8 → Except String Json

namespace Json

/-! ## Nesting -/

mutual

/-- How deep arrays and objects nest. -/
def depth : Json → Nat
  | .array xs => depthArray xs + 1
  | .object fields => depthObject fields + 1
  | _ => 0

def depthArray : List Json → Nat
  | [] => 0
  | x :: xs => max (depth x) (depthArray xs)

def depthObject : List (String × Json) → Nat
  | [] => 0
  | (_, x) :: fields => max (depth x) (depthObject fields)

end

theorem depthArray_le {xs : List Json} {n : Nat} (h : ∀ x ∈ xs, x.depth ≤ n) : depthArray xs ≤ n := by
  induction xs with
  | nil => exact Nat.zero_le n
  | cons x xs ih =>
    rw [depthArray]
    exact max_le (h x (by simp)) (ih fun y hy => h y (by simp [hy]))

theorem depthObject_le {fields : List (String × Json)} {n : Nat} (h : ∀ f ∈ fields, f.2.depth ≤ n) :
    depthObject fields ≤ n := by
  induction fields with
  | nil => exact Nat.zero_le n
  | cons f fields ih =>
    rw [depthObject]
    exact max_le (h f (by simp)) (ih fun y hy => h y (by simp [hy]))

theorem depthObject_append (fields fields' : List (String × Json)) :
    depthObject (fields ++ fields') = max (depthObject fields) (depthObject fields') := by
  induction fields with
  | nil => rw [List.nil_append, depthObject, Nat.zero_max]
  | cons f fields ih => rw [List.cons_append, depthObject, depthObject, ih, max_assoc]

/-! ## The last place of a float -/

mutual

/-- The same value, its floats aside. -/
inductive FloatsAside : Json → Json → Prop where
  | null : FloatsAside .null .null
  | bool (b : Bool) : FloatsAside (.bool b) (.bool b)
  | posInt (n : UInt64) : FloatsAside (.number (.posInt n)) (.number (.posInt n))
  | negInt (n : Int) : FloatsAside (.number (.negInt n)) (.number (.negInt n))
  | float (x y : Float) : FloatsAside (.number (.float x)) (.number (.float y))
  | string (s : String) : FloatsAside (.string s) (.string s)
  | array {xs ys : List Json} : List.Forall₂ FloatsAside xs ys → FloatsAside (.array xs) (.array ys)
  | object {fs gs : List (String × Json)} : FieldsAside fs gs → FloatsAside (.object fs) (.object gs)

inductive FieldsAside : List (String × Json) → List (String × Json) → Prop where
  | nil : FieldsAside [] []
  | cons (key : String) {x y : Json} {fs gs : List (String × Json)} : FloatsAside x y → FieldsAside fs gs →
      FieldsAside ((key, x) :: fs) ((key, y) :: gs)

end

/-- A value without floats reads back as itself. -/
def Fixed (v : Json) : Prop := ∀ w, FloatsAside v w → w = v

theorem Fixed.string (s : String) : Fixed (.string s) := by
  intro w h
  cases h
  rfl

theorem Fixed.posInt (n : UInt64) : Fixed (.number (.posInt n)) := by
  intro w h
  cases h
  rfl

theorem Fixed.array {xs : List Json} (h : ∀ x ∈ xs, Fixed x) : Fixed (.array xs) := by
  intro w hw
  cases hw with
  | array hall =>
    refine congrArg Json.array ?_
    induction hall with
    | nil => rfl
    | cons hx _ ih =>
      rw [List.forall_mem_cons] at h
      rw [h.1 _ hx, ih h.2]

theorem Fixed.fields_append {fs fs' : List (String × Json)} (h : ∀ f ∈ fs, Fixed f.2) :
    ∀ {gs}, FieldsAside (fs ++ fs') gs → ∃ gs', gs = fs ++ gs' ∧ FieldsAside fs' gs' := by
  induction fs with
  | nil => exact fun hall => ⟨_, rfl, hall⟩
  | cons f fs ih =>
    intro gs hall
    rw [List.forall_mem_cons] at h
    cases hall with
    | cons key hx hrest =>
      obtain ⟨gs', rfl, hgs'⟩ := ih h.2 hrest
      rw [h.1 _ hx]
      exact ⟨gs', rfl, hgs'⟩

theorem Fixed.object {fs : List (String × Json)} (h : ∀ f ∈ fs, Fixed f.2) : Fixed (.object fs) := by
  intro w hw
  cases hw with
  | object hall =>
    rw [← List.append_nil fs] at hall
    obtain ⟨gs', rfl, hgs'⟩ := Fixed.fields_append h hall
    cases hgs'
    rw [List.append_nil]

end Json

/-- `serde_json` reads back a value it wrote with a line break behind it: the reader's limit is 127 levels. -/
def JsonText.ReadsBack (json : JsonText) (v : Json) : Prop :=
  if v.depth ≤ 127 then ∃ w, json.fromSlice (json.pretty v ++ utf8 "\n") = .ok w ∧ v.FloatsAside w
  else ∃ e, json.fromSlice (json.pretty v ++ utf8 "\n") = .error e

end Dyninfer
