/-
Byte strings: little-endian numbers, strings as UTF-8, and programs that read
a source of bytes from a position on. `Takes` says what such a program makes
of the bytes it stands at; its rules follow the program, so that a reader of a
format is checked against the format line by line.
-/
import Mathlib.Algebra.Order.Ring.Int

namespace Bytes

/-- The number whose bytes are these, the lowest first. -/
def ofLe : List UInt8 → Nat
  | [] => 0
  | b :: bs => b.toNat + 256 * ofLe bs

/-- The lowest `width` bytes of a number, the lowest first. -/
def toLe : Nat → Nat → List UInt8
  | 0, _ => []
  | width + 1, n => UInt8.ofNat n :: toLe width (n / 256)

@[simp] theorem length_toLe (width n : Nat) : (toLe width n).length = width := by
  induction width generalizing n with
  | zero => rfl
  | succ width ih => simp [toLe, ih]

theorem ofLe_toLe (width n : Nat) : ofLe (toLe width n) = n % 256 ^ width := by
  induction width generalizing n with
  | zero => simp [toLe, ofLe, Nat.mod_one]
  | succ width ih =>
    have hpow : 256 ^ (width + 1) = 256 * 256 ^ width := Nat.pow_succ'
    rw [toLe, ofLe, ih, hpow, Nat.mod_mul]
    simp

theorem ofLe_toLe_of_lt {width n : Nat} (h : n < 256 ^ width) : ofLe (toLe width n) = n := by
  rw [ofLe_toLe, Nat.mod_eq_of_lt h]

theorem ofLe_lt (bs : List UInt8) : ofLe bs < 256 ^ bs.length := by
  induction bs with
  | nil => simp [ofLe]
  | cons b bs ih =>
    have hb := b.toNat_lt
    rw [ofLe, List.length_cons, pow_succ]
    omega

/-- The two's complement value of an unsigned number of `width` bytes. -/
def signed (width n : Nat) : Int :=
  if 2 * n < 256 ^ width then n else (n : Int) - 256 ^ width

/-- Items that each take a byte are no more than the bytes they take. -/
theorem length_le_flatMap {γ : Type} {e : γ → List UInt8} (items : List γ) (h : ∀ c, e c ≠ []) :
    items.length ≤ (items.flatMap e).length := by
  induction items with
  | nil => simp
  | cons c items ih =>
    have hc := List.length_pos_iff.mpr (h c)
    simp only [List.flatMap_cons, List.length_append, List.length_cons]
    omega

/-! ## Strings -/

/-- The UTF-8 bytes of a string. -/
def utf8 (s : String) : List UInt8 := s.toByteArray.data.toList

/-- The string of UTF-8 bytes, if they are. -/
def fromUtf8 (bs : List UInt8) : Option String := String.fromUTF8? ⟨bs.toArray⟩

@[simp] theorem length_utf8 (s : String) : (utf8 s).length = s.utf8ByteSize := by
  rw [← String.size_toByteArray]
  rfl

@[simp] theorem fromUtf8_utf8 (s : String) : fromUtf8 (utf8 s) = some s := by
  unfold fromUtf8 utf8 String.fromUTF8?
  rw [Array.toArray_toList, dif_pos s.isValidUTF8]
  rfl

theorem utf8_inj {s t : String} (h : utf8 s = utf8 t) : s = t := by
  simpa using congrArg fromUtf8 h

/-! ## Reading -/

section reading

variable {ε α β : Type}

/-- Where a source holds the bytes `bs`, the program reads `a` from them and stops right after. -/
def Takes (source : List UInt8) (x : EStateM ε Nat α) (bs : List UInt8) (a : α) : Prop :=
  ∀ before after, source = before ++ bs ++ after → x.run before.length = .ok a (before.length + bs.length)

/-- `n` readings of one program. -/
def readTimes (x : EStateM ε Nat α) : Nat → EStateM ε Nat (List α)
  | 0 => pure []
  | n + 1 => do
    let a ← x
    let rest ← readTimes x n
    return a :: rest

section rules

variable {source bs bs' : List UInt8} {x : EStateM ε Nat α} {f : α → EStateM ε Nat β} {a : α} {b : β}

theorem Takes.pure (a : α) : Takes source (Pure.pure a : EStateM ε Nat α) [] a := fun _ _ _ => rfl

theorem Takes.bind (hx : Takes source x bs a) (hf : Takes source (f a) bs' b) :
    Takes source (x >>= f) (bs ++ bs') b := by
  intro before after h
  rw [EStateM.run_bind, hx before (bs' ++ after) (by simp [h])]
  have hrest := hf (before ++ bs) after (by simp [h])
  simpa [Nat.add_assoc] using hrest

/-- A step that reads nothing and returns. -/
theorem Takes.skip (hx : Takes source x [] a) (hf : Takes source (f a) bs b) : Takes source (x >>= f) bs b :=
  hx.bind hf

/-- The last step of a program. -/
theorem Takes.last {g : α → β} (hx : Takes source x bs a) :
    Takes source (x >>= fun a => Pure.pure (g a)) bs (g a) := by
  have h := hx.bind (f := fun a => Pure.pure (g a)) (Takes.pure (g a))
  rwa [List.append_nil] at h

theorem Takes.readTimes {γ : Type} {items : List γ} {e : γ → List UInt8} {v : γ → α}
    (h : ∀ c ∈ items, Takes source x (e c) (v c)) :
    Takes source (readTimes x items.length) (items.flatMap e) (items.map v) := by
  induction items with
  | nil => exact Takes.pure []
  | cons c items ih =>
    rw [List.forall_mem_cons] at h
    exact h.1.bind (ih h.2).last

/-- At the start of the source. -/
theorem Takes.run_zero (hx : Takes source x bs a) (after : List UInt8) (h : source = bs ++ after) :
    x.run 0 = .ok a bs.length := by
  have hrun := hx [] after h
  simpa using hrun

end rules

end reading

end Bytes
