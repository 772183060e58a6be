/-
Tensors as a tensor compiler's programs handle them: an element for every
index into a shape, laid out in row-major order. Reshaping keeps the layout,
a bitcast keeps the bits of the layout, lowest bit first, and the lemmas say
which element of the source such a tensor holds at an index.
-/
import Mathlib.Algebra.Order.Ring.Int
import Mathlib.Data.List.Forall2
import Mathlib.Tactic.Ring

namespace Linalg

/-! ## Indices -/

/-- The position of an index in row-major order. -/
def flatten : List Nat → List Nat → Nat
  | _ :: dims, i :: index => i * dims.prod + flatten dims index
  | _, _ => 0

/-- The index at a position. -/
def unflatten : List Nat → Nat → List Nat
  | [], _ => []
  | _ :: dims, p => p / dims.prod :: unflatten dims (p % dims.prod)

/-- The indices into a shape. -/
abbrev Valid (shape index : List Nat) : Prop := List.Forall₂ (fun d i => i < d) shape index

/-- A place in a row lies within the rows. -/
theorem place_lt {rows columns i j : Nat} (hi : i < rows) (hj : j < columns) : i * columns + j < rows * columns := by
  calc i * columns + j < i * columns + columns := Nat.add_lt_add_left hj _
    _ = (i + 1) * columns := (Nat.succ_mul _ _).symm
    _ ≤ rows * columns := Nat.mul_le_mul_right _ hi

theorem flatten_lt {shape index : List Nat} (h : Valid shape index) : flatten shape index < shape.prod := by
  induction h with
  | nil => simp [flatten]
  | @cons d i dims index hi _ ih =>
    rw [flatten, List.prod_cons]
    exact place_lt hi ih

@[simp] theorem unflatten_flatten {shape index : List Nat} (h : Valid shape index) :
    unflatten shape (flatten shape index) = index := by
  induction h with
  | nil => rfl
  | @cons d i dims index hi hrest ih =>
    have hlt := flatten_lt hrest
    have hpos : 0 < dims.prod := by omega
    have hdiv : (i * dims.prod + flatten dims index) / dims.prod = i := by
      rw [Nat.mul_comm, Nat.mul_add_div hpos, Nat.div_eq_of_lt hlt, Nat.add_zero]
    have hmod : (i * dims.prod + flatten dims index) % dims.prod = flatten dims index := by
      rw [Nat.mul_comm, Nat.mul_add_mod, Nat.mod_eq_of_lt hlt]
    rw [flatten, unflatten, hdiv, hmod, ih]

/-! ## Tensors -/

structure Tensor (α : Type) where
  shape : List Nat
  get : List Nat → α

namespace Tensor

variable {α : Type}

/-- The tensor of a buffer. -/
def ofList (xs : List α) (default : α) : Tensor α := ⟨[xs.length], fun index => xs.getD (index.headD 0) default⟩

/-- `tensor.expand_shape` and `tensor.collapse_shape`. -/
def reshape (t : Tensor α) (shape : List Nat) : Tensor α :=
  ⟨shape, fun index => t.get (unflatten t.shape (flatten shape index))⟩

/-- `tensor.extract_slice`, with strides of one. -/
def extractSlice (t : Tensor α) (offsets sizes : List Nat) : Tensor α :=
  ⟨sizes, fun index => t.get (List.zipWith (· + ·) offsets index)⟩

/-- `linalg.generic` over parallel iterators; the body reads its operands where their indexing maps say. -/
def generic (shape : List Nat) (body : List Nat → α) : Tensor α := ⟨shape, body⟩

theorem reshape_get (t : Tensor α) (source : List Nat) {shape index : List Nat} (hsource : Valid t.shape source)
    (h : flatten t.shape source = flatten shape index) : (t.reshape shape).get index = t.get source := by
  unfold reshape
  simp only [← h, unflatten_flatten hsource]

theorem ofList_reshape_get (xs : List α) (default : α) (shape index : List Nat) :
    ((ofList xs default).reshape shape).get index = xs.getD (flatten shape index) default := by
  simp [ofList, reshape, unflatten]

/-! ## Bits -/

/-- The bits of a number, the lowest first. -/
def ofBits : (n : Nat) → (Nat → Bool) → BitVec n
  | 0, _ => 0#0
  | n + 1, f => (ofBits n fun i => f (i + 1)).concat (f 0)

theorem getLsbD_ofBits {n : Nat} {f : Nat → Bool} {i : Nat} (h : i < n) : (ofBits n f).getLsbD i = f i := by
  induction n generalizing f i with
  | zero => omega
  | succ n ih =>
    rw [ofBits, BitVec.getLsbD_concat]
    cases i with
    | zero => rfl
    | succ i => simpa using ih (f := fun i => f (i + 1)) (Nat.lt_of_succ_lt_succ h)

/-- A bit of the layout. -/
def bit {m : Nat} (t : Tensor (BitVec m)) (p : Nat) : Bool := (t.get (unflatten t.shape (p / m))).getLsbD (p % m)

/-- A bitcast to elements of `n` bits. -/
def bitcast {m : Nat} (t : Tensor (BitVec m)) (n : Nat) (shape : List Nat) : Tensor (BitVec n) :=
  ⟨shape, fun index => ofBits n fun i => t.bit (flatten shape index * n + i)⟩

theorem bit_eq {m : Nat} (t : Tensor (BitVec m)) {source : List Nat} (hsource : Valid t.shape source) {i : Nat}
    (hi : i < m) : t.bit (flatten t.shape source * m + i) = (t.get source).getLsbD i := by
  have hdiv : (flatten t.shape source * m + i) / m = flatten t.shape source := by
    rw [Nat.mul_comm, Nat.mul_add_div (by omega), Nat.div_eq_of_lt hi, Nat.add_zero]
  have hmod : (flatten t.shape source * m + i) % m = i := by
    rw [Nat.mul_comm, Nat.mul_add_mod, Nat.mod_eq_of_lt hi]
  rw [bit, hdiv, hmod, unflatten_flatten hsource]

/-- A lane of an element. -/
theorem bitcast_get_lane {m n : Nat} (t : Tensor (BitVec m)) (lanes lane : Nat) (source : List Nat)
    {shape index : List Nat} (hm : m = n * lanes) (hsource : Valid t.shape source) (hlane : lane < lanes)
    (h : flatten shape index = flatten t.shape source * lanes + lane) :
    (t.bitcast n shape).get index = (t.get source).extractLsb' (n * lane) n := by
  refine BitVec.eq_of_getLsbD_eq fun i hi => ?_
  have hbits : n * lane + n ≤ n * lanes := by
    rw [← Nat.mul_succ]
    exact Nat.mul_le_mul_left _ hlane
  have hbit : ∀ p, (p * lanes + lane) * n + i = p * m + (n * lane + i) := by
    intro p
    rw [hm]
    ring
  have hposition : flatten shape index * n + i = flatten t.shape source * m + (n * lane + i) := by rw [h, hbit]
  unfold bitcast
  simp only [getLsbD_ofBits hi, hposition, bit_eq t hsource (show n * lane + i < m by omega), BitVec.getLsbD_extractLsb',
    decide_eq_true hi, Bool.true_and]

/-- An element of two. -/
theorem bitcast_get_pair {m : Nat} (t : Tensor (BitVec m)) (low high : List Nat) {shape index : List Nat}
    (hlow : Valid t.shape low) (hhigh : Valid t.shape high) (hl : flatten t.shape low = 2 * flatten shape index)
    (hh : flatten t.shape high = 2 * flatten shape index + 1) :
    (t.bitcast (m + m) shape).get index = t.get high ++ t.get low := by
  refine BitVec.eq_of_getLsbD_eq fun i hi => ?_
  unfold bitcast
  simp only [getLsbD_ofBits hi, BitVec.getLsbD_append]
  by_cases him : i < m
  · have hposition : flatten shape index * (m + m) + i = flatten t.shape low * m + i := by
      rw [hl]
      ring
    rw [hposition, bit_eq t hlow him, if_pos him]
  · have hposition : flatten shape index * (m + m) + i = flatten t.shape high * m + (i - m) := by
      rw [hh]
      have hi : i = m + (i - m) := by omega
      calc flatten shape index * (m + m) + i = flatten shape index * (m + m) + (m + (i - m)) := by rw [← hi]
        _ = (2 * flatten shape index + 1) * m + (i - m) := by ring
    rw [hposition, bit_eq t hhigh (by omega), if_neg him]

end Tensor

end Linalg
