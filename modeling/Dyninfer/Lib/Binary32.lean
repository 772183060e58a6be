/-
The binary32 floating-point format by its bits: a sign and a magnitude. The
comparison of numbers takes the two zeros for one, and no NaN is above or below
anything; the total order tells all bit patterns apart, and puts the negative
zero below the positive one.
-/
import Dyninfer.Lib.Bytes
import Mathlib.Algebra.Order.Ring.Int

/-- A `binary32` value. -/
structure Binary32 where
  bits : UInt32
  deriving DecidableEq, Repr

namespace Binary32

def signBit (x : Binary32) : Bool := decide (2 ^ 31 ≤ x.bits.toNat)

/-- The exponent and the fraction, which order the absolute values. -/
def magnitude (x : Binary32) : Nat := x.bits.toNat % 2 ^ 31

def isNaN (x : Binary32) : Bool := decide (0x7f800000 < x.magnitude)

def isFinite (x : Binary32) : Bool := decide (x.magnitude < 0x7f800000)

def zero : Binary32 := ⟨0⟩

def negZero : Binary32 := ⟨0x80000000⟩

def negInfinity : Binary32 := ⟨0xff800000⟩

/-- The place of a number among the numbers; the two zeros share one. -/
def place (x : Binary32) : Int := if x.signBit then -(x.magnitude : Int) else x.magnitude

/-- The place of a bit pattern in the total order. -/
def totalPlace (x : Binary32) : Int := if x.signBit then -(x.magnitude : Int) - 1 else x.magnitude

/-- `>` -/
def gt (x y : Binary32) : Bool := !x.isNaN && !y.isNaN && decide (y.place < x.place)

/-- How a value that is not finite is printed. -/
def nonFiniteText (x : Binary32) : String :=
  if x.isNaN then "NaN" else if x.signBit then "-inf" else "inf"

def toFloat (x : Binary32) : Float := (Float32.ofBits x.bits).toFloat

/-- The four bytes, the lowest first. -/
def toLeBytes (x : Binary32) : List UInt8 := Bytes.toLe 4 x.bits.toNat

def ofLeBytes (bs : List UInt8) : Binary32 := ⟨UInt32.ofNat (Bytes.ofLe bs)⟩

theorem length_toLeBytes (x : Binary32) : x.toLeBytes.length = 4 := Bytes.length_toLe 4 _

theorem ofLeBytes_toLeBytes (x : Binary32) : ofLeBytes x.toLeBytes = x := by
  unfold ofLeBytes toLeBytes
  rw [Bytes.ofLe_toLe_of_lt (by exact UInt32.toNat_lt x.bits), UInt32.ofNat_toNat]

theorem not_isNaN_of_isFinite {x : Binary32} (h : x.isFinite = true) : x.isNaN = false := by
  unfold isFinite at h
  unfold isNaN
  simp only [decide_eq_true_eq, decide_eq_false_iff_not] at h ⊢
  omega

/-! ## The two orders -/

section orders

variable {x y : Binary32}

theorem gt_iff (hx : x.isNaN = false) (hy : y.isNaN = false) : x.gt y = true ↔ y.place < x.place := by
  simp [gt, hx, hy]

theorem totalPlace_of_sign : x.totalPlace = if x.signBit then x.place - 1 else x.place := by
  unfold totalPlace place
  split <;> rfl

theorem place_of_sign (x : Binary32) : (x.signBit = true → x.place ≤ 0) ∧ (x.signBit = false → 0 ≤ x.place) := by
  unfold place
  constructor
  · intro h
    rw [if_pos h]
    omega
  · intro h
    rw [if_neg (by simp [h])]
    omega

/-- A greater number is greater in the total order. -/
theorem totalPlace_lt (h : y.place < x.place) : y.totalPlace < x.totalPlace := by
  have hx := place_of_sign x
  have hy := place_of_sign y
  rw [totalPlace_of_sign, totalPlace_of_sign]
  cases hsx : x.signBit <;> cases hsy : y.signBit <;> simp only [hsx, hsy] at hx hy ⊢ <;> simp at * <;> omega

theorem eq_zero_of_place (hsign : x.signBit = false) (hplace : x.place = 0) : x = zero := by
  have hmagnitude : x.magnitude = 0 := by
    unfold place at hplace
    rw [if_neg (by simp [hsign])] at hplace
    omega
  unfold signBit at hsign
  unfold magnitude at hmagnitude
  have hbits : x.bits.toNat = (0 : UInt32).toNat := by
    simp only [decide_eq_false_iff_not] at hsign
    show x.bits.toNat = 0
    omega
  cases x
  exact congrArg mk (UInt32.toNat_inj.mp hbits)

theorem eq_negZero_of_place (hsign : x.signBit = true) (hplace : x.place = 0) : x = negZero := by
  have hmagnitude : x.magnitude = 0 := by
    unfold place at hplace
    rw [if_pos hsign] at hplace
    omega
  have hlt := UInt32.toNat_lt x.bits
  unfold signBit at hsign
  unfold magnitude at hmagnitude
  have hbits : x.bits.toNat = (0x80000000 : UInt32).toNat := by
    simp only [decide_eq_true_eq] at hsign
    show x.bits.toNat = 2 ^ 31
    omega
  cases x
  exact congrArg mk (UInt32.toNat_inj.mp hbits)

theorem eq_zero_of_totalPlace (htotal : 0 ≤ x.totalPlace) (hplace : x.place ≤ 0) : x = zero := by
  have hx := place_of_sign x
  rw [totalPlace_of_sign] at htotal
  cases hsign : x.signBit with
  | true =>
    rw [if_pos hsign] at htotal
    have := hx.1 hsign
    omega
  | false => exact eq_zero_of_place hsign (le_antisymm hplace (hx.2 hsign))

/-- The total order parts only the zeros among numbers of one place. -/
theorem zeros_of_totalPlace_lt (hplace : x.place ≤ y.place) (h : y.totalPlace < x.totalPlace) :
    x = zero ∧ y = negZero := by
  have hx := place_of_sign x
  have hy := place_of_sign y
  rw [totalPlace_of_sign, totalPlace_of_sign] at h
  cases hsx : x.signBit <;> cases hsy : y.signBit <;> simp only [hsx, hsy] at hx hy h <;> simp at hx hy h
  case false.true => exact ⟨eq_zero_of_place hsx (by omega), eq_negZero_of_place hsy (by omega)⟩
  all_goals omega

/-- Nothing but a NaN is below the negative infinity. -/
theorem place_negInfinity_le (h : x.isNaN = false) : negInfinity.place ≤ x.place := by
  have hplace : negInfinity.place = -(0x7f800000 : Int) := by decide
  unfold isNaN at h
  unfold place at hplace ⊢
  rw [hplace]
  simp only [decide_eq_false_iff_not] at h
  split <;> omega

end orders

end Binary32
