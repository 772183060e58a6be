/-
Uniform quantisation of numbers: rounding to the nearest integer, halves away
from zero, and how far a number is from what its quantised value stands for,
also when the step and the offset are stored with an error.
-/
import Mathlib.Algebra.Order.Floor.Ring
import Mathlib.Algebra.Order.Archimedean.Real.Basic
import Mathlib.Tactic.Linarith
import Mathlib.Tactic.FieldSimp

namespace Quantizer

/-- To the nearest integer, halves away from zero. -/
noncomputable def roundAway (x : ℝ) : ℤ := if 0 ≤ x then ⌊x + 1 / (2 : ℕ)⌋ else ⌈x - 1 / (2 : ℕ)⌉

theorem abs_roundAway_sub (x : ℝ) : |(roundAway x : ℝ) - x| ≤ 1 / 2 := by
  rw [roundAway, Nat.cast_ofNat, abs_sub_le_iff]
  split
  · have hle := Int.floor_le (x + 1 / 2)
    have hlt := Int.lt_floor_add_one (x + 1 / 2)
    constructor <;> linarith
  · have hle := Int.le_ceil (x - 1 / 2)
    have hlt := Int.ceil_lt_add_one (x - 1 / 2)
    constructor <;> linarith

theorem le_roundAway {a : ℤ} {x : ℝ} (h : a ≤ x) : a ≤ roundAway x := by
  rw [roundAway, Nat.cast_ofNat]
  split
  · exact Int.le_floor.mpr (by linarith)
  · exact Int.le_ceil_iff.mpr (by linarith)

theorem roundAway_le {b : ℤ} {x : ℝ} (h : x ≤ b) : roundAway x ≤ b := by
  rw [roundAway, Nat.cast_ofNat]
  split
  · exact Int.floor_le_iff.mpr (by linarith)
  · exact Int.ceil_le.mpr (by linarith)

/-- A number is within half a step of its quantised value. -/
theorem abs_step_sub {s : ℝ} (hs : 0 < s) (x : ℝ) : |roundAway (x / s) * s - x| ≤ s / 2 := by
  have hx : x = x / s * s := (div_mul_cancel₀ x hs.ne').symm
  have hround := mul_le_mul_of_nonneg_right (abs_roundAway_sub (x / s)) hs.le
  rw [← abs_of_pos hs, ← abs_mul, abs_of_pos hs, sub_mul, ← hx] at hround
  linarith

/-- Between an offset and so many steps above it, a quantised value is so many at most, and within half a step. A
step of zero leaves one number. -/
theorem abs_offset_sub {N : ℕ} {s m x : ℝ} (hs : 0 ≤ s) (hm : m ≤ x) (hx : x ≤ m + N * s) :
    0 ≤ (x - m) / s ∧ (x - m) / s ≤ N ∧ |roundAway ((x - m) / s) * s + m - x| ≤ s / 2 := by
  refine ⟨div_nonneg (by linarith) hs, div_le_of_le_mul₀ hs N.cast_nonneg (by linarith), ?_⟩
  have hsplit : roundAway ((x - m) / s) * s + m - x = roundAway ((x - m) / s) * s - (x - m) := by ring
  rw [hsplit]
  rcases hs.eq_or_lt with rfl | hpos
  · have hzero : x - m = 0 := by linarith
    simp [hzero]
  · exact abs_step_sub hpos _

/-- Within so many steps of zero, the same of either sign. -/
theorem abs_symmetric_sub {N : ℕ} {s x : ℝ} (hs : 0 ≤ s) (hx : |x| ≤ N * s) :
    -(N : ℝ) ≤ x / s ∧ x / s ≤ N ∧ |roundAway (x / s) * s - x| ≤ s / 2 := by
  obtain ⟨hlow, hhigh⟩ := abs_le.mp hx
  refine ⟨?_, div_le_of_le_mul₀ hs N.cast_nonneg hhigh, ?_⟩
  · have hneg := div_le_of_le_mul₀ hs N.cast_nonneg (by linarith : -x ≤ N * s)
    rw [neg_div] at hneg
    linarith
  · rcases hs.eq_or_lt with rfl | hpos
    · have hzero : x = 0 := by linarith
      simp [hzero]
    · exact abs_step_sub hpos _

/-- The same, with the step and the offset as they are stored. -/
theorem abs_stored_sub {q N s s' m m' x : ℝ} (hq : |q| ≤ N) (h : |q * s + m - x| ≤ s / 2) :
    |q * s' + m' - x| ≤ s / 2 + N * |s' - s| + |m' - m| := by
  have hsplit : q * s' + m' - x = q * s + m - x + q * (s' - s) + (m' - m) := by ring
  have hstep : |q * (s' - s)| ≤ N * |s' - s| := by
    rw [abs_mul]
    exact mul_le_mul_of_nonneg_right hq (abs_nonneg _)
  calc |q * s' + m' - x| ≤ |q * s + m - x| + |q * (s' - s)| + |m' - m| := by
        rw [hsplit]
        exact (abs_add_le _ _).trans (add_le_add_left (abs_add_le _ _) _)
    _ ≤ s / 2 + N * |s' - s| + |m' - m| := by linarith

end Quantizer
