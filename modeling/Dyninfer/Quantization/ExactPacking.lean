/-
Packing and dequantising in exact arithmetic: how far the weight that an
emitted helper computes with can be from the weight that was packed. Half
precision, with which blocks store their scales, is a parameter: what its
rounding adds to the error is a term of its own.
-/
import Dyninfer.Lib.Quantizer
import Dyninfer.Quantization.DequantFacts

namespace Dyninfer

open Linalg Quantizer

/-- The operations of the packers on numbers. What stands for infinity, and half precision, are parameters. -/
noncomputable def exactHost (infinity : ℝ) (toF16 : ℝ → BitVec 16) : F32Host ℝ where
  lit n := n
  infinity := infinity
  negInfinity := -infinity
  tiny := 1 / 10 ^ 7
  abs x := |x|
  round x := roundAway x
  max := max
  min := min
  sub x y := x - y
  mul x y := x * y
  div x y := x / y
  lt x y := decide (x < y)
  clamp x low high := max low (min high x)
  toI32 x := F32Host.clampI32 (-2 ^ 31) (2 ^ 31 - 1) (if 0 ≤ x then ⌊x⌋ else ⌈x⌉)
  toUnsigned x := ⌊x⌋₊
  toF16 := toF16
  toUnsigned_clamp x := by
    have hle : max ((0 : ℕ) : ℝ) (min ((15 : ℕ) : ℝ) x) ≤ ((15 : ℕ) : ℝ) := max_le (by norm_num) (min_le_left _ _)
    exact Nat.floor_le_of_le hle

/-- The operations of the emitted programs on numbers. -/
noncomputable def exactArith (extf : BitVec 16 → ℝ) : F32Arith ℝ where
  sitofp x := x.toInt
  uitofp x := x.toNat
  extf := extf
  mulf x y := x * y
  addf x y := x + y
  zero := 0

section packing

variable (infinity : ℝ) (toF16 : ℝ → BitVec 16) (extf : BitVec 16 → ℝ)

/-! ## Scales -/

theorem init_le_foldl_max (f : ℝ → ℝ) (block : List ℝ) : ∀ init, init ≤ block.foldl (fun acc w => max acc (f w)) init := by
  induction block with
  | nil => exact le_refl
  | cons w block ih => exact fun init => (le_max_left _ _).trans (ih _)

theorem le_foldl_max_mem (f : ℝ → ℝ) {block : List ℝ} {x : ℝ} (hx : x ∈ block) :
    ∀ init, f x ≤ block.foldl (fun acc w => max acc (f w)) init := by
  induction block with
  | nil => exact absurd hx (by simp)
  | cons w block ih =>
    intro init
    rcases List.mem_cons.mp hx with rfl | hx
    · exact (le_max_right _ _).trans (init_le_foldl_max f block _)
    · exact ih hx _

theorem foldl_min_le_init (block : List ℝ) : ∀ init, block.foldl min init ≤ init := by
  induction block with
  | nil => exact le_refl
  | cons w block ih => exact fun init => (ih _).trans (min_le_left _ _)

theorem foldl_min_le_mem {block : List ℝ} {x : ℝ} (hx : x ∈ block) : ∀ init, block.foldl min init ≤ x := by
  induction block with
  | nil => exact absurd hx (by simp)
  | cons w block ih =>
    intro init
    rcases List.mem_cons.mp hx with rfl | hx
    · exact (foldl_min_le_init block _).trans (min_le_right _ _)
    · exact ih hx _

theorem lit_zero : (exactHost infinity toF16).lit 0 = 0 := Nat.cast_zero

theorem lt_eq (x y : ℝ) : (exactHost infinity toF16).lt x y = decide (x < y) := rfl

/-- A scale is a fraction of the largest absolute value. -/
theorem scaleBy_eq (steps : Nat) (block : List ℝ) :
    (exactHost infinity toF16).scaleBy steps block = block.foldl (fun amax w => max amax |w|) 0 / steps := by
  have hpeak : block.foldl (fun amax w => (exactHost infinity toF16).max amax ((exactHost infinity toF16).abs w))
      ((exactHost infinity toF16).lit 0) = block.foldl (fun amax w => max amax |w|) 0 := by
    rw [lit_zero]
    rfl
  unfold F32Host.scaleBy
  rw [hpeak, lit_zero]
  dsimp only
  rw [lt_eq]
  rcases (init_le_foldl_max (fun w => |w|) block 0).eq_or_lt with hzero | hpos
  · rw [← hzero]
    simp
  · rw [decide_eq_true hpos]
    rfl

theorem inverse_eq {s : ℝ} (hs : 0 ≤ s) : (exactHost infinity toF16).inverse s = 1 / s := by
  unfold F32Host.inverse
  rw [lit_zero, lt_eq]
  rcases hs.eq_or_lt with rfl | hpos
  · simp
  · rw [decide_eq_true hpos, if_pos rfl]
    show ((1 : ℕ) : ℝ) / s = 1 / s
    rw [Nat.cast_one]

/-! ## Quantised values -/

/-- What `as i32` makes of a rounded value that fits. -/
theorem toI32_round {q low high : ℤ} (hlow : low ≤ q) (hhigh : q ≤ high) (hlow' : -2 ^ 31 ≤ low) (hhigh' : high ≤ 2 ^ 31 - 1) :
    F32Host.clampI32 low high ((exactHost infinity toF16).toI32 q) = q := by
  have htrunc : (if 0 ≤ (q : ℝ) then ⌊(q : ℝ)⌋ else ⌈(q : ℝ)⌉) = q := by
    rw [Int.floor_intCast, Int.ceil_intCast, ite_self]
  show F32Host.clampI32 low high (F32Host.clampI32 (-2 ^ 31) (2 ^ 31 - 1)
    (if 0 ≤ (q : ℝ) then ⌊(q : ℝ)⌋ else ⌈(q : ℝ)⌉)) = q
  rw [htrunc]
  unfold F32Host.clampI32
  omega

theorem clamp_eq {q low high : ℕ} (hlow : low ≤ q) (hhigh : q ≤ high) :
    (exactHost infinity toF16).clamp q ((exactHost infinity toF16).lit low) ((exactHost infinity toF16).lit high) = q := by
  have hlow' : (low : ℝ) ≤ q := by exact_mod_cast hlow
  have hhigh' : (q : ℝ) ≤ high := by exact_mod_cast hhigh
  show max (low : ℝ) (min (high : ℝ) q) = q
  rw [min_eq_right hhigh', max_eq_right hlow']

/-- An element of a block that is quantised by the largest absolute value, in so many steps. -/
theorem symmetric_quant {block : List ℝ} {x : ℝ} (hx : x ∈ block) {N : ℕ} (hN : 0 < N) (hN' : N ≤ 127) {low : ℤ}
    (hlow : low ≤ -N) (hlow' : -128 ≤ low) :
    ∃ q : ℤ, (exactHost infinity toF16).round ((exactHost infinity toF16).mul x
        ((exactHost infinity toF16).inverse ((exactHost infinity toF16).scaleBy N block))) = q ∧
      F32Host.clampI32 low N ((exactHost infinity toF16).toI32 q) = q ∧
      -N ≤ q ∧ q ≤ N ∧ |q * (exactHost infinity toF16).scaleBy N block - x| ≤ (exactHost infinity toF16).scaleBy N block / 2 := by
  have hpeak : |x| ≤ block.foldl (fun amax w => max amax |w|) 0 := le_foldl_max_mem (fun w => |w|) hx 0
  have hnonneg : 0 ≤ block.foldl (fun amax w => max amax |w|) 0 / (N : ℝ) :=
    div_nonneg ((abs_nonneg x).trans hpeak) N.cast_nonneg
  have hscale : |x| ≤ N * (block.foldl (fun amax w => max amax |w|) 0 / (N : ℝ)) := by
    rwa [mul_div_cancel₀ _ (Nat.cast_ne_zero.mpr hN.ne')]
  rw [scaleBy_eq, inverse_eq infinity toF16 hnonneg]
  generalize block.foldl (fun amax w => max amax |w|) 0 / (N : ℝ) = s at hnonneg hscale
  obtain ⟨hge, hle, hnear⟩ := abs_symmetric_sub hnonneg hscale
  have hge' : -(N : ℤ) ≤ roundAway (x / s) := le_roundAway (by exact_mod_cast hge)
  have hle' : roundAway (x / s) ≤ (N : ℤ) := roundAway_le (by exact_mod_cast hle)
  have hmul : (exactHost infinity toF16).mul x (1 / s) = x / s := mul_one_div _ _
  rw [hmul]
  exact ⟨roundAway (x / s), rfl, toI32_round infinity toF16 (by omega) hle' (by omega) (by omega), hge', hle', hnear⟩

/-- An element between an offset and fifteen steps above it. -/
theorem offset_quant {s m x : ℝ} (hs : 0 ≤ s) (hm : m ≤ x) (hx : x ≤ m + 15 * s) :
    ∃ q : ℕ, (exactHost infinity toF16).round ((x - m) / s) = q ∧
      (exactHost infinity toF16).toUnsigned ((exactHost infinity toF16).clamp q ((exactHost infinity toF16).lit 0)
        ((exactHost infinity toF16).lit 15)) = q ∧ q ≤ 15 ∧ |q * s + m - x| ≤ s / 2 := by
  obtain ⟨hge, hle, hnear⟩ := abs_offset_sub hs hm (by exact_mod_cast hx : x ≤ m + (15 : ℕ) * s)
  have hge' : 0 ≤ roundAway ((x - m) / s) := le_roundAway (by simpa using hge)
  have hle' : roundAway ((x - m) / s) ≤ (15 : ℕ) := roundAway_le (by exact_mod_cast hle)
  obtain ⟨q, hq⟩ := Int.eq_ofNat_of_zero_le hge'
  have hround : (roundAway ((x - m) / s) : ℝ) = q := by rw [hq, Int.cast_natCast]
  have hclamp := clamp_eq infinity toF16 (q.zero_le) (by omega : q ≤ 15)
  rw [hround] at hnear
  refine ⟨q, hround, ?_, by omega, hnear⟩
  rw [hclamp]
  exact Nat.floor_natCast q

/-! ## Weights -/

/-- Half a step, and what the storing of the step adds in so many steps. -/
noncomputable def stepError (s : ℝ) (N : ℕ) : ℝ := s / (2 : ℕ) + N * |extf (toF16 s) - s|

/-- The error of an element of a block in each format. -/
noncomputable def errorQ40 (block : List ℝ) : ℝ := stepError toF16 extf ((exactHost infinity toF16).scaleBy 7 block) 7

@[inherit_doc errorQ40] noncomputable def errorQ80 (block : List ℝ) : ℝ :=
  stepError toF16 extf ((exactHost infinity toF16).scaleBy 127 block) 127

@[inherit_doc errorQ40] noncomputable def errorQ41 (block : List ℝ) : ℝ :=
  stepError toF16 extf ((exactHost infinity toF16).scaleQ41 block) 15 +
    |extf (toF16 ((exactHost infinity toF16).minimum block)) - (exactHost infinity toF16).minimum block|

@[inherit_doc errorQ40] noncomputable def errorU4 (group : List ℝ) : ℝ :=
  (exactHost infinity toF16).scaleU4 group / (2 : ℕ)

theorem sitofp_ofInt {q : ℤ} (hlow : -2 ^ 31 ≤ q) (hhigh : q < 2 ^ 31) :
    (exactArith extf).sitofp (BitVec.ofInt 32 q) = q := by
  show ((BitVec.ofInt 32 q).toInt : ℝ) = q
  rw [BitVec.toInt_ofInt, Int.bmod_eq_of_le (by omega) (by omega)]

theorem uitofp_ofNat {q : ℕ} (hq : q < 2 ^ 32) : (exactArith extf).uitofp (BitVec.ofNat 32 q) = q := by
  show ((BitVec.ofNat 32 q).toNat : ℝ) = q
  rw [BitVec.toNat_ofNat, Nat.mod_eq_of_lt hq]

/-- The error of an element that is quantised by the largest absolute value. -/
theorem stored_symmetric {q : ℤ} {N : ℕ} {s x : ℝ} (hge : -(N : ℤ) ≤ q) (hle : q ≤ N) (hnear : |q * s - x| ≤ s / 2) :
    |q * extf (toF16 s) - x| ≤ stepError toF16 extf s N := by
  have habs : |(q : ℝ)| ≤ N := abs_le.mpr ⟨by exact_mod_cast hge, by exact_mod_cast hle⟩
  have hstored := @abs_stored_sub q N s (extf (toF16 s)) 0 0 x habs (by rwa [add_zero])
  simp only [add_zero, sub_zero, abs_zero] at hstored
  exact hstored

theorem getD_of_getElem? {block : List ℝ} {k : ℕ} {x : ℝ} (hx : block[k]? = some x) (default : ℝ) :
    block.getD k default = x := by
  rw [List.getD_eq_getElem?_getD, hx, Option.getD_some]

/-- An element of a block of `Q4_0`: its quantised value, and the weight it stands for. -/
theorem weightQ40_quant {block : List ℝ} {k : ℕ} {x : ℝ} (hx : block[k]? = some x) :
    ∃ q : ℤ, (exactHost infinity toF16).round ((exactHost infinity toF16).mul x
        ((exactHost infinity toF16).inverse ((exactHost infinity toF16).scaleBy 7 block))) = q ∧
      weightQ40 (exactArith extf) (exactHost infinity toF16) block k =
        q * extf (toF16 ((exactHost infinity toF16).scaleBy 7 block)) ∧ -(7 : ℕ) ≤ q ∧ q ≤ (7 : ℕ) ∧
      |q * (exactHost infinity toF16).scaleBy 7 block - x| ≤ (exactHost infinity toF16).scaleBy 7 block / 2 := by
  obtain ⟨q, hround, hq, hge, hle, hnear⟩ := symmetric_quant infinity toF16 (List.mem_of_getElem? hx) (by omega : 0 < 7)
    (by omega) (by omega : (-8 : ℤ) ≤ -(7 : ℕ)) (by omega)
  have hquant : (exactHost infinity toF16).quantQ40 block k = q := by
    unfold F32Host.quantQ40
    rw [getD_of_getElem? hx, hround]
    exact hq
  refine ⟨q, hround, ?_, hge, hle, hnear⟩
  unfold weightQ40
  rw [hquant, sitofp_ofInt extf (by omega) (by omega)]
  exact add_zero _

@[inherit_doc weightQ40_quant] theorem weightQ80_quant {block : List ℝ} {k : ℕ} {x : ℝ} (hx : block[k]? = some x) :
    ∃ q : ℤ, (exactHost infinity toF16).round ((exactHost infinity toF16).mul x
        ((exactHost infinity toF16).inverse ((exactHost infinity toF16).scaleBy 127 block))) = q ∧
      weightQ80 (exactArith extf) (exactHost infinity toF16) block k =
        q * extf (toF16 ((exactHost infinity toF16).scaleBy 127 block)) ∧ -(127 : ℕ) ≤ q ∧ q ≤ (127 : ℕ) ∧
      |q * (exactHost infinity toF16).scaleBy 127 block - x| ≤ (exactHost infinity toF16).scaleBy 127 block / 2 := by
  obtain ⟨q, hround, hq, hge, hle, hnear⟩ := symmetric_quant infinity toF16 (List.mem_of_getElem? hx) (by omega : 0 < 127)
    (by omega) (by omega : (-127 : ℤ) ≤ -(127 : ℕ)) (by omega)
  have hquant : (exactHost infinity toF16).quantQ80 ((exactHost infinity toF16).scaleBy 127 block) x = q := by
    unfold F32Host.quantQ80
    rw [hround]
    exact hq
  refine ⟨q, hround, ?_, hge, hle, hnear⟩
  unfold weightQ80
  rw [getD_of_getElem? hx, hquant, sitofp_ofInt extf (by omega) (by omega)]
  rfl

theorem weightQ40_near {block : List ℝ} {k : ℕ} {x : ℝ} (hx : block[k]? = some x) :
    |weightQ40 (exactArith extf) (exactHost infinity toF16) block k - x| ≤ errorQ40 infinity toF16 extf block := by
  obtain ⟨q, -, hweight, hge, hle, hnear⟩ := weightQ40_quant infinity toF16 extf hx
  rw [hweight]
  exact stored_symmetric toF16 extf hge hle hnear

theorem weightQ80_near {block : List ℝ} {k : ℕ} {x : ℝ} (hx : block[k]? = some x) :
    |weightQ80 (exactArith extf) (exactHost infinity toF16) block k - x| ≤ errorQ80 infinity toF16 extf block := by
  obtain ⟨q, -, hweight, hge, hle, hnear⟩ := weightQ80_quant infinity toF16 extf hx
  rw [hweight]
  exact stored_symmetric toF16 extf hge hle hnear

/-- The minimum and the maximum of a block, around its elements. -/
theorem minimum_le {block : List ℝ} {x : ℝ} (hx : x ∈ block) : (exactHost infinity toF16).minimum block ≤ x :=
  foldl_min_le_mem hx infinity

theorem le_maximum {block : List ℝ} {x : ℝ} (hx : x ∈ block) :
    x ≤ block.foldl (exactHost infinity toF16).max (exactHost infinity toF16).negInfinity :=
  le_foldl_max_mem (fun w => w) hx _

theorem lit_fifteen : (exactHost infinity toF16).lit 15 = 15 := Nat.cast_ofNat

/-- An element of a block of `Q4_1`: its quantised value, and the weight it stands for. -/
theorem weightQ41_quant {block : List ℝ} {k : ℕ} {x : ℝ} (hx : block[k]? = some x) :
    ∃ q : ℕ, (exactHost infinity toF16).round ((exactHost infinity toF16).mul
        ((exactHost infinity toF16).sub x ((exactHost infinity toF16).minimum block))
        ((exactHost infinity toF16).inverse ((exactHost infinity toF16).scaleQ41 block))) = q ∧
      weightQ41 (exactArith extf) (exactHost infinity toF16) block k =
        q * extf (toF16 ((exactHost infinity toF16).scaleQ41 block)) +
          extf (toF16 ((exactHost infinity toF16).minimum block)) ∧ q ≤ 15 ∧
      |q * (exactHost infinity toF16).scaleQ41 block + (exactHost infinity toF16).minimum block - x| ≤
        (exactHost infinity toF16).scaleQ41 block / 2 := by
  have hmin := minimum_le infinity toF16 (List.mem_of_getElem? hx)
  have hmax := le_maximum infinity toF16 (List.mem_of_getElem? hx)
  have hscale : (exactHost infinity toF16).scaleQ41 block =
      (block.foldl (exactHost infinity toF16).max (exactHost infinity toF16).negInfinity -
        (exactHost infinity toF16).minimum block) / 15 := by
    unfold F32Host.scaleQ41
    dsimp only
    rw [lt_eq, lit_zero, lit_fifteen]
    rcases (hmin.trans hmax).eq_or_lt with heq | hlt
    · rw [heq]
      simp
    · rw [decide_eq_true hlt]
      rfl
  have hnonneg : 0 ≤ (exactHost infinity toF16).scaleQ41 block := by
    rw [hscale]
    linarith
  obtain ⟨q, hround, hq, hle, hnear⟩ := offset_quant infinity toF16 hnonneg hmin (by rw [hscale]; linarith)
  have hround' : (exactHost infinity toF16).round ((exactHost infinity toF16).mul
      ((exactHost infinity toF16).sub x ((exactHost infinity toF16).minimum block))
      ((exactHost infinity toF16).inverse ((exactHost infinity toF16).scaleQ41 block))) = q := by
    rw [inverse_eq infinity toF16 hnonneg, ← hround]
    exact congrArg (exactHost infinity toF16).round (mul_one_div _ _)
  have hquant : (exactHost infinity toF16).quantQ41 block k = q := by
    unfold F32Host.quantQ41
    rw [getD_of_getElem? hx, hround', hq]
  have hsitofp : (exactArith extf).sitofp (BitVec.ofNat 32 q) = q := by
    rw [← BitVec.ofInt_natCast, sitofp_ofInt extf (by omega) (by omega), Int.cast_natCast]
  refine ⟨q, hround', ?_, hle, hnear⟩
  unfold weightQ41
  rw [hquant, hsitofp]
  rfl

/-- An element of an MLX group: its quantised value, and the weight it stands for. -/
theorem weightU4_quant {group : List ℝ} {k : ℕ} {x : ℝ} (hx : group[k]? = some x) :
    ∃ q : ℕ, (exactHost infinity toF16).round ((exactHost infinity toF16).div
        ((exactHost infinity toF16).sub x ((exactHost infinity toF16).minimum group))
        ((exactHost infinity toF16).scaleU4 group)) = q ∧
      weightU4 (exactArith extf) (exactHost infinity toF16) group k =
        q * (exactHost infinity toF16).scaleU4 group + (exactHost infinity toF16).minimum group ∧ q ≤ 15 ∧
      |q * (exactHost infinity toF16).scaleU4 group + (exactHost infinity toF16).minimum group - x| ≤
        (exactHost infinity toF16).scaleU4 group / 2 := by
  have hmin := minimum_le infinity toF16 (List.mem_of_getElem? hx)
  have hmax := le_maximum infinity toF16 (List.mem_of_getElem? hx)
  have hspread : (group.foldl (exactHost infinity toF16).max (exactHost infinity toF16).negInfinity -
      (exactHost infinity toF16).minimum group) / 15 ≤ (exactHost infinity toF16).scaleU4 group := by
    unfold F32Host.scaleU4
    dsimp only
    rw [lit_fifteen]
    exact le_max_left _ _
  have hnonneg : 0 ≤ (exactHost infinity toF16).scaleU4 group := by linarith
  obtain ⟨q, hround, hq, hle, hnear⟩ := offset_quant infinity toF16 hnonneg hmin (by linarith)
  have hround' : (exactHost infinity toF16).round ((exactHost infinity toF16).div
      ((exactHost infinity toF16).sub x ((exactHost infinity toF16).minimum group))
      ((exactHost infinity toF16).scaleU4 group)) = q := hround
  have hquant : (exactHost infinity toF16).quantU4 group x = q := by
    unfold F32Host.quantU4
    rw [hround', hq]
  refine ⟨q, hround', ?_, hle, hnear⟩
  unfold weightU4
  rw [getD_of_getElem? hx, hquant, uitofp_ofNat extf (by omega)]
  rfl

theorem weightQ41_near {block : List ℝ} {k : ℕ} {x : ℝ} (hx : block[k]? = some x) :
    |weightQ41 (exactArith extf) (exactHost infinity toF16) block k - x| ≤ errorQ41 infinity toF16 extf block := by
  obtain ⟨q, -, hweight, hle, hnear⟩ := weightQ41_quant infinity toF16 extf hx
  have habs : |(q : ℝ)| ≤ (15 : ℕ) := by
    rw [Nat.abs_cast]
    exact_mod_cast hle
  rw [hweight]
  exact abs_stored_sub habs hnear

theorem weightU4_near {group : List ℝ} {k : ℕ} {x : ℝ} (hx : group[k]? = some x) :
    |weightU4 (exactArith extf) (exactHost infinity toF16) group k - x| ≤ errorU4 infinity toF16 group := by
  obtain ⟨q, -, hweight, -, hnear⟩ := weightU4_quant infinity toF16 extf hx
  rw [hweight]
  exact hnear

/-- The weights of a helper, and what its linear layer makes of them, against the weights that were packed: a weight
is off by at most what is said of its block, and a product by at most as much for each column. -/
structure Near (linear : ℕ → Tensor ℝ → Tensor ℝ) (w : Tensor ℝ) (packed : List ℝ) (output groups group : ℕ)
    (error : List ℝ → ℝ) : Prop where
  weights : ∀ o < output, ∀ b < groups, ∀ k < group,
    |w.get [o, b, k] - packed.getD (o * (groups * group) + (b * group + k)) 0| ≤ error (groupOf packed groups group o b)
  linear : ∀ rows x, x.shape = [rows, groups * group] → ∀ r < rows, ∀ o < output,
    |(linear rows x).get [r, o] - weightedSum (exactArith extf) groups group (fun column => x.get [r, column])
        (fun b k => packed.getD (o * (groups * group) + (b * group + k)) 0)| ≤
      weightedSum (exactArith extf) groups group (fun column => |x.get [r, column]|)
        fun b _ => error (groupOf packed groups group o b)

/-- Two sums of products over the same places, the factors near each other. -/
theorem abs_foldl_sub {α : Type} (x w w' e : α → ℝ) (places : List α) (h : ∀ p ∈ places, |w p - w' p| ≤ e p) :
    ∀ a a' b : ℝ, |a - a'| ≤ b →
      |places.foldl (fun acc p => acc + x p * w p) a - places.foldl (fun acc p => acc + x p * w' p) a'| ≤
        places.foldl (fun acc p => acc + |x p| * e p) b := by
  induction places with
  | nil => exact fun _ _ _ hab => hab
  | cons p places ih =>
    intro a a' b hab
    refine ih (fun p' hp' => h p' (List.mem_cons_of_mem _ hp')) _ _ _ ?_
    have hsplit : a + x p * w p - (a' + x p * w' p) = a - a' + x p * (w p - w' p) := by ring
    have hprod : |x p * (w p - w' p)| ≤ |x p| * e p := by
      rw [abs_mul]
      exact mul_le_mul_of_nonneg_left (h p List.mem_cons_self) (abs_nonneg _)
    rw [hsplit]
    exact (abs_add_le _ _).trans (add_le_add hab hprod)

theorem near_of_computes {linear : ℕ → Tensor ℝ → Tensor ℝ} {gather : ℕ → Tensor ℝ} {w : Tensor ℝ} {weights : List ℝ}
    {output groups group : ℕ} {weight : List ℝ → ℕ → ℝ} {error : List ℝ → ℝ}
    (hlength : weights.length = output * (groups * group))
    (hcomputes : Computes (exactArith extf) linear gather w output groups group
      fun o b => weight (groupOf weights groups group o b))
    (hnear : ∀ (block : List ℝ) k x, block[k]? = some x → |weight block k - x| ≤ error block) :
    Near extf linear w weights output groups group error := by
  have hweight : ∀ o < output, ∀ b < groups, ∀ k < group,
      |weight (groupOf weights groups group o b) k - weights.getD (o * (groups * group) + (b * group + k)) 0| ≤
        error (groupOf weights groups group o b) := by
    intro o ho b hb k hk
    have hplace : o * (groups * group) + (b * group + k) < weights.length := by
      rw [hlength]
      exact place_lt ho (place_lt hb hk)
    have hx := List.getElem?_eq_getElem hplace
    rw [getD_of_getElem? hx]
    exact hnear _ k _ ((getElem?_groupOf hk).trans hx)
  constructor
  case weights =>
    intro o ho b hb k hk
    rw [hcomputes.weights o ho b hb k hk]
    exact hweight o ho b hb k hk
  case linear =>
    intro rows x hx r hr o ho
    rw [hcomputes.linear rows x hx r hr o ho]
    refine abs_foldl_sub _ _ _ _ _ (fun place hplace => ?_) 0 0 0 (by simp)
    obtain ⟨b, hb, hplace⟩ := List.mem_flatMap.mp hplace
    obtain ⟨k, hk, rfl⟩ := List.mem_map.mp hplace
    exact hweight o ho b (List.mem_range.mp hb) k (List.mem_range.mp hk)

/-- The helpers of a block format over what a packer wrote. -/
theorem near_packed {layout : BlockLayout} {pack : List ℝ → List (BitVec 8)} {weight : List ℝ → ℕ → ℝ} {error : List ℝ → ℝ}
    {weights : List ℝ} {output blocks : ℕ} (hlength : weights.length = output * (blocks * 32)) (hsize : layout.blockSize = 32)
    (hpack : ∀ block : List ℝ, block.length = 32 → (pack block).length = layout.bytesPerBlock)
    (hweight : ∀ block : List ℝ, block.length = 32 → ∀ k < 32,
      dequantBlock (exactArith extf) layout (fun r => (pack block).getD r 0) k = weight block k)
    (hnear : ∀ (block : List ℝ) k x, block[k]? = some x → |weight block k - x| ≤ error block) :
    Near extf
      (fun rows x => GgufCodegen.emitLinear (exactArith extf) layout rows (blocks * 32) output x
        (Tensor.ofList ((Rows.chunksExact 32 weights).flatMap pack) 0))
      (GgufCodegen.emitDequant (exactArith extf) layout (Tensor.ofList ((Rows.chunksExact 32 weights).flatMap pack) 0)
        output blocks) weights output blocks 32 error := by
  have hcomputes := computesBlocks_packed (exactArith extf) hlength hsize hpack hweight
  unfold ComputesBlocks at hcomputes
  rw [hsize] at hcomputes
  exact near_of_computes extf hlength hcomputes hnear

/-- **Quantised weights are near**, in exact arithmetic. What the emitted helpers compute with is off from the weights
that were packed by at most half a step of its own block or group, and by what the storing of the block's step and
minimum in half precision adds; and a linear layer over them by as much for each column. -/
theorem dequant_near :
    (∀ weights output blocks, weights.length = output * (blocks * 32) →
      (∃ data, (exactHost infinity toF16).packQ40 weights = .ok data ∧
        Near extf (fun rows x => GgufCodegen.emitLinear (exactArith extf) .q40 rows (blocks * 32) output x (Tensor.ofList data 0))
          (GgufCodegen.emitDequant (exactArith extf) .q40 (Tensor.ofList data 0) output blocks) weights output blocks 32
          (errorQ40 infinity toF16 extf)) ∧
      (∃ data, (exactHost infinity toF16).packQ41 weights = .ok data ∧
        Near extf (fun rows x => GgufCodegen.emitLinear (exactArith extf) .q41 rows (blocks * 32) output x (Tensor.ofList data 0))
          (GgufCodegen.emitDequant (exactArith extf) .q41 (Tensor.ofList data 0) output blocks) weights output blocks 32
          (errorQ41 infinity toF16 extf)) ∧
      ∃ data, (exactHost infinity toF16).packQ80 weights = .ok data ∧
        Near extf (fun rows x => GgufCodegen.emitLinear (exactArith extf) .q80 rows (blocks * 32) output x (Tensor.ofList data 0))
          (GgufCodegen.emitDequant (exactArith extf) .q80 (Tensor.ofList data 0) output blocks) weights output blocks 32
          (errorQ80 infinity toF16 extf)) ∧
    ∀ values rows columns group packed scales biases,
      (exactHost infinity toF16).quantizeAffineU4 values rows columns group = some (packed, scales, biases) →
      Near extf
        (fun batch x => MlxAffineDefinition.emitLinearU4 (exactArith extf) batch (columns / group * group) rows group x
          (MlxAffineDefinition.packedLanes ((Tensor.ofList packed 0).reshape [rows, columns / 8]) rows (columns / group) group)
          ((Tensor.ofList scales ((exactHost infinity toF16).lit 0)).reshape [rows, columns / group])
          ((Tensor.ofList biases ((exactHost infinity toF16).lit 0)).reshape [rows, columns / group]))
        (MlxAffineDefinition.dequantU4 (exactArith extf)
          (MlxAffineDefinition.packedLanes ((Tensor.ofList packed 0).reshape [rows, columns / 8]) rows (columns / group) group)
          ((Tensor.ofList scales ((exactHost infinity toF16).lit 0)).reshape [rows, columns / group])
          ((Tensor.ofList biases ((exactHost infinity toF16).lit 0)).reshape [rows, columns / group]) rows (columns / group) group)
        values rows (columns / group) group (errorU4 infinity toF16) := by
  refine ⟨fun weights output blocks hlength => ?_, fun values rows columns group packed scales biases h => ?_⟩
  · have hwhole : ¬ weights.length % 32 ≠ 0 := by
      rw [hlength, ← Nat.mul_assoc, Nat.mul_mod_left]
      simp
    refine ⟨⟨_, if_neg hwhole, ?_⟩, ⟨_, if_neg hwhole, ?_⟩, ⟨_, if_neg hwhole, ?_⟩⟩
    · exact near_packed extf hlength rfl (fun block _ => length_packBlockQ40 (exactHost infinity toF16) block)
        (fun block _ k hk => dequantBlock_q40 (exactArith extf) (exactHost infinity toF16) block hk)
        fun block k x hx => weightQ40_near infinity toF16 extf hx
    · exact near_packed extf hlength rfl (fun block _ => length_packBlockQ41 (exactHost infinity toF16) block)
        (fun block _ k hk => dequantBlock_q41 (exactArith extf) (exactHost infinity toF16) block hk)
        fun block k x hx => weightQ41_near infinity toF16 extf hx
    · exact near_packed extf hlength rfl (fun block h => length_packBlockQ80 (exactHost infinity toF16) h)
        (fun block h k hk => dequantBlock_q80 (exactArith extf) (exactHost infinity toF16) h hk)
        fun block k x hx => weightQ80_near infinity toF16 extf hx
  · have hcomputes := computesGroups_quantized (exactArith extf) (exactHost infinity toF16) h
    have hlength : values.length = rows * (columns / group * group) := by
      unfold F32Host.quantizeAffineU4 at h
      split at h
      case isFalse => cases h
      case isTrue hassert => rw [Nat.div_mul_cancel (Nat.dvd_of_mod_eq_zero hassert.2.2.1), hassert.1]
    exact near_of_computes extf hlength hcomputes fun block k x hx => weightU4_near infinity toF16 extf hx

/-- Two rows of two blocks each. -/
noncomputable def twoRows : List ℝ := (List.range 128).map fun n => (n : ℝ) - 64

theorem length_twoRows : twoRows.length = 2 * (2 * 32) := by simp [twoRows]

/-- Half precision that keeps whole numbers alone. -/
noncomputable def toWhole (x : ℝ) : BitVec 16 := .ofInt 16 (round x)

noncomputable def ofWhole (bits : BitVec 16) : ℝ := bits.toInt

theorem twoRows_quantized : ∃ packed scales biases,
    (exactHost 128 toWhole).quantizeAffineU4 twoRows 2 64 32 = some (packed, scales, biases) :=
  ⟨_, _, _, if_pos ⟨length_twoRows, by decide, by decide, by decide⟩⟩

theorem dequant_near_two_rows :
    (∃ data, (exactHost 128 toWhole).packQ40 twoRows = .ok data ∧
      Near ofWhole (fun rows x => GgufCodegen.emitLinear (exactArith ofWhole) .q40 rows 64 2 x (Tensor.ofList data 0))
        (GgufCodegen.emitDequant (exactArith ofWhole) .q40 (Tensor.ofList data 0) 2 2) twoRows 2 2 32
        (errorQ40 128 toWhole ofWhole)) ∧
    (∃ data, (exactHost 128 toWhole).packQ41 twoRows = .ok data ∧
      Near ofWhole (fun rows x => GgufCodegen.emitLinear (exactArith ofWhole) .q41 rows 64 2 x (Tensor.ofList data 0))
        (GgufCodegen.emitDequant (exactArith ofWhole) .q41 (Tensor.ofList data 0) 2 2) twoRows 2 2 32
        (errorQ41 128 toWhole ofWhole)) ∧
    (∃ data, (exactHost 128 toWhole).packQ80 twoRows = .ok data ∧
      Near ofWhole (fun rows x => GgufCodegen.emitLinear (exactArith ofWhole) .q80 rows 64 2 x (Tensor.ofList data 0))
        (GgufCodegen.emitDequant (exactArith ofWhole) .q80 (Tensor.ofList data 0) 2 2) twoRows 2 2 32
        (errorQ80 128 toWhole ofWhole)) ∧
    ∃ packed scales biases, (exactHost 128 toWhole).quantizeAffineU4 twoRows 2 64 32 = some (packed, scales, biases) ∧
      Near ofWhole
        (fun batch x => MlxAffineDefinition.emitLinearU4 (exactArith ofWhole) batch 64 2 32 x
          (MlxAffineDefinition.packedLanes ((Tensor.ofList packed 0).reshape [2, 8]) 2 2 32)
          ((Tensor.ofList scales ((exactHost 128 toWhole).lit 0)).reshape [2, 2])
          ((Tensor.ofList biases ((exactHost 128 toWhole).lit 0)).reshape [2, 2]))
        (MlxAffineDefinition.dequantU4 (exactArith ofWhole)
          (MlxAffineDefinition.packedLanes ((Tensor.ofList packed 0).reshape [2, 8]) 2 2 32)
          ((Tensor.ofList scales ((exactHost 128 toWhole).lit 0)).reshape [2, 2])
          ((Tensor.ofList biases ((exactHost 128 toWhole).lit 0)).reshape [2, 2]) 2 2 32)
        twoRows 2 2 32 (errorU4 128 toWhole) := by
  obtain ⟨hblocks, hgroups⟩ := dequant_near 128 toWhole ofWhole
  obtain ⟨hq40, hq41, hq80⟩ := hblocks twoRows 2 2 length_twoRows
  obtain ⟨packed, scales, biases, hquantized⟩ := twoRows_quantized
  exact ⟨hq40, hq41, hq80, packed, scales, biases, hquantized, hgroups twoRows 2 64 32 packed scales biases hquantized⟩

end packing

end Dyninfer
