/-
The row kernels in exact arithmetic: on numbers, each of them is the function
of the decoder in the reals. The three RoPE helpers turn a row by the same
angles, whether they take them from a table or compute them.
-/
import Dyninfer.Lowering.DecoderMath
import Dyninfer.Lowering.OnlineAttentionFacts

namespace Dyninfer

open DecoderMath

/-! ## Exact arithmetic -/

/-- The functions on the reals. The literal `-1.0e+7` of a masked score is read as minus infinity. -/
noncomputable instance : MathFns EReal where
  sitofp n := n
  sqrt x := (√x.toReal : ℝ)
  cos x := (Real.cos x.toReal : ℝ)
  sin x := (Real.sin x.toReal : ℝ)
  powf x y := (x.toReal ^ y.toReal : ℝ)
  negMask := ⊥

variable {v s h nkv g d i m n : Nat}

/-- A row of numbers. -/
noncomputable def exactRow (x : Fin n → ℝ) : Fin n → EReal := fun k => x k

/-- Rows of numbers. -/
noncomputable def exactRows (x : Fin m → Fin n → ℝ) : Fin m → Fin n → EReal := fun p => exactRow (x p)

/-- Heads of numbers. -/
noncomputable def exactHeads (x : Fin s → Fin m → Fin n → ℝ) : Fin s → Fin m → Fin n → EReal := fun p => exactRows (x p)

noncomputable def KvRow.exact (r : KvRow ℝ nkv d) : KvRow EReal nkv d := ⟨exactRows r.k, exactRows r.v⟩

noncomputable def LayerWeights.exact (w : LayerWeights ℝ h nkv g d i) : LayerWeights EReal h nkv g d i where
  attnNorm := exactRow w.attnNorm
  attnQ := exactRows w.attnQ
  attnK := exactRows w.attnK
  attnV := exactRows w.attnV
  qkNorm := w.qkNorm.map fun norm => (exactRow norm.1, exactRow norm.2)
  attnOutput := exactRows w.attnOutput
  ffnNorm := exactRow w.ffnNorm
  ffnGate := exactRows w.ffnGate
  ffnUp := exactRows w.ffnUp
  ffnDown := exactRows w.ffnDown

noncomputable def DecoderSettings.exact (c : DecoderSettings ℝ) : DecoderSettings EReal where
  rmsNormEps := c.rmsNormEps
  ropeTheta := c.ropeTheta.map Real.toEReal

namespace Kernels

/-! ## Linear layers and norms -/

theorem foldl_left_coe (f : Fin n → ℝ) : Fin.foldl n (fun acc k => (f k : EReal) + acc) 0 = (∑ k, f k : ℝ) := by
  rw [← OnlineAttention.foldl_coe]
  simp only [add_comm]

theorem linear_exact (x : Fin s → Fin m → ℝ) (w : Fin n → Fin m → ℝ) :
    linear (exactRows x) (exactRows w) = exactRows fun p => Matrix.mulVec w (x p) := by
  funext p o
  have hterm (k : Fin m) : exactRows x p k * exactRows w o k = (w o k * x p k : ℝ) := by
    rw [mul_comm (w o k), EReal.coe_mul]
    rfl
  unfold linear
  simp only [hterm, OnlineAttention.foldl_coe]
  rfl

/-- The factor of a norm. -/
theorem inv_exact (sum eps : ℝ) (n : Nat) :
    (1 : EReal) / MathFns.sqrt ((sum : EReal) / MathFns.sitofp n + (eps : EReal)) = (1 / √(sum / n + eps) : ℝ) := by
  have hmean : (sum : EReal) / MathFns.sitofp n + (eps : EReal) = (sum / n + eps : ℝ) := by
    rw [EReal.coe_add, EReal.coe_div]
    rfl
  rw [hmean, EReal.coe_div, EReal.coe_one]
  rfl

theorem rms_eq (eps : ℝ) (x w : Fin n → ℝ) (k : Fin n) :
    (x k : EReal) * (1 / √((∑ j, x j * x j) / n + eps) : ℝ) * w k = (rms eps x w k : ℝ) := by
  rw [← EReal.coe_mul, ← EReal.coe_mul, mul_one_div]
  simp only [rms, pow_two]

theorem rmsNorm_exact (eps : ℝ) (x : Fin s → Fin h → ℝ) (w : Fin h → ℝ) :
    rmsNorm (eps : EReal) (exactRows x) (exactRow w) = exactRows fun p => rms eps (x p) w := by
  funext p k
  have hsq (j : Fin h) : exactRows x p j * exactRows x p j = (x p j * x p j : ℝ) := (EReal.coe_mul _ _).symm
  unfold rmsNorm
  simp only [hsq, foldl_left_coe, inv_exact]
  exact rms_eq eps (x p) w k

theorem rmsNormHeads_exact (eps : ℝ) (x : Fin s → Fin n → Fin d → ℝ) (w : Fin d → ℝ) :
    rmsNormHeads (eps : EReal) (exactHeads x) (exactRow w) = exactHeads fun p head => rms eps (x p head) w := by
  funext p head k
  have hsq (j : Fin d) : exactHeads x p head j * exactHeads x p head j = (x p head j * x p head j : ℝ) :=
    (EReal.coe_mul _ _).symm
  unfold rmsNormHeads
  simp only [hsq, foldl_left_coe, inv_exact]
  exact rms_eq eps (x p head) w k

theorem siluMul_exact (gate up : Fin s → Fin i → ℝ) :
    siluMul (exactRows gate) (exactRows up) = exactRows fun p k => silu (gate p k) * up p k := by
  funext p k
  have hexp : MathExp.exp (-exactRows gate p k) = (Real.exp (-gate p k) : ℝ) :=
    (congrArg OnlineSoftmax.exp (EReal.coe_neg _).symm).trans (OnlineSoftmax.exp_coe _)
  unfold siluMul silu
  rw [hexp, ← EReal.coe_one, ← EReal.coe_add]
  exact ((EReal.coe_mul _ _).trans (congrArg (· * _) (EReal.coe_div _ _))).symm

/-! ## RoPE -/

theorem rotate_exact (cv sv : Nat → ℝ) (x : Fin d → ℝ) :
    rotate (fun i => (cv i : EReal)) (fun i => (sv i : EReal)) (exactRow x) = exactRow (rotate cv sv x) := by
  funext dim
  by_cases hdim : (dim : Nat) < d / 2
  · simp only [rotate, exactRow, if_pos hdim, EReal.coe_sub, EReal.coe_mul]
  · simp only [rotate, exactRow, if_neg hdim, EReal.coe_add, EReal.coe_mul]

theorem tableAngle_exact (theta : ℝ) (d pos i : Nat) : tableAngle (theta : EReal) d pos i = (angle theta d pos i : ℝ) := by
  have hexponent : (MathFns.sitofp (2 * i) / MathFns.sitofp d : EReal) = ((2 * i : ℕ) / d : ℝ) := by
    rw [EReal.coe_div]
    rfl
  have hfreq : (pos / theta ^ ((2 * i : ℕ) / d : ℝ) : ℝ) = pos * (1 / theta ^ ((2 * i : ℕ) / d : ℝ)) :=
    (mul_one_div _ _).symm
  unfold tableAngle angle
  rw [hexponent, hfreq, EReal.coe_mul, EReal.coe_div]
  rfl

/-- What the device computes is what the tables hold. -/
theorem deviceAngle_exact (theta : ℝ) (d pos i : Nat) :
    deviceAngle (theta : EReal) d pos i = tableAngle (theta : EReal) d pos i := by
  have htwo : (MathFns.sitofp 2 * MathFns.sitofp i : EReal) = MathFns.sitofp (2 * i) :=
    (EReal.natCast_mul 2 i).symm
  unfold deviceAngle tableAngle
  rw [htwo]

/-- A head turned by the angles of a table. -/
theorem rotate_tableAngle (theta : ℝ) (pos : Nat) (x : Fin d → ℝ) :
    rotate (fun i => MathFns.cos (tableAngle (theta : EReal) d pos i))
      (fun i => MathFns.sin (tableAngle (theta : EReal) d pos i)) (exactRow x) = exactRow (ropeRow theta pos x) := by
  simp only [tableAngle_exact]
  exact rotate_exact _ _ x

theorem rope_exact (theta : ℝ) (x : Fin s → Fin n → Fin d → ℝ) :
    rope (theta : EReal) (exactHeads x) = exactHeads fun p head => ropeRow theta p (x p head) := by
  funext p head
  exact rotate_tableAngle theta p (x p head)

theorem ropeChunk_exact (theta : ℝ) (start : Nat) (x : Fin s → Fin n → Fin d → ℝ) :
    ropeChunk (theta : EReal) start (exactHeads x) = exactHeads fun p head => ropeRow theta (start + p) (x p head) := by
  funext p head
  unfold ropeChunk
  simp only [deviceAngle_exact]
  exact rotate_tableAngle theta (start + p) (x p head)

theorem ropeAt_exact (theta : ℝ) (pos : Nat) (x : Fin 1 → Fin n → Fin d → ℝ) :
    ropeAt (theta : EReal) pos (exactHeads x) = exactHeads fun p head => ropeRow theta pos (x p head) := by
  funext p head
  rw [Subsingleton.elim p 0]
  exact rotate_tableAngle theta pos (x 0 head)

end Kernels

end Dyninfer
