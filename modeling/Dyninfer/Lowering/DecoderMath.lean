/-
A dense decoder in the real numbers, row by row: the graph that the emitted
programs are for. A layer normalises a hidden row, projects it to query heads
and to a K/V row, turns queries and keys by their position, attends to K/V rows
by the softmax of the scaled products, and applies the feed-forward block.
-/
import Dyninfer.Lowering.DenseLayer
import Mathlib.Analysis.SpecialFunctions.Pow.Real
import Mathlib.Analysis.SpecialFunctions.Trigonometric.Basic
import Mathlib.Data.Matrix.Mul

namespace Dyninfer

open OnlineSoftmax Kernels

/-- The weights of a decoder. -/
structure DecoderWeights (F : Type) (v h nkv g d i : Nat) where
  tokenEmbd : Fin v → Fin h → F
  layers : List (LayerWeights F h nkv g d i)
  outputNorm : Fin h → F
  output : Fin v → Fin h → F

namespace DecoderMath

variable {v h nkv g d i n : Nat} (c : DecoderSettings ℝ) (w : LayerWeights ℝ h nkv g d i)

noncomputable def rms (eps : ℝ) (x w : Fin n → ℝ) : Fin n → ℝ := fun k => x k / √((∑ j, x j ^ 2) / n + eps) * w k

/-- How far a pair is turned at a position. -/
noncomputable def angle (theta : ℝ) (d pos i : Nat) : ℝ := pos / theta ^ ((2 * i : ℕ) / d : ℝ)

noncomputable def ropeRow (theta : ℝ) (pos : Nat) (x : Fin d → ℝ) : Fin d → ℝ :=
  rotate (fun i => Real.cos (angle theta d pos i)) (fun i => Real.sin (angle theta d pos i)) x

/-- A head, normalised where heads are, and turned where there is RoPE. -/
noncomputable def turned (norm : Option (Fin d → ℝ)) (pos : Nat) (x : Fin d → ℝ) : Fin d → ℝ :=
  let normed := norm.elim x (rms c.rmsNormEps x)
  c.ropeTheta.elim normed fun theta => ropeRow theta pos normed

/-- The heads that a hidden row is projected to. -/
noncomputable def heads (weight : Fin (n * d) → Fin h → ℝ) (x : Fin h → ℝ) (head : Fin n) : Fin d → ℝ := fun dim =>
  Matrix.mulVec weight (rms c.rmsNormEps x w.attnNorm) (Fin.mkDivMod head dim)

/-- The queries of a K/V head are those of its group. -/
noncomputable def query (x : Fin h → ℝ) (pos : Nat) : Fin nkv → Fin g → Fin d → ℝ := fun kh gi =>
  turned c (w.qkNorm.map Prod.fst) pos (heads c w w.attnQ x (Fin.mkDivMod kh gi))

noncomputable def row (x : Fin h → ℝ) (pos : Nat) : KvRow ℝ nkv d where
  k := fun kh => turned c (w.qkNorm.map Prod.snd) pos (heads c w w.attnK x kh)
  v := heads c w w.attnV x

/-- The scaled product of a query and a key. -/
noncomputable def score (q k : Fin d → ℝ) : ℝ := q ⬝ᵥ k / √d

/-- Every query head attends to the K/V rows. -/
noncomputable def attend (q : Fin nkv → Fin g → Fin d → ℝ) (rows : List (KvRow ℝ nkv d)) :
    Fin nkv → Fin g → Fin d → ℝ := fun kh gi dim =>
  softmaxSum (rows.map fun r => (score (q kh gi) (r.k kh), r.v kh dim))

noncomputable def silu (x : ℝ) : ℝ := x / (1 + Real.exp (-x))

noncomputable def finish (x : Fin h → ℝ) (out : Fin nkv → Fin g → Fin d → ℝ) : Fin h → ℝ :=
  let h2 := x + Matrix.mulVec w.attnOutput fun o => out o.divNat.divNat o.divNat.modNat o.modNat
  let fn := rms c.rmsNormEps h2 w.ffnNorm
  h2 + Matrix.mulVec w.ffnDown fun k => silu (Matrix.mulVec w.ffnGate fn k) * Matrix.mulVec w.ffnUp fn k

/-- A layer, row by row. -/
noncomputable def layer : AttentionLayer (Fin h → ℝ) (Fin nkv → Fin g → Fin d → ℝ) (KvRow ℝ nkv d)
    (Fin nkv → Fin g → Fin d → ℝ) where
  query := query c w
  row := row c w
  attend := attend
  finish := finish c w

end DecoderMath

end Dyninfer
