/-
The emitted attention layers in exact arithmetic, with minus infinity for the
literals that stand for it: each of them is the layer of the decoder in the
reals, over the K/V rows that its masks leave. What the programs prepare is
compared row by row; attention is a softmax over masked scores, at once or page
by page.
-/
import Dyninfer.Lib.MaskedSoftmax
import Dyninfer.Lowering.RowKernelFacts
import Dyninfer.Lowering.StaticProgram

namespace Dyninfer

open DecoderMath Kernels OnlineSoftmax Rows

namespace DenseLayer

variable {s h nkv g d i n nh : Nat} (c : DecoderSettings ℝ) (w : LayerWeights ℝ h nkv g d i)

theorem scale_exact (d : Nat) : scale EReal d = (1 / √d : ℝ) := by
  rw [EReal.coe_div, EReal.coe_one]
  rfl

/-! ## What a layer prepares -/

/-- The heads of a projection. -/
theorem projection_exact (weight : Fin (n * d) → Fin h → ℝ) (hidden : Fin s → Fin h → ℝ) :
    expandShape (linear (rmsNorm c.exact.rmsNormEps (exactRows hidden) w.exact.attnNorm) (exactRows weight)) =
      exactHeads fun p => heads c w weight (hidden p) := by
  have hnorm := rmsNorm_exact c.rmsNormEps hidden w.attnNorm
  have hlinear := linear_exact (fun p => rms c.rmsNormEps (hidden p) w.attnNorm) weight
  rw [← hnorm] at hlinear
  exact congrArg expandShape hlinear

theorem headNorm_exact (norm : Option (Fin d → ℝ)) (x : Fin s → Fin n → Fin d → ℝ) :
    headNorm c.exact (norm.map exactRow) (exactHeads x) =
      exactHeads fun p head => norm.elim (x p head) (rms c.rmsNormEps (x p head)) := by
  cases norm with
  | none => rfl
  | some weight => exact rmsNormHeads_exact c.rmsNormEps x weight

/-- Heads are normalised, and turned by a helper that turns each row by its position. -/
theorem withRope_exact {helper : EReal → (Fin s → Fin n → Fin d → EReal) → Fin s → Fin n → Fin d → EReal}
    {pos : Fin s → Nat}
    (hhelper : ∀ (theta : ℝ) (x : Fin s → Fin n → Fin d → ℝ),
      helper theta (exactHeads x) = exactHeads fun p head => ropeRow theta (pos p) (x p head))
    (norm : Option (Fin d → ℝ)) (x : Fin s → Fin n → Fin d → ℝ) :
    withRope c.exact helper (headNorm c.exact (norm.map exactRow) (exactHeads x)) =
      exactHeads fun p head => turned c norm (pos p) (x p head) := by
  rw [headNorm_exact]
  unfold withRope turned DecoderSettings.exact
  cases c.ropeTheta with
  | none => rfl
  | some theta => exact hhelper theta _

theorem qkNorm_fst : w.exact.qkNorm.map Prod.fst = (w.qkNorm.map Prod.fst).map exactRow := by
  unfold LayerWeights.exact
  rw [Option.map_map, Option.map_map]
  rfl

theorem qkNorm_snd : w.exact.qkNorm.map Prod.snd = (w.qkNorm.map Prod.snd).map exactRow := by
  unfold LayerWeights.exact
  rw [Option.map_map, Option.map_map]
  rfl

/-- A query head by its index among all. -/
noncomputable def queryHead (x : Fin h → ℝ) (pos : Nat) (head : Fin (nkv * g)) : Fin d → ℝ :=
  turned c (w.qkNorm.map Prod.fst) pos (heads c w w.attnQ x head)

theorem query_eq (x : Fin h → ℝ) (pos : Nat) (head : Fin (nkv * g)) :
    query c w x pos head.divNat head.modNat = queryHead c w x pos head := by
  unfold query queryHead
  rw [Fin.divNat_mkDivMod_modNat]

theorem preparePagedAttention_exact (start : Nat) (q : Fin s → Fin (nkv * g) → Fin d → ℝ) (k v : Fin s → Fin nkv → Fin d → ℝ)
    {q' : Fin s → Fin (nkv * g * d) → EReal} {k' v' : Fin s → Fin (nkv * d) → EReal} (hq : expandShape q' = exactHeads q)
    (hk : expandShape k' = exactHeads k) (hv : expandShape v' = exactHeads v) :
    preparePagedAttention c.exact w.exact start q' k' v' =
      (OnlineAttention.exactQuery fun kh gi p => turned c (w.qkNorm.map Prod.fst) (start + p) (q p (Fin.mkDivMod kh gi)),
        exactHeads fun p kh => turned c (w.qkNorm.map Prod.snd) (start + p) (k p kh), exactHeads v) := by
  have hrope {n : Nat} (theta : ℝ) (x : Fin s → Fin n → Fin d → ℝ) := ropeChunk_exact theta start x
  unfold preparePagedAttention
  simp only [hq, hk, hv, qkNorm_fst, qkNorm_snd]
  rw [withRope_exact c hrope, withRope_exact c hrope]
  rfl

/-- `layer_prepare` makes the queries and the K/V rows of its hidden rows. -/
theorem layerPrepare_exact (start : Nat) (hidden : Fin s → Fin h → ℝ) :
    layerPrepare c.exact w.exact start (exactRows hidden) =
      (OnlineAttention.exactQuery fun kh gi p => query c w (hidden p) (start + p) kh gi,
        exactHeads fun p => (row c w (hidden p) (start + p)).k, exactHeads fun p => (row c w (hidden p) (start + p)).v) :=
  preparePagedAttention_exact c w start _ _ _ (projection_exact c w w.attnQ hidden) (projection_exact c w w.attnK hidden)
    (projection_exact c w w.attnV hidden)

theorem mapIdx_ofFn {α β : Type} (f : Fin n → α) (f' : Nat → α → β) :
    (List.ofFn f).mapIdx f' = List.ofFn fun p : Fin n => f' p (f p) :=
  List.ext_getElem (by simp) fun r _ _ => by simp

/-- The K/V rows of hidden rows. -/
noncomputable def rowsOf (start : Nat) (hidden : Fin s → Fin h → ℝ) : List (KvRow ℝ nkv d) :=
  List.ofFn fun p => row c w (hidden p) (start + p)

theorem rowsFrom_ofFn (start : Nat) (hidden : Fin s → Fin h → ℝ) :
    (layer c w).rowsFrom start (List.ofFn hidden) = rowsOf c w start hidden := mapIdx_ofFn _ _

/-! ## What follows the attention -/

theorem exactRows_add (x y : Fin s → Fin n → ℝ) :
    (fun p k => exactRows x p k + exactRows y p k) = exactRows fun p => x p + y p := by
  funext p k
  exact (EReal.coe_add _ _).symm

/-- The rest of a layer, given the attention of each row. -/
theorem layerTail_exact (hidden : Fin s → Fin h → ℝ) (out : Fin s → Fin nkv → Fin g → Fin d → ℝ) :
    layerTail c.exact w.exact (exactRows hidden) (exactRows fun p o => out p o.divNat.divNat o.divNat.modNat o.modNat) =
      exactRows fun p => finish c w (hidden p) (out p) := by
  have ho := linear_exact (fun p (o : Fin (nkv * g * d)) => out p o.divNat.divNat o.divNat.modNat o.modNat) w.attnOutput
  have hnorm (x : Fin s → Fin h → ℝ) := rmsNorm_exact c.rmsNormEps x w.ffnNorm
  unfold layerTail LayerWeights.exact DecoderSettings.exact
  simp only [ho, exactRows_add, hnorm, linear_exact, siluMul_exact]
  rfl

end DenseLayer

end Dyninfer
