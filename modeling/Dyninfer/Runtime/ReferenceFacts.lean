/-
The forward pass on the host against the emitted functions, in exact
arithmetic: the sums and maxima of the one take their terms from the other
side, and its vectors are flat. So it gives the logits of `prefill` over the
whole window, and those of every run of the chunk functions over its tokens.
-/
import Dyninfer.Runtime.Reference
import Dyninfer.Lowering.DenseProgramFacts

namespace Dyninfer

open DenseLayer DenseProgram Kernels

namespace Reference

variable {batch rows inn out v i nh d s n : Nat}

/-- The literals, where scalars have minus infinity: the `-1.0e30` of a masked score is read as that. -/
noncomputable def exactLiterals (eps : EReal) : Literals EReal := ⟨eps, ⊥, ⊥⟩

/-! ## Flat vectors -/

theorem at2_mk {F : Type} (f : Fin rows → Fin n → F) : at2 (fun y => f y.divNat y.modNat) = f := by
  funext r k
  show f (Fin.mkDivMod r k).divNat (Fin.mkDivMod r k).modNat = f r k
  rw [Fin.divNat_mkDivMod, Fin.modNat_mkDivMod]

theorem foldl_swap (f : Fin n → EReal) :
    Fin.foldl n (fun acc k => acc + f k) 0 = Fin.foldl n (fun acc k => f k + acc) 0 := by simp only [add_comm]

theorem foldl_max_swap (f : Fin n → EReal) :
    Fin.foldl n (fun acc k => max acc (f k)) ⊥ = Fin.foldl n (fun acc k => max (f k) acc) ⊥ := by simp only [max_comm]

theorem foldl_cast {F : Type} {m : Nat} (h : m = n) (f : F → Fin n → F) (init : F) :
    Fin.foldl m (fun acc k => f acc (k.cast h)) init = Fin.foldl n f init := by
  subst h
  rfl

theorem at2_linear (x : Fin (batch * inn) → EReal) (w : Fin (out * inn) → EReal) :
    at2 (linear x w) = Kernels.linear (at2 x) (at2 w) :=
  at2_mk fun b o => Fin.foldl inn (fun acc k => acc + at2 x b k * at2 w o k) 0

theorem rmsnorm1d_eq (eps : EReal) (x w : Fin n → EReal) :
    rmsnorm1d (exactLiterals eps) x w = rmsNorm eps (fun _ : Fin 1 => x) w 0 := by
  unfold rmsnorm1d rmsNorm
  simp only [foldl_swap]
  rfl

theorem at2_rmsnorm2d (eps : EReal) (x : Fin (rows * n) → EReal) (w : Fin n → EReal) :
    at2 (rmsnorm2d (exactLiterals eps) x w) = rmsNorm eps (at2 x) w := by
  refine (at2_mk fun r => rmsnorm1d (exactLiterals eps) (at2 x r) w).trans (funext fun r => ?_)
  rw [rmsnorm1d_eq]
  rfl

theorem at2_silu (gate up : Fin (rows * n) → EReal) :
    at2 (fun y => silu (gate y) * up y) = siluMul (at2 gate) (at2 up) := rfl

/-! ## Attention -/

theorem softmaxRow_eq (eps : EReal) (row : Fin s → EReal) : softmaxRow (exactLiterals eps) row = softmax row := by
  unfold softmaxRow softmax exactLiterals
  simp only [foldl_swap, foldl_max_swap]
  rfl

/-- The heads, where K/V heads are as many. -/
theorem headCast : nh * 1 * d = nh * d := congrArg (· * d) (Nat.mul_one nh)

theorem cast_mkDivMod (head : Fin (nh * 1)) (t : Fin d) :
    (Fin.mkDivMod head t).cast headCast = Fin.mkDivMod head.divNat t := by
  refine Fin.ext ?_
  simp [Fin.mkDivMod, Fin.divNat]

theorem scores_eq (eps : EReal) (q k : Fin (s * (nh * d)) → EReal) (head : Fin (nh * 1)) (ii : Fin s) :
    scores (exactLiterals eps) q k head.divNat ii = fun (jj : Fin s) =>
      if (ii : Nat) < jj then MathFns.negMask else
        Fin.foldl d (fun acc t => acc + at2 q ii ((Fin.mkDivMod head t).cast headCast) * at2 k jj (Fin.mkDivMod head.divNat t)) 0 *
          scale EReal d := by
  funext jj
  unfold scores
  simp only [cast_mkDivMod]
  rfl

/-- The attention of the layer. -/
theorem attention_eq (eps : EReal) (w : Weights EReal v i nh d) (q k v : Fin (s * (nh * d)) → EReal) :
    (attn ⟨eps, none⟩ w.layer (fun p o => at2 q p (o.cast headCast)) (at2 k) (at2 v)).1 =
      fun p o => at2 (attention (exactLiterals eps) q k v) p (o.cast headCast) := by
  funext p o
  have hdiv : (o.cast headCast : Fin (nh * d)).divNat = o.divNat.divNat := by
    refine Fin.ext ?_
    simp [Fin.divNat]
  have hmod : (o.cast headCast : Fin (nh * d)).modNat = o.modNat := Fin.ext rfl
  have hctx := congrFun (congrFun (at2_mk fun (ii : Fin s) (oo : Fin (nh * d)) =>
    Fin.foldl s (fun acc j => acc + softmaxRow (exactLiterals eps) (scores (exactLiterals eps) q k oo.divNat ii) j *
      at2 v j (Fin.mkDivMod oo.divNat oo.modNat)) 0) p) (o.cast headCast)
  rw [hdiv, hmod] at hctx
  unfold attention
  rw [hctx, softmaxRow_eq, scores_eq]
  rfl

/-! ## The forward pass -/

variable (eps : EReal) (w : Weights EReal v i nh d)

/-- A projection from heads, as flat as they are. -/
theorem linear_heads (ctx : Fin s → Fin (nh * d) → EReal) (wo : Fin out → Fin (nh * d) → EReal) :
    Kernels.linear (fun p (o : Fin (nh * 1 * d)) => ctx p (o.cast headCast)) (fun o k => wo o (k.cast headCast)) =
      Kernels.linear ctx wo := by
  funext p o
  exact foldl_cast headCast (fun acc k => acc + ctx p k * wo o k) 0

/-- The hidden vector behind the layer, from the one before it and the context. -/
noncomputable def tail (hidden ctx : Fin (s * (nh * d)) → EReal) : Fin (s * (nh * d)) → EReal :=
  let o := linear ctx w.wo
  let h2 y := hidden y + o y
  let fn := rmsnorm2d (exactLiterals eps) h2 w.ffnNorm
  let gate := linear fn w.wgate
  let up := linear fn w.wup
  let ff y := silu (gate y) * up y
  let down := linear ff w.wdown
  fun y => h2 y + down y

theorem at2_tail (hidden ctx : Fin (s * (nh * d)) → EReal) :
    at2 (tail eps w hidden ctx) = layerTail ⟨eps, none⟩ w.layer (at2 hidden) fun p o => at2 ctx p (o.cast headCast) := by
  have hfn (h2 : Fin (s * (nh * d)) → EReal) := at2_rmsnorm2d eps h2 w.ffnNorm
  have hadd (x y : Fin (s * (nh * d)) → EReal) : at2 (fun z => x z + y z) = fun p k => at2 x p k + at2 y p k := rfl
  unfold tail layerTail Weights.layer
  simp only [linear_heads, hadd, at2_linear, at2_silu, hfn]

/-- The layer of the forward pass is the layer of `prefill`. -/
theorem prefillLayer_eq (n : Nat) (hidden : Fin (s * (nh * d)) → EReal) :
    (prefillLayer ⟨eps, none⟩ w.layer n (at2 hidden)).1 =
      at2 (tail eps w hidden (attention (exactLiterals eps) (linear (rmsnorm2d (exactLiterals eps) hidden w.attnNorm) w.wq)
        (linear (rmsnorm2d (exactLiterals eps) hidden w.attnNorm) w.wk)
        (linear (rmsnorm2d (exactLiterals eps) hidden w.attnNorm) w.wv))) := by
  rw [at2_tail, ← attention_eq, at2_linear, at2_linear, at2_linear, at2_rmsnorm2d]
  rfl

/-- The end of the forward pass is that of a window. -/
theorem lastLogits_eq (hidden : Fin ((s + 1) * (nh * d)) → EReal) (tile : Fin (s + 1) → Fin (nh * d) → EReal) :
    (fun o => linear (fun y : Fin (1 * (nh * d)) =>
        rmsnorm1d (exactLiterals eps) (at2 hidden (Fin.last s)) w.outNorm y.modNat) w.wout (Fin.mkDivMod ⟨0, Nat.one_pos⟩ o)) =
      lastLogits ⟨eps, none⟩ w.decoder tile (at2 hidden) (Fin.last s) := by
  have hrow := @at2_mk 1 (nh * d) _ fun _ => rmsNorm eps (fun _ : Fin 1 => at2 hidden (Fin.last s)) w.outNorm 0
  have hlinear := at2_linear (fun y : Fin (1 * (nh * d)) =>
    rmsNorm eps (fun _ : Fin 1 => at2 hidden (Fin.last s)) w.outNorm 0 y.modNat) w.wout
  rw [hrow] at hlinear
  rw [rmsnorm1d_eq]
  exact congrFun hlinear ⟨0, Nat.one_pos⟩

theorem forward_eq (tokens : Fin (s + 1) → Fin v) (tile : Fin (s + 1) → Fin (nh * d) → EReal)
    (globals : Nat → Fin n → KvRow EReal nh d) :
    forward (exactLiterals eps) w tokens =
      (prefillFn ⟨eps, none⟩ w.decoder ⟨s + 1, tokens, Fin.last s⟩ tile globals).1 := by
  have hembed := at2_mk fun (p : Fin (s + 1)) k => at2 w.emb (tokens p) k
  have hlayer := prefillLayer_eq eps w n fun y => at2 w.emb (tokens y.divNat) y.modNat
  rw [hembed] at hlayer
  have hlogits (out : Fin ((s + 1) * (nh * d)) → EReal)
      (hout : (prefillLayer ⟨eps, none⟩ w.layer n fun p => at2 w.emb (tokens p)).1 = at2 out) :=
    (lastLogits_eq eps w out tile).trans
      (congrArg (fun hidden => lastLogits ⟨eps, none⟩ w.decoder tile hidden (Fin.last s)) hout.symm)
  exact hlogits _ hlayer

noncomputable def Weights.exact (w : Weights ℝ v i nh d) : Weights EReal v i nh d where
  emb := exactRow w.emb
  attnNorm := exactRow w.attnNorm
  wq := exactRow w.wq
  wk := exactRow w.wk
  wv := exactRow w.wv
  wo := exactRow w.wo
  ffnNorm := exactRow w.ffnNorm
  wgate := exactRow w.wgate
  wup := exactRow w.wup
  wdown := exactRow w.wdown
  outNorm := exactRow w.outNorm
  wout := exactRow w.wout

/-- **The forward pass on the host agrees with the compiled model**, in exact arithmetic: for all weights and
tokens, it gives the logits of `prefill` over the whole padded window, and those of every run of the chunk
functions over its tokens. -/
theorem prefillLogits_agrees [NeZero v] (eps : ℝ) (w : Weights ℝ v i nh d) (tokens : List (Fin v)) {shape : PlaneShape}
    (hpage : 1 ≤ shape.page) {logits : Fin v → EReal} {planes : Nat → List (KvRow EReal nh d)}
    (hrun : ChunkRun ⟨eps, none⟩ w.decoder shape (List.ofFn (window (s + 1) tokens)) (some logits) planes)
    (tile : Fin (s + 1) → Fin (nh * d) → EReal) (globals : Nat → Fin n → KvRow EReal nh d) :
    prefillLogits (exactLiterals eps) s w.exact tokens =
        (prefillFn (DecoderSettings.mk eps none).exact w.decoder.exact ⟨s + 1, window (s + 1) tokens, Fin.last s⟩
          tile globals).1 ∧
      prefillLogits (exactLiterals eps) s w.exact tokens = logits := by
  have hforward {n : Nat} (tile : Fin (s + 1) → Fin (nh * d) → EReal) (globals : Nat → Fin n → KvRow EReal nh d) :
      prefillLogits (exactLiterals eps) s w.exact tokens =
        (prefillFn (DecoderSettings.mk eps none).exact w.decoder.exact ⟨s + 1, window (s + 1) tokens, Fin.last s⟩
          tile globals).1 := forward_eq eps w.exact (window (s + 1) tokens) tile globals
  refine ⟨hforward tile globals, ?_⟩
  -- The same tokens, by `prefill` on globals of zeros.
  obtain ⟨hlogits, -⟩ := @prefillFn_exact v (nh * d) nh 1 d i (s + 1) ⟨eps, none⟩ w.decoder
    ⟨s + 1, window (s + 1) tokens, Fin.last s⟩ (Nat.le_refl _) tile fun _ _ => zeroRow
  have hreal : ChunkCall.real ⟨s + 1, window (s + 1) tokens, Fin.last s⟩ = List.ofFn (window (s + 1) tokens) :=
    List.take_of_length_le (by rw [List.length_ofFn, Fin.val_last])
  rw [hreal, ← (hrun.recomputes hpage).1 logits rfl, ← hforward] at hlogits
  exact List.ofFn_injective hlogits

/-- Weights of two heads that grow with their place. -/
def rampWeights : Weights ℝ 3 2 2 1 :=
  ⟨fun y => y, fun y => y, fun y => y, fun y => y, fun y => y, fun y => y, fun y => y, fun y => y, fun y => y, fun y => y,
    fun y => y, fun y => y⟩

/-- Two tokens, then the zero that pads the window and one that pads the call. -/
def firstCall : DenseProgram.ChunkCall 3 := ⟨2, fun p => [2, 1][p], 1⟩

@[inherit_doc firstCall] def secondCall : DenseProgram.ChunkCall 3 := ⟨2, fun _ => 0, 0⟩

theorem prefillLogits_agrees_two_calls :
    prefillLogits (exactLiterals ((1 : ℝ) : EReal)) 2 rampWeights.exact [2, 1] =
      (chunkFn (DecoderSettings.mk (1 : ℝ) none).exact rampWeights.decoder.exact ⟨2, 2⟩ secondCall 2 0
        (chunkFn (DecoderSettings.mk (1 : ℝ) none).exact rampWeights.decoder.exact ⟨2, 2⟩ firstCall 0 0
          fun _ => (List.replicate 4 zeroRow).map KvRow.exact).2).1 :=
  (prefillLogits_agrees 1 rampWeights [2, 1] (by decide)
    (ChunkRun.call secondCall 0
      (.call firstCall 0 (.start (fun _ => List.replicate 4 zeroRow) fun _ => rfl) (by decide) (by decide))
      (by decide) (by decide))
    0 fun _ (_ : Fin 0) => zeroRow.exact).2

end Reference

end Dyninfer
