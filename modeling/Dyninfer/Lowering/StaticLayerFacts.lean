/-
The layers of `prefill` and `decode` in exact arithmetic: a batch of heads
attends at once, through the causal mask or the host's bias, and both come to
the layer of the decoder in the reals. A query head finds the K/V head of its
group by the repetition of the K/V heads.
-/
import Dyninfer.Lowering.DenseLayerFacts

namespace Dyninfer

open DecoderMath Kernels OnlineSoftmax Rows

namespace DenseLayer

variable {s h nkv g d i n nh : Nat}

/-! ## A batch of heads -/

/-- A softmax over masked scores, with the values it weighs. -/
theorem softmax_exact (entry : Fin n → Entry) :
    Fin.foldl n (fun acc j => acc + softmax (fun j => (entry j).score) j * ((entry j).key.2 : EReal)) 0 =
      maskedSum ((List.finRange n).map entry) := by
  have hmax : Fin.foldl n (fun acc j => max (entry j).score acc) MathExp.neg = pageMax ((List.finRange n).map entry) := by
    unfold pageMax
    rw [List.map_map]
    exact OnlineAttention.foldl_max _
  unfold softmax maskedSum
  simp only [hmax, OnlineAttention.foldl_add, OnlineAttention.foldl_add_left, List.map_map]
  rfl

/-- A head of a batch attends to the keys that its row's mask leaves. -/
theorem batchAttention_exact {masked : Fin s → Fin n → EReal → EReal} {visible : Fin s → Fin n → Bool}
    (hmasked : ∀ p j (a : ℝ), masked p j a = if visible p j then (a : EReal) else ⊥) (q : Fin s → Fin nh → Fin d → ℝ)
    (k v : Fin n → Fin nh → Fin d → ℝ) (p : Fin s) (hvisible : ∃ j, visible p j = true) (head : Fin nh) (dim : Fin d) :
    batchAttention masked (exactHeads q) (exactHeads k) (exactHeads v) p head dim =
      (softmaxSum (((List.finRange n).filter (visible p)).map fun j => (score (q p head) (k j head), v j head dim)) : ℝ) := by
  let entry (j : Fin n) : Entry := ⟨visible p j, (score (q p head) (k j head), v j head dim)⟩
  have hscore (j : Fin n) : masked p j (Fin.foldl d (fun acc e => acc + exactHeads q p head e * exactHeads k j head e) 0 *
      scale EReal d) = (entry j).score := by
    have hdot : Fin.foldl d (fun acc e => acc + exactHeads q p head e * exactHeads k j head e) 0 =
        (q p head ⬝ᵥ k j head : ℝ) := by
      unfold dotProduct
      rw [← OnlineAttention.foldl_coe]
      simp only [EReal.coe_mul]
      rfl
    rw [hdot, scale_exact, ← EReal.coe_mul, mul_one_div, hmasked]
    rfl
  have hkeys : OnlineSoftmax.visible ((List.finRange n).map entry) =
      ((List.finRange n).filter (visible p)).map fun j => (score (q p head) (k j head), v j head dim) := by
    unfold OnlineSoftmax.visible
    rw [List.filter_map, List.map_map]
    rfl
  have hne : OnlineSoftmax.visible ((List.finRange n).map entry) ≠ [] := by
    obtain ⟨j, hj⟩ := hvisible
    rw [hkeys, Ne, List.map_eq_nil_iff]
    exact List.ne_nil_of_mem (List.mem_filter.mpr ⟨List.mem_finRange j, hj⟩)
  rw [← hkeys, ← maskedSum_eq hne, ← softmax_exact]
  unfold batchAttention
  simp only [hscore]
  rfl

/-- The heads of grouped queries attend to the rows that the mask leaves: those of a group to the rows of
its K/V head. -/
theorem batchAttention_attend (masked : Fin s → Fin n → EReal → EReal) (visible : Nat → Nat → Bool)
    (hmasked : ∀ p j (a : ℝ), masked p j a = if visible p j then (a : EReal) else ⊥)
    (q : Fin s → Fin nkv → Fin g → Fin d → ℝ) (rows : Fin n → KvRow ℝ nkv d)
    (hvisible : ∀ p : Fin s, ∃ j : Fin n, visible p j = true) :
    collapseShape (batchAttention masked (exactHeads fun p (head : Fin (nkv * g)) => q p head.divNat head.modNat)
        (repeatKv g (exactHeads fun j => (rows j).k)) (repeatKv g (exactHeads fun j => (rows j).v))) =
      exactRows fun p o => attend (q p) (keep (visible p) (List.ofFn rows)) o.divNat.divNat o.divNat.modNat o.modNat := by
  funext p o
  have hbatch := batchAttention_exact hmasked (fun p (head : Fin (nkv * g)) => q p head.divNat head.modNat)
    (fun j head => (rows j).k head.divNat) (fun j head => (rows j).v head.divNat) p (hvisible p) o.divNat o.modNat
  have hkept : ((keep (visible p) (List.ofFn rows)).map fun r =>
        (score (q p o.divNat.divNat o.divNat.modNat) (r.k o.divNat.divNat), r.v o.divNat.divNat o.modNat)) =
      ((List.finRange n).filter fun j : Fin n => visible p j).map fun j =>
        (score (q p o.divNat.divNat o.divNat.modNat) ((rows j).k o.divNat.divNat), (rows j).v o.divNat.divNat o.modNat) := by
    rw [keep_ofFn, List.map_map]
    rfl
  rw [← hkept] at hbatch
  exact hbatch

/-! ## `prefill` -/

variable (c : DecoderSettings ℝ) (w : LayerWeights ℝ h nkv g d i)

/-- The K/V row that fresh storage is filled with. -/
def zeroRow : KvRow ℝ nkv d := ⟨fun _ _ => 0, fun _ _ => 0⟩

theorem attn_exact (hidden : Fin s → Fin h → ℝ) {q' : Fin s → Fin (nkv * g * d) → EReal}
    {k' v' : Fin s → Fin (nkv * d) → EReal} (hq : expandShape q' = exactHeads fun p => heads c w w.attnQ (hidden p))
    (hk : expandShape k' = exactHeads fun p => heads c w w.attnK (hidden p))
    (hv : expandShape v' = exactHeads fun p => heads c w w.attnV (hidden p)) :
    attn c.exact w.exact q' k' v' =
      (exactRows fun p o => attend (query c w (hidden p) p) (windowAttended (rowsOf c w 0 hidden) p)
          o.divNat.divNat o.divNat.modNat o.modNat,
        exactHeads fun p => (row c w (hidden p) p).k, exactHeads fun p => (row c w (hidden p) p).v) := by
  have hrope {n : Nat} (theta : ℝ) (x : Fin s → Fin n → Fin d → ℝ) := rope_exact theta x
  have hmasked (ii jj : Fin s) (a : ℝ) : (if (ii : Nat) < jj then MathFns.negMask else (a : EReal)) =
      if (!decide ((ii : Nat) < jj)) = true then (a : EReal) else ⊥ := by
    by_cases hlt : (ii : Nat) < jj <;> simp [hlt, MathFns.negMask]
  have hattend := batchAttention_attend _ (fun ii jj => !decide (ii < jj)) hmasked
    (fun p => query c w (hidden p) p) (fun p => row c w (hidden p) p) fun p => ⟨p, by simp⟩
  have hrows : rowsOf c w 0 hidden = List.ofFn fun p => row c w (hidden p) p := by
    unfold rowsOf
    simp only [Nat.zero_add]
  simp only [query_eq] at hattend
  unfold attn
  simp only [hq, hk, hv, qkNorm_fst, qkNorm_snd]
  rw [withRope_exact c hrope, withRope_exact c hrope, hrows]
  exact Prod.ext hattend rfl

theorem kvNew_exact (rows : Fin s → KvRow ℝ nkv d) :
    kvNew n (exactHeads fun p => (rows p).k) (exactHeads fun p => (rows p).v) =
      fun j => (kvNew n (fun p => (rows p).k) (fun p => (rows p).v) j).exact := by
  funext j
  unfold kvNew
  split <;> rfl

/-- The rows that are stored, in front of zeros. -/
theorem kvNew_eq (rows : Fin s → KvRow ℝ nkv d) (hwindow : s ≤ n) :
    List.ofFn (kvNew n (fun p => (rows p).k) fun p => (rows p).v) =
      insertSlice (List.ofFn rows) (List.replicate n zeroRow) 0 := by
  have hroom : 0 + (List.ofFn rows).length ≤ (List.replicate n (zeroRow : KvRow ℝ nkv d)).length := by
    simpa using hwindow
  apply List.ext_getElem?
  intro j
  rw [getElem?_insertSlice hroom, List.getElem?_ofFn, List.getElem?_ofFn, List.length_ofFn, List.getElem?_replicate]
  by_cases hj : j < s
  · simp [hj, kvNew, show j < n by omega]
  · simp [hj, kvNew, zeroRow]

/-- A layer of `prefill`, given its attention. -/
theorem prefillLayer_of_attn {c : DecoderSettings EReal} {w : LayerWeights EReal h nkv g d i} {hidden xn : Fin s → Fin h → EReal}
    {ctx : Fin s → Fin (nkv * g * d) → EReal} {k v : Fin s → Fin nkv → Fin d → EReal}
    (hxn : rmsNorm c.rmsNormEps hidden w.attnNorm = xn)
    (hattn : attn c w (linear xn w.attnQ) (linear xn w.attnK) (linear xn w.attnV) = (ctx, k, v)) (n : Nat) :
    prefillLayer c w n hidden = (layerTail c w hidden ctx, kvNew n k v) := by
  subst hxn
  unfold prefillLayer
  dsimp only
  rw [hattn]

/-- **The layer of `prefill` is the layer of the decoder**, in exact arithmetic: for every window, padding
included, the hidden rows that leave it and the globals it stores. -/
theorem prefillLayer_refines (hwindow : s ≤ n) (hidden : Fin s → Fin h → ℝ) :
    List.ofFn (prefillLayer c.exact w.exact n (exactRows hidden)).1 =
        ((layer c w).prefillLayer zeroRow n (List.ofFn hidden)).1.map exactRow ∧
      List.ofFn (prefillLayer c.exact w.exact n (exactRows hidden)).2 =
        ((layer c w).prefillLayer zeroRow n (List.ofFn hidden)).2.map KvRow.exact := by
  have hprefill := prefillLayer_of_attn rfl (attn_exact c w hidden (projection_exact c w w.attnQ hidden)
    (projection_exact c w w.attnK hidden) (projection_exact c w w.attnV hidden)) n
  have htail := layerTail_exact c w hidden fun p => attend (query c w (hidden p) p) (windowAttended (rowsOf c w 0 hidden) p)
  have hlayer : (layer c w).prefillLayer zeroRow n (List.ofFn hidden) =
      (List.ofFn fun p => finish c w (hidden p) (attend (query c w (hidden p) p) (windowAttended (rowsOf c w 0 hidden) p)),
        List.ofFn (kvNew n (fun p => (row c w (hidden p) p).k) fun p => (row c w (hidden p) p).v)) := by
    rw [kvNew_eq (fun p => row c w (hidden p) p) hwindow]
    simp only [AttentionLayer.prefillLayer, rowsFrom_ofFn, mapIdx_ofFn, rowsOf, Nat.zero_add]
    rfl
  rw [hprefill, hlayer, htail, kvNew_exact fun p => row c w (hidden p) p, List.map_ofFn, List.map_ofFn]
  exact ⟨rfl, rfl⟩

/-! ## `decode` -/

/-- Logits in exact arithmetic. The bias `-1.0e7` of a masked key is read as minus infinity. -/
noncomputable instance : HostFloat EReal where
  gt x y := decide (y < x)
  negInfinity := ⊥
  zero := 0
  masked := ⊥
  masked_ne_zero := EReal.bot_ne_zero

theorem kvUpdateRow_eq (cache : Fin n → KvRow ℝ nkv d) (r : KvRow ℝ nkv d) (pos : Fin n) :
    List.ofFn (kvUpdateRow cache r pos) = insertSlice [r] (List.ofFn cache) pos := by
  have hroom : (pos : Nat) + [r].length ≤ (List.ofFn cache).length := by
    rw [List.length_ofFn]
    exact pos.isLt
  apply List.ext_getElem?
  intro j
  rw [getElem?_insertSlice hroom, List.getElem?_ofFn, List.getElem?_ofFn, List.length_singleton]
  by_cases hj : j = pos
  · simp [hj, kvUpdateRow]
  · rw [if_neg (by omega)]
    simp [hj, kvUpdateRow]

theorem kvUpdateRow_exact (cache : Fin n → KvRow ℝ nkv d) (r : KvRow ℝ nkv d) (pos : Nat) :
    kvUpdateRow (fun j => (cache j).exact) r.exact pos = fun j => (kvUpdateRow cache r pos j).exact := by
  funext j
  exact (apply_ite KvRow.exact _ _ _).symm

/-- The bias of the host: nothing, or minus infinity. -/
theorem add_bias {b : EReal} (hb : b = 0 ∨ b = ⊥) (a : ℝ) : (a : EReal) + b = if b = 0 then (a : EReal) else ⊥ := by
  rcases hb with rfl | rfl
  · rw [if_pos rfl, add_zero]
  · rw [if_neg EReal.bot_ne_zero, EReal.add_bot]

theorem attnDecode_exact {pos : Fin n} {bias : Fin n → EReal} (hbias : ∀ j, bias j = 0 ∨ bias j = ⊥) (hpos : bias pos = 0)
    (x : Fin h → ℝ) (cache : Fin n → KvRow ℝ nkv d) {q' : Fin 1 → Fin (nkv * g * d) → EReal}
    {k' v' : Fin 1 → Fin nkv → Fin d → EReal} (hq : expandShape q' = exactHeads fun _ => heads c w w.attnQ x)
    (hk : k' = exactHeads fun _ => heads c w w.attnK x) (hv : v' = exactHeads fun _ => heads c w w.attnV x) :
    attnDecode c.exact w.exact q' (fun j => (cache j).exact) k' v' pos bias =
      (exactRows fun _ o => attend (query c w x pos)
          (biasAttended (List.ofFn bias) (List.ofFn (kvUpdateRow cache (row c w x pos) pos)))
          o.divNat.divNat o.divNat.modNat o.modNat,
        fun j => (kvUpdateRow cache (row c w x pos) pos j).exact) := by
  have hrope {n : Nat} (theta : ℝ) (x : Fin 1 → Fin n → Fin d → ℝ) := ropeAt_exact theta pos x
  have hvisible (j : Fin n) : ((List.ofFn bias)[(j : Nat)]? == some 0) = true ↔ bias j = 0 := by
    rw [List.getElem?_ofFn, dif_pos j.isLt, beq_iff_eq, Option.some_inj]
  have hmasked (p : Fin 1) (j : Fin n) (a : ℝ) : (a : EReal) + bias j =
      if ((List.ofFn bias)[(j : Nat)]? == some 0) = true then (a : EReal) else ⊥ :=
    (add_bias (hbias j) a).trans (if_congr (hvisible j).symm rfl rfl)
  have hattend := batchAttention_attend (fun (_ : Fin 1) j a => a + bias j) (fun _ j => (List.ofFn bias)[j]? == some 0)
    hmasked (fun _ => query c w x pos) (kvUpdateRow cache (row c w x pos) pos) fun _ => ⟨pos, (hvisible pos).mpr hpos⟩
  have hnew : KvRow.mk (exactHeads (fun (_ : Fin 1) kh => turned c (w.qkNorm.map Prod.snd) pos (heads c w w.attnK x kh))
      ⟨0, Nat.one_pos⟩) (exactHeads (fun (_ : Fin 1) => heads c w w.attnV x) ⟨0, Nat.one_pos⟩) = (row c w x pos).exact := rfl
  simp only [query_eq] at hattend
  unfold attnDecode
  dsimp only
  rw [hq, hk, hv, qkNorm_fst, qkNorm_snd, withRope_exact c hrope, withRope_exact c hrope, hnew, kvUpdateRow_exact]
  exact Prod.ext hattend rfl

/-- A layer of `decode`, given its attention. -/
theorem decodeLayer_of_attnDecode {c : DecoderSettings EReal} {w : LayerWeights EReal h nkv g d i}
    {hidden xn : Fin 1 → Fin h → EReal} {pos : Nat} {bias : Fin n → EReal} {cache cache' : Fin n → KvRow EReal nkv d}
    {ctx : Fin 1 → Fin (nkv * g * d) → EReal} (hxn : rmsNorm c.rmsNormEps hidden w.attnNorm = xn)
    (hattn : attnDecode c w (linear xn w.attnQ) cache (expandShape (linear xn w.attnK)) (expandShape (linear xn w.attnV))
      pos bias = (ctx, cache')) :
    decodeLayer c w pos bias hidden cache = (layerTail c w hidden ctx, cache') := by
  subst hxn
  unfold decodeLayer
  dsimp only
  rw [hattn]

/-- **The layer of `decode` is the layer of the decoder**, in exact arithmetic, for every cache and every bias
of the host's values that leaves the position itself: the hidden row that leaves it, and the globals. -/
theorem decodeLayer_refines {pos : Fin n} {bias : Fin n → EReal} (hbias : ∀ j, bias j = 0 ∨ bias j = ⊥) (hpos : bias pos = 0)
    (x : Fin h → ℝ) (cache : Fin n → KvRow ℝ nkv d) :
    (decodeLayer c.exact w.exact pos bias (exactRows fun _ => x) fun j => (cache j).exact).1 0 =
        exactRow ((layer c w).decodeLayer pos (List.ofFn bias) x (List.ofFn cache)).1 ∧
      List.ofFn (decodeLayer c.exact w.exact pos bias (exactRows fun _ => x) fun j => (cache j).exact).2 =
        ((layer c w).decodeLayer pos (List.ofFn bias) x (List.ofFn cache)).2.map KvRow.exact := by
  have hdecode := decodeLayer_of_attnDecode rfl (attnDecode_exact c w hbias hpos x cache
    (projection_exact c w w.attnQ fun _ => x) (projection_exact c w w.attnK fun _ => x) (projection_exact c w w.attnV fun _ => x))
  have htail := layerTail_exact c w (fun (_ : Fin 1) => x) fun _ => attend (query c w x pos)
    (biasAttended (List.ofFn bias) (List.ofFn (kvUpdateRow cache (row c w x pos) pos)))
  have hlayer : (layer c w).decodeLayer pos (List.ofFn bias) x (List.ofFn cache) =
      (finish c w x (attend (query c w x pos)
          (biasAttended (List.ofFn bias) (List.ofFn (kvUpdateRow cache (row c w x pos) pos)))),
        List.ofFn (kvUpdateRow cache (row c w x pos) pos)) := by
    rw [kvUpdateRow_eq]
    rfl
  rw [hdecode, hlayer, htail, List.map_ofFn]
  exact ⟨rfl, rfl⟩

end DenseLayer

end Dyninfer
