/-
RoPE turns the pairs of a head by angles that grow with the position. Products
of a query and a key then depend on how far apart their positions are, and so
does attention: a layer gives the same when all positions are moved.
-/
import Dyninfer.Lowering.DenseProgramFacts

namespace Dyninfer

open DecoderMath Kernels Rows

namespace DecoderMath

variable {h nkv g d i m n n' : Nat}

/-! ## Pairs -/

theorem half (m : Nat) : (m + m) / 2 = m := by omega

theorem pair_castAdd (j : Fin m) : pair (Fin.castAdd m j) = Fin.castAdd m j := by
  refine Fin.ext ?_
  show (j : Nat) % ((m + m) / 2) = j
  rw [half, Nat.mod_eq_of_lt j.isLt]

theorem pair_natAdd (j : Fin m) : pair (Fin.natAdd m j) = Fin.castAdd m j := by
  refine Fin.ext ?_
  show (m + j) % ((m + m) / 2) = j
  rw [half, Nat.add_mod_left, Nat.mod_eq_of_lt j.isLt]

theorem pairHi_eq (dim : Fin (m + m)) : (pairHi dim : Nat) = pair dim + m := by
  show dim % ((m + m) / 2) + (m + m) / 2 = dim % ((m + m) / 2) + m
  rw [half]

theorem pairHi_castAdd (j : Fin m) : pairHi (Fin.castAdd m j) = Fin.natAdd m j := by
  refine Fin.ext ?_
  rw [pairHi_eq, pair_castAdd]
  exact Nat.add_comm _ _

theorem pairHi_natAdd (j : Fin m) : pairHi (Fin.natAdd m j) = Fin.natAdd m j := by
  refine Fin.ext ?_
  rw [pairHi_eq, pair_natAdd]
  exact Nat.add_comm _ _

variable (c s c' s' : Nat → ℝ) (x y : Fin (m + m) → ℝ)

theorem rotate_low (j : Fin m) :
    rotate c s x (Fin.castAdd m j) = x (Fin.castAdd m j) * c j - x (Fin.natAdd m j) * s j := by
  have hlt : ((Fin.castAdd m j : Fin (m + m)) : Nat) < (m + m) / 2 := by
    rw [half]
    exact j.isLt
  unfold rotate
  dsimp only
  rw [if_pos hlt, pair_castAdd, pairHi_castAdd]
  rfl

theorem rotate_high (j : Fin m) :
    rotate c s x (Fin.natAdd m j) = x (Fin.castAdd m j) * s j + x (Fin.natAdd m j) * c j := by
  have hge : ¬ ((Fin.natAdd m j : Fin (m + m)) : Nat) < (m + m) / 2 := by
    rw [half, Fin.val_natAdd]
    omega
  unfold rotate
  dsimp only
  rw [if_neg hge, pair_natAdd, pairHi_natAdd]
  rfl

/-- The product of two heads that were turned: pair by pair, by the cosine and the sine of the difference. -/
theorem rotate_dotProduct : rotate c s x ⬝ᵥ rotate c' s' y =
    ∑ j : Fin m, ((x (Fin.castAdd m j) * y (Fin.castAdd m j) + x (Fin.natAdd m j) * y (Fin.natAdd m j)) *
        (c j * c' j + s j * s' j) +
      (x (Fin.castAdd m j) * y (Fin.natAdd m j) - x (Fin.natAdd m j) * y (Fin.castAdd m j)) *
        (s j * c' j - c j * s' j)) := by
  unfold dotProduct
  rw [Fin.sum_univ_add, ← Finset.sum_add_distrib]
  refine Finset.sum_congr rfl fun j _ => ?_
  rw [rotate_low, rotate_low, rotate_high, rotate_high]
  ring

/-! ## Moving all positions -/

theorem angle_sub (theta : ℝ) (d pos pos' t j : Nat) :
    angle theta d (pos + t) j - angle theta d (pos' + t) j = angle theta d pos j - angle theta d pos' j := by
  unfold angle
  push_cast
  ring

/-- A product of turned heads depends on the distance of their positions. -/
theorem ropeRow_dotProduct (hd : d % 2 = 0) (theta : ℝ) (pos pos' t : Nat) (q k : Fin d → ℝ) :
    ropeRow theta (pos + t) q ⬝ᵥ ropeRow theta (pos' + t) k = ropeRow theta pos q ⬝ᵥ ropeRow theta pos' k := by
  obtain ⟨m, rfl⟩ : ∃ m, d = m + m := ⟨d / 2, by omega⟩
  unfold ropeRow
  rw [rotate_dotProduct, rotate_dotProduct]
  simp only [← Real.cos_sub, ← Real.sin_sub, angle_sub]

variable (settings : DecoderSettings ℝ) (w : LayerWeights ℝ h nkv g d i)

theorem turned_score (hd : d % 2 = 0) (norm norm' : Option (Fin d → ℝ)) (pos pos' t : Nat) (q k : Fin d → ℝ) :
    score (turned settings norm (pos + t) q) (turned settings norm' (pos' + t) k) =
      score (turned settings norm pos q) (turned settings norm' pos' k) := by
  unfold score turned
  cases settings.ropeTheta with
  | none => rfl
  | some theta => exact congrArg (· / √d) (ropeRow_dotProduct hd theta pos pos' t _ _)

/-- Attention depends on the distances of the positions alone. -/
theorem attend_shift (hd : d % 2 = 0) (x : Fin h → ℝ) (pos t : Nat) (past : List ((Fin h → ℝ) × Nat)) :
    attend (query settings w x (pos + t)) (past.map fun y => row settings w y.1 (y.2 + t)) =
      attend (query settings w x pos) (past.map fun y => row settings w y.1 y.2) := by
  funext kh gi dim
  unfold attend
  rw [List.map_map, List.map_map]
  refine congrArg OnlineSoftmax.softmaxSum (List.map_congr_left fun y _ => Prod.ext ?_ rfl)
  exact turned_score settings hd _ _ pos y.2 t _ _

end DecoderMath

namespace DenseProgram

variable {h nkv g d i n n' : Nat} (c : DecoderSettings ℝ) (w : LayerWeights ℝ h nkv g d i)

/-- The rows that a decode sees behind the rows of `ys`, from a place on in its cache. -/
theorem seen_rows {bias : Fin n → EReal} {cache : Fin n → KvRow ℝ nkv d} {start : Nat} {ys : List (Fin h → ℝ)} (x : Fin h → ℝ)
    (hroom : start + ys.length < n) (hbias : ∀ j : Fin n, bias j = 0 ↔ start ≤ j ∧ j ≤ start + ys.length)
    (hcache : ((List.ofFn cache).drop start).take ys.length = (layer c w).rowsFrom start ys) :
    biasAttended (List.ofFn bias)
        (insertSlice [row c w x (start + ys.length)] (List.ofFn cache) (start + ys.length)) =
      ((ys.mapIdx fun j y => (y, j)) ++ [(x, ys.length)]).map fun y => row c w y.1 (y.2 + start) := by
  have hlen : (List.ofFn cache).length = n := List.length_ofFn
  have hstored : start + ys.length + [row c w x (start + ys.length)].length ≤ (List.ofFn cache).length := by
    rw [hlen, List.length_singleton]
    omega
  have hvisible (j : Nat) (hj : j < n) :
      ((List.ofFn bias)[j]? == some HostFloat.zero) = decide (start ≤ j ∧ j ≤ start + ys.length) := by
    rw [List.getElem?_ofFn, dif_pos hj, ← decide_eq_decide.mpr (hbias ⟨j, hj⟩)]
    exact (Option.some_beq_some).trans (beq_eq_decide _ _)
  have hdropped : ((List.ofFn cache).drop start).length = n - start := by rw [List.length_drop, hlen]
  -- The rows of the cache from the place on, and the new one.
  have htake : (insertSlice [row c w x (start + ys.length)] ((List.ofFn cache).drop start) ys.length).take (ys.length + 1) =
      (layer c w).rowsFrom start ys ++ [row c w x (start + ys.length)] := by
    have hpast : (((List.ofFn cache).drop start).take ys.length).length = ys.length := by
      rw [List.length_take, hdropped]
      omega
    rw [insertSlice, List.take_append_of_le_length (by simp [hpast]), List.take_of_length_le (by simp [hpast]), hcache]
  have hrows : ((ys.mapIdx fun j y => (y, j)) ++ [(x, ys.length)]).map (fun y => row c w y.1 (y.2 + start)) =
      (layer c w).rowsFrom start ys ++ [row c w x (start + ys.length)] := by
    have hpast : (ys.mapIdx fun j y => (y, j)).map (fun y => row c w y.1 (y.2 + start)) = (layer c w).rowsFrom start ys :=
      List.ext_getElem (by simp) fun j _ _ => by simp [AttentionLayer.rowsFrom, layer, Nat.add_comm]
    rw [List.map_append, hpast, Nat.add_comm start]
    rfl
  have hhidden : ∀ j < start, ((List.ofFn bias)[j]? == some HostFloat.zero) = false := by
    intro j hj
    rw [hvisible j (by omega)]
    exact decide_eq_false (by omega)
  unfold biasAttended
  rw [keep_drop hhidden, drop_insertSlice (by rw [hlen]; omega), hrows, ← htake]
  refine keep_lt _ fun j hj => ?_
  rw [length_insertSlice (by rw [hdropped, List.length_singleton]; omega), hdropped] at hj
  rw [hvisible (j + start) (by omega)]
  exact decide_eq_decide.mpr (by omega)

theorem hostBias_eq_zero {pos : Nat} {j : Fin n} : hostBias EReal pos n j = 0 ↔ j ≤ pos := by
  unfold hostBias
  by_cases hj : pos < j
  · rw [if_pos hj]
    exact ⟨fun h => absurd h HostFloat.masked_ne_zero, fun h => absurd h (by omega)⟩
  · rw [if_neg hj]
    exact ⟨fun _ => by omega, fun _ => rfl⟩

/-- **Only distances of positions count.** In exact arithmetic, `decode` makes of a hidden row the same behind any
number of hidden positions: with the rows before it turned for later positions and kept further on in the cache, the
bias hiding what is in front of them, as at the start of the cache. -/
theorem decodeLayer_shift (hd : d % 2 = 0) (x : Fin h → ℝ) {ys : List (Fin h → ℝ)} {cache : Fin n → KvRow ℝ nkv d}
    (hroom : ys.length < n) (hcache : (List.ofFn cache).take ys.length = (layer c w).rowsFrom 0 ys) {t : Nat}
    {cache' : Fin n' → KvRow ℝ nkv d} (hroom' : t + ys.length < n')
    (hcache' : ((List.ofFn cache').drop t).take ys.length = (layer c w).rowsFrom t ys) :
    (DenseLayer.decodeLayer c.exact w.exact (t + ys.length)
        (fun j : Fin n' => if t ≤ j ∧ (j : Nat) ≤ t + ys.length then 0 else ⊥) (exactRows fun _ => x) fun j => (cache' j).exact).1 =
      (DenseLayer.decodeLayer c.exact w.exact ys.length (hostBias EReal ys.length n) (exactRows fun _ => x)
        fun j => (cache j).exact).1 := by
  have hself : hostBias EReal ys.length n ⟨ys.length, hroom⟩ = 0 := if_neg (Nat.lt_irrefl _)
  have hself' : (if t ≤ t + ys.length ∧ t + ys.length ≤ t + ys.length then (0 : EReal) else ⊥) = 0 :=
    if_pos ⟨Nat.le_add_right _ _, Nat.le_refl _⟩
  have hcases (j : Fin n') : (if t ≤ j ∧ (j : Nat) ≤ t + ys.length then (0 : EReal) else ⊥) = 0 ∨
      (if t ≤ j ∧ (j : Nat) ≤ t + ys.length then (0 : EReal) else ⊥) = ⊥ := by
    split
    · exact .inl rfl
    · exact .inr rfl
  have hseen := @seen_rows h nkv g d i n c w (hostBias EReal ys.length n) cache 0 ys x (by rwa [Nat.zero_add])
    (fun j => by rw [hostBias_eq_zero]; omega) hcache
  have hseen' := @seen_rows h nkv g d i n' c w (fun j : Fin n' => if t ≤ j ∧ (j : Nat) ≤ t + ys.length then 0 else ⊥) cache' t ys x
    hroom' (fun j => by by_cases hj : t ≤ j ∧ (j : Nat) ≤ t + ys.length <;> simp [hj]) hcache'
  have hlayer := (DenseLayer.decodeLayer_refines c w (hostBias_cases ys.length) hself x cache).1
  have hlayer' := (@DenseLayer.decodeLayer_refines h nkv g d i n' c w ⟨t + ys.length, hroom'⟩
    (fun j : Fin n' => if t ≤ j ∧ (j : Nat) ≤ t + ys.length then 0 else ⊥) hcases hself' x cache').1
  have hattend := attend_shift c w hd x ys.length t ((ys.mapIdx fun j y => (y, j)) ++ [(x, ys.length)])
  simp only [Nat.zero_add, Nat.add_zero] at hseen
  rw [← hseen', ← hseen, Nat.add_comm ys.length] at hattend
  funext p
  rw [Subsingleton.elim p 0]
  exact hlayer'.trans (Eq.trans (congrArg (fun out => exactRow (finish c w x out)) hattend) hlayer.symm)

/-- A layer with two heads of a pair each, its projections growing with their place. -/
def pairLayer : LayerWeights ℝ 2 2 1 2 1 :=
  ⟨1, fun o k => o + k, fun o k => o + k, fun o k => o + k, none, fun o k => o + k, 1, 1, 1, 1⟩

/-- The rows of two tokens moved up by so many positions, and of nothing that is seen. -/
noncomputable def pairRow (t : Nat) : Nat → KvRow ℝ 2 2
  | 0 => row ⟨1, some 1⟩ pairLayer (fun k => k) t
  | _ => row ⟨1, some 1⟩ pairLayer 1 (t + 1)

theorem decodeLayer_shift_two :
    (DenseLayer.decodeLayer (DecoderSettings.mk (1 : ℝ) (some 1)).exact pairLayer.exact 5
        (fun j : Fin 6 => if 3 ≤ (j : Nat) ∧ (j : Nat) ≤ 5 then 0 else ⊥) (exactRows fun _ => fun k => 1 - k)
        fun j => (pairRow 3 (j - 3)).exact).1 =
      (DenseLayer.decodeLayer (DecoderSettings.mk (1 : ℝ) (some 1)).exact pairLayer.exact 2 (hostBias EReal 2 3)
        (exactRows fun _ => fun k => 1 - k) fun j => (pairRow 0 j).exact).1 :=
  @decodeLayer_shift 2 2 1 2 1 3 6 ⟨1, some 1⟩ pairLayer rfl (fun k => 1 - k) [fun k => k, 1] (fun j => pairRow 0 j)
    (by decide) rfl 3 (fun j => pairRow 3 (j - 3)) (by decide) rfl

end DenseProgram

end Dyninfer
