/-
The online softmax, in exact arithmetic with minus infinity: keys come in
pages, and a row keeps a running maximum, the sum of the weights and the sum of
the weighted values, both relative to the maximum and rescaled when it grows. A
masked key has the score minus infinity and the weight zero. Dividing at the
end gives the softmax-weighted sum of the values of the keys that are not
masked, in whatever pages they came.
-/
import Mathlib.Analysis.SpecialFunctions.Log.ERealExp
import Mathlib.Data.EReal.Inv

namespace OnlineSoftmax

/-! ## Softmax -/

/-- A score and a value. -/
abbrev Key := ℝ × ℝ

/-- The weights relative to `m`, summed. -/
noncomputable def weightSum (m : ℝ) (keys : List Key) : ℝ := (keys.map fun key => Real.exp (key.1 - m)).sum

/-- The weighted values relative to `m`, summed. -/
noncomputable def valueSum (m : ℝ) (keys : List Key) : ℝ := (keys.map fun key => Real.exp (key.1 - m) * key.2).sum

/-- The values weighted by the softmax of the scores. -/
noncomputable def softmaxSum (keys : List Key) : ℝ :=
  (keys.map fun key => Real.exp key.1 / (keys.map fun key => Real.exp key.1).sum * key.2).sum

theorem exp_shift (s m n : ℝ) : Real.exp (s - m) * Real.exp (m - n) = Real.exp (s - n) := by
  rw [← Real.exp_add, sub_add_sub_cancel]

/-- The weights rescaled from one maximum to another. -/
theorem weightSum_shift (m n : ℝ) (keys : List Key) : weightSum m keys * Real.exp (m - n) = weightSum n keys := by
  unfold weightSum
  rw [← List.sum_map_mul_right]
  congr 1
  exact List.map_congr_left fun key _ => exp_shift key.1 m n

theorem valueSum_shift (m n : ℝ) (keys : List Key) : valueSum m keys * Real.exp (m - n) = valueSum n keys := by
  unfold valueSum
  rw [← List.sum_map_mul_right]
  congr 1
  refine List.map_congr_left fun key _ => ?_
  rw [mul_right_comm, exp_shift]

theorem weightSum_append (m : ℝ) (keys keys' : List Key) :
    weightSum m (keys ++ keys') = weightSum m keys + weightSum m keys' := by
  unfold weightSum
  rw [List.map_append, List.sum_append]

theorem valueSum_append (m : ℝ) (keys keys' : List Key) :
    valueSum m (keys ++ keys') = valueSum m keys + valueSum m keys' := by
  unfold valueSum
  rw [List.map_append, List.sum_append]

theorem weightSum_pos (m : ℝ) {keys : List Key} (h : keys ≠ []) : 0 < weightSum m keys := by
  refine List.sum_pos _ (fun w hw => ?_) (by simpa using h)
  obtain ⟨key, -, rfl⟩ := List.mem_map.mp hw
  exact Real.exp_pos _

/-- The maximum cancels. -/
theorem valueSum_div (m : ℝ) (keys : List Key) : valueSum m keys / weightSum m keys = softmaxSum keys := by
  have hne := Real.exp_ne_zero (m - 0)
  rw [← mul_div_mul_right _ _ hne, valueSum_shift, weightSum_shift]
  unfold valueSum weightSum softmaxSum
  simp only [sub_zero]
  rw [div_eq_mul_inv, ← List.sum_map_mul_right]
  congr 1
  refine List.map_congr_left fun key _ => ?_
  rw [mul_right_comm, ← div_eq_mul_inv]

/-! ## Exact arithmetic -/

/-- The exponential, zero at minus infinity. -/
noncomputable def exp (x : EReal) : EReal := (EReal.exp x : ENNReal)

@[simp] theorem exp_bot : exp ⊥ = 0 := by
  unfold exp
  rw [EReal.exp_bot, EReal.coe_ennreal_zero]

@[simp] theorem exp_coe (x : ℝ) : exp x = (Real.exp x : ℝ) := by
  unfold exp
  rw [EReal.exp_coe, EReal.coe_ennreal_ofReal, max_eq_left (Real.exp_pos x).le]

/-- A key of a page, which may be masked. -/
structure Entry where
  visible : Bool
  key : Key

/-- The score with the mask. -/
noncomputable def Entry.score (e : Entry) : EReal := if e.visible then (e.key.1 : EReal) else ⊥

/-- The keys of a page that are not masked. -/
def visible (page : List Entry) : List Key := (page.filter Entry.visible).map Entry.key

theorem visible_cons (e : Entry) (page : List Entry) :
    visible (e :: page) = (if e.visible then [e.key] else []) ++ visible page := by
  unfold visible
  rw [List.filter_cons]
  split <;> simp

theorem exp_score (e : Entry) (m : ℝ) :
    exp (e.score - m) = (weightSum m (if e.visible then [e.key] else []) : ℝ) := by
  unfold Entry.score weightSum
  cases e.visible with
  | true => simp [← EReal.coe_sub]
  | false => simp [EReal.bot_sub]

theorem exp_score_mul (e : Entry) (m : ℝ) :
    exp (e.score - m) * e.key.2 = (valueSum m (if e.visible then [e.key] else []) : ℝ) := by
  rw [exp_score, ← EReal.coe_mul]
  unfold weightSum valueSum
  cases e.visible <;> simp

/-- The weights of a page, summed with those of masked keys. -/
theorem sum_exp_score (m : ℝ) (page : List Entry) :
    (page.map fun e => exp (e.score - m)).sum = (weightSum m (visible page) : ℝ) := by
  induction page with
  | nil => rfl
  | cons e page ih =>
    rw [List.map_cons, List.sum_cons, ih, visible_cons, weightSum_append, EReal.coe_add, exp_score]

theorem sum_exp_score_mul (m : ℝ) (page : List Entry) :
    (page.map fun e => exp (e.score - m) * e.key.2).sum = (valueSum m (visible page) : ℝ) := by
  induction page with
  | nil => rfl
  | cons e page ih =>
    rw [List.map_cons, List.sum_cons, ih, visible_cons, valueSum_append, EReal.coe_add, exp_score_mul]

/-! ## Pages -/

/-- The maximum of a page's scores. -/
noncomputable def pageMax (page : List Entry) : EReal := (page.map Entry.score).foldl max ⊥

theorem score_lt_top (e : Entry) : e.score < ⊤ := by
  unfold Entry.score
  split
  · exact EReal.coe_lt_top _
  · exact bot_lt_top

theorem foldl_max_lt_top {scores : List EReal} (h : ∀ s ∈ scores, s < ⊤) : ∀ {acc : EReal}, acc < ⊤ →
    scores.foldl max acc < ⊤ := by
  induction scores with
  | nil => exact fun hacc => hacc
  | cons s scores ih =>
    intro acc hacc
    rw [List.forall_mem_cons] at h
    exact ih h.2 (max_lt hacc h.1)

theorem le_foldl_max {scores : List EReal} : ∀ {acc : EReal},
    acc ≤ scores.foldl max acc ∧ ∀ s ∈ scores, s ≤ scores.foldl max acc := by
  induction scores with
  | nil => exact ⟨le_rfl, fun s hs => absurd hs List.not_mem_nil⟩
  | cons s scores ih =>
    intro acc
    obtain ⟨hacc, hall⟩ := @ih (max acc s)
    refine ⟨(le_max_left acc s).trans hacc, fun t ht => ?_⟩
    rcases List.mem_cons.mp ht with rfl | hin
    · exact (le_max_right acc t).trans hacc
    · exact hall t hin

theorem pageMax_lt_top (page : List Entry) : pageMax page < ⊤ := by
  refine foldl_max_lt_top (fun s hs => ?_) bot_lt_top
  obtain ⟨e, -, rfl⟩ := List.mem_map.mp hs
  exact score_lt_top e

theorem bot_lt_pageMax {page : List Entry} (h : visible page ≠ []) : ⊥ < pageMax page := by
  obtain ⟨key, hkey⟩ := List.exists_mem_of_ne_nil _ h
  obtain ⟨e, he, rfl⟩ := List.mem_map.mp hkey
  obtain ⟨hin, hvisible⟩ := List.mem_filter.mp he
  have hscore : e.score = e.key.1 := if_pos hvisible
  have hle := (@le_foldl_max (page.map Entry.score) ⊥).2 e.score (List.mem_map_of_mem hin)
  rw [hscore] at hle
  exact (EReal.bot_lt_coe _).trans_le hle

/-- What a row keeps from page to page. -/
structure State where
  rowMax : EReal
  rowSum : EReal
  output : EReal

noncomputable def State.start : State := ⟨⊥, 0, 0⟩

/-- A page merged into a row. -/
noncomputable def merge (s : State) (page : List Entry) : State :=
  let newMax := max s.rowMax (pageMax page)
  { rowMax := newMax
    rowSum := s.rowSum * exp (s.rowMax - newMax) + (page.map fun e => exp (e.score - newMax)).sum
    output := s.output * exp (s.rowMax - newMax) + (page.map fun e => exp (e.score - newMax) * e.key.2).sum }

/-- The state of a row behind these keys: its sums are relative to a maximum that is a number. -/
inductive Running : List Key → State → Prop where
  | start : Running [] .start
  | keys {keys : List Key} (m : ℝ) : keys ≠ [] → Running keys ⟨m, weightSum m keys, valueSum m keys⟩

/-- A page is merged; it may be masked whole, but for the first. -/
theorem Running.merge {keys : List Key} {s : State} {page : List Entry} (h : Running keys s)
    (hvisible : keys ≠ [] ∨ visible page ≠ []) : Running (keys ++ visible page) (merge s page) := by
  unfold OnlineSoftmax.merge
  cases h with
  | start =>
    have hpage : visible page ≠ [] := hvisible.resolve_left fun h => h rfl
    obtain ⟨m, hmax⟩ : ∃ m : ℝ, max ⊥ (pageMax page) = m := by
      rw [bot_sup_eq]
      exact ⟨_, (EReal.coe_toReal (pageMax_lt_top page).ne (bot_lt_pageMax hpage).ne').symm⟩
    simp only [State.start, hmax, sum_exp_score, sum_exp_score_mul, EReal.bot_sub, exp_bot, zero_mul, zero_add,
      List.nil_append]
    exact .keys m hpage
  | keys m hkeys =>
    obtain ⟨n, hmax⟩ : ∃ n : ℝ, max (m : EReal) (pageMax page) = n := by
      have htop := max_lt (EReal.coe_lt_top m) (pageMax_lt_top page)
      have hbot := (EReal.bot_lt_coe m).trans_le (le_max_left (m : EReal) (pageMax page))
      exact ⟨_, (EReal.coe_toReal htop.ne hbot.ne').symm⟩
    simp only [hmax, sum_exp_score, sum_exp_score_mul, ← EReal.coe_sub, exp_coe, ← EReal.coe_mul, weightSum_shift,
      valueSum_shift, ← EReal.coe_add, ← weightSum_append, ← valueSum_append]
    exact .keys n (by simp [hkeys])

/-- Pages are merged, the first of them with a key that is not masked. -/
theorem Running.foldl {pages : List (List Entry)} : ∀ {keys : List Key} {s : State}, Running keys s → keys ≠ [] →
    Running (keys ++ pages.flatMap visible) (pages.foldl OnlineSoftmax.merge s) := by
  induction pages with
  | nil =>
    intro keys s h _
    rwa [List.flatMap_nil, List.append_nil]
  | cons page pages ih =>
    intro keys s h hkeys
    rw [List.flatMap_cons, ← List.append_assoc]
    exact ih (h.merge (.inl hkeys)) (by simp [hkeys])

/-- The state at the end, divided. -/
theorem Running.div {keys : List Key} {s : State} (h : Running keys s) (hkeys : keys ≠ []) :
    s.rowSum ≠ 0 ∧ s.output / s.rowSum = (softmaxSum keys : ℝ) := by
  cases h with
  | start => exact absurd rfl hkeys
  | keys m =>
    have hpos := weightSum_pos m hkeys
    refine ⟨fun h => hpos.ne' (EReal.coe_eq_zero.mp h), ?_⟩
    rw [← EReal.coe_div, valueSum_div]

/-- **Merging page by page is the softmax over all keys.** -/
theorem foldl_merge_eq_softmaxSum {first : List Entry} {pages : List (List Entry)} (h : visible first ≠ []) :
    ((first :: pages).foldl merge .start).rowSum ≠ 0 ∧
      ((first :: pages).foldl merge .start).output / ((first :: pages).foldl merge .start).rowSum =
        (softmaxSum ((first :: pages).flatMap visible) : ℝ) := by
  have hfirst := Running.start.merge (.inr h)
  rw [List.nil_append] at hfirst
  rw [List.foldl_cons, List.flatMap_cons]
  exact (hfirst.foldl h).div (by simp [h])

end OnlineSoftmax
