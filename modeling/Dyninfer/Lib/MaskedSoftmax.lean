/-
The softmax over a row of scores at once, in exact arithmetic with minus
infinity: what it gives a masked key is zero, so its weighted sum is that over
the keys that are not masked. Merging pages comes to the same.
-/
import Dyninfer.Lib.OnlineSoftmax

namespace OnlineSoftmax

/-- The values weighted by the softmax of the masked scores. -/
noncomputable def maskedSum (page : List Entry) : EReal :=
  (page.map fun e => exp (e.score - pageMax page) / (page.map fun e => exp (e.score - pageMax page)).sum * e.key.2).sum

theorem sum_map_coe {α : Type} (l : List α) (f : α → ℝ) : (l.map fun a => (f a : EReal)).sum = ((l.map f).sum : ℝ) := by
  induction l with
  | nil => rfl
  | cons a l ih => rw [List.map_cons, List.sum_cons, ih, List.map_cons, List.sum_cons, EReal.coe_add]

/-- **A softmax with a mask is the softmax over the keys that are not masked.** -/
theorem maskedSum_eq {page : List Entry} (h : visible page ≠ []) : maskedSum page = (softmaxSum (visible page) : ℝ) := by
  obtain ⟨m, hmax⟩ : ∃ m : ℝ, pageMax page = m :=
    ⟨_, (EReal.coe_toReal (pageMax_lt_top page).ne (bot_lt_pageMax h).ne').symm⟩
  have hterm (e : Entry) : exp (e.score - m) / (weightSum m (visible page) : EReal) * e.key.2 =
      (valueSum m (if e.visible then [e.key] else []) / weightSum m (visible page) : ℝ) := by
    rw [EReal.mul_div_right, exp_score_mul, EReal.coe_div]
  have hsum : (page.map fun e => valueSum m (if e.visible then [e.key] else [])).sum = valueSum m (visible page) := by
    rw [← EReal.coe_eq_coe_iff, ← sum_map_coe, ← sum_exp_score_mul]
    simp only [exp_score_mul]
  unfold maskedSum
  rw [hmax, sum_exp_score]
  simp only [hterm]
  rw [sum_map_coe]
  simp only [div_eq_mul_inv]
  rw [List.sum_map_mul_right, hsum, ← div_eq_mul_inv, valueSum_div]

/-- Pages are merged from the start, the first of them with a key that is not masked. -/
theorem Running.pages {pages : List (List Entry)} (h : ∀ page ∈ pages.head?, visible page ≠ []) :
    Running (pages.flatMap visible) (pages.foldl OnlineSoftmax.merge .start) := by
  cases pages with
  | nil => exact .start
  | cons first rest =>
    have hne : visible first ≠ [] := h first rfl
    have hfirst := Running.start.merge (.inr hne)
    rw [List.nil_append] at hfirst
    rw [List.foldl_cons, List.flatMap_cons]
    exact hfirst.foldl hne

end OnlineSoftmax
