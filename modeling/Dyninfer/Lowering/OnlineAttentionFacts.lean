/-
The emitted page function is the merge of a page, row by row and dimension by
dimension. So folding it over pages and dividing is the softmax over the keys
that the row sees, in exact arithmetic.
-/
import Dyninfer.Lowering.OnlineAttention
import Mathlib.Algebra.BigOperators.Fin

namespace Dyninfer

open OnlineSoftmax

namespace OnlineAttention

variable {kvHeads gqaGroup queryLen headDim : Nat}

/-! ## Reductions -/

theorem foldl_add {n : Nat} (f : Fin n → EReal) : Fin.foldl n (fun acc i => acc + f i) 0 = ((List.finRange n).map f).sum := by
  rw [Fin.foldl_eq_finRange_foldl, List.sum_eq_foldl, List.foldl_map]

theorem foldl_add_left {n : Nat} (f : Fin n → EReal) :
    Fin.foldl n (fun acc i => f i + acc) 0 = ((List.finRange n).map f).sum := by
  rw [← foldl_add]
  simp only [add_comm]

theorem foldl_max {n : Nat} (f : Fin n → EReal) :
    Fin.foldl n (fun acc i => max (f i) acc) ⊥ = ((List.finRange n).map f).foldl max ⊥ := by
  rw [Fin.foldl_eq_finRange_foldl, List.foldl_map]
  simp only [max_comm]

theorem foldl_coe {n : Nat} (f : Fin n → ℝ) : Fin.foldl n (fun acc i => acc + (f i : EReal)) 0 = (∑ i, f i : ℝ) := by
  rw [foldl_add, ← List.ofFn_eq_map, List.sum_ofFn]
  exact (map_sum (⟨⟨Real.toEReal, EReal.coe_zero⟩, EReal.coe_add⟩ : ℝ →+ EReal) f _).symm

/-! ## One page -/

section page

variable (query : QueryTensor ℝ kvHeads gqaGroup queryLen headDim) (scale : ℝ)
  (page : KeyPage kvHeads gqaGroup queryLen headDim) (running : Running EReal kvHeads gqaGroup queryLen headDim)
  (kh : Fin kvHeads) (g : Fin gqaGroup) (q : Fin queryLen) (d : Fin headDim)

/-- The keys of a page for a query row. -/
noncomputable def entries : List Entry := (List.finRange page.pageSize).map fun p =>
  ⟨page.visible kh g q p, (score query scale page kh g q p, page.v kh p d)⟩

/-- A row of the running tensors, at a dimension. -/
def row : State := ⟨running.rowMax kh g q, running.rowSum kh g q, running.output kh g q d⟩

theorem visible_entries : visible (entries query scale page kh g q d) = keys query scale kh g q d page := by
  unfold visible entries keys
  rw [List.filter_map, List.map_map]
  rfl

theorem scores_exact (p : Fin page.pageSize) : scores (exactQuery query) scale page.exact kh g q p =
    Entry.score ⟨page.visible kh g q p, (score query scale page kh g q p, page.v kh p d)⟩ := by
  have hdots : dots (exactQuery query) page.exact kh g q p = (∑ i, query kh g q i * page.k kh p i : ℝ) := by
    rw [← foldl_coe]
    rfl
  unfold scores Entry.score score
  rw [hdots, ← EReal.coe_mul]
  show _ + (if page.visible kh g q p then 0 else ⊥) = _
  split
  · exact add_zero _
  · exact EReal.add_bot _

theorem pageMax_exact : pageMax (exactQuery query) scale page.exact kh g q =
    OnlineSoftmax.pageMax (entries query scale page kh g q d) := by
  unfold pageMax OnlineSoftmax.pageMax entries
  rw [List.map_map]
  refine (foldl_max _).trans ?_
  congr 1
  exact List.map_congr_left fun p _ => scores_exact query scale page kh g q d p

/-- **The emitted function merges the page into every row.** -/
theorem row_onlineAttentionPage : row (onlineAttentionPage (exactQuery query) scale page.exact running) kh g q d =
    merge (row running kh g q d) (entries query scale page kh g q d) := by
  have hmax : newMax (exactQuery query) scale page.exact running kh g q =
      max (running.rowMax kh g q) (OnlineSoftmax.pageMax (entries query scale page kh g q d)) := by
    unfold newMax
    rw [pageMax_exact]
  have hweights (p : Fin page.pageSize) : weights (exactQuery query) scale page.exact running kh g q p = OnlineSoftmax.exp
      (Entry.score ⟨page.visible kh g q p, (score query scale page kh g q p, page.v kh p d)⟩ -
        max (running.rowMax kh g q) (OnlineSoftmax.pageMax (entries query scale page kh g q d))) := by
    unfold weights
    rw [hmax, scores_exact]
    rfl
  have hscale : oldScale (exactQuery query) scale page.exact running kh g q = OnlineSoftmax.exp (running.rowMax kh g q -
      max (running.rowMax kh g q) (OnlineSoftmax.pageMax (entries query scale page kh g q d))) := by
    unfold oldScale
    rw [hmax]
    rfl
  have hsum : pageSum (exactQuery query) scale page.exact running kh g q =
      ((entries query scale page kh g q d).map fun e => OnlineSoftmax.exp (e.score -
        max (running.rowMax kh g q) (OnlineSoftmax.pageMax (entries query scale page kh g q d)))).sum := by
    unfold pageSum
    refine (foldl_add_left _).trans ?_
    unfold entries
    rw [List.map_map]
    congr 1
    exact List.map_congr_left fun p _ => hweights p
  have hout : pageOut (exactQuery query) scale page.exact running kh g q d =
      ((entries query scale page kh g q d).map fun e => OnlineSoftmax.exp (e.score -
        max (running.rowMax kh g q) (OnlineSoftmax.pageMax (entries query scale page kh g q d))) * e.key.2).sum := by
    unfold pageOut
    refine (foldl_add _).trans ?_
    unfold entries
    rw [List.map_map]
    congr 1
    refine List.map_congr_left fun p _ => ?_
    rw [hweights p]
    rfl
  unfold row merge
  simp only [State.mk.injEq]
  refine ⟨hmax, ?_, ?_⟩
  · rw [← hscale, ← hsum]
    rfl
  · rw [← hscale, ← hout]
    rfl

end page

/-! ## All pages -/

section pages

variable (query : QueryTensor ℝ kvHeads gqaGroup queryLen headDim) (scale : ℝ) (kh : Fin kvHeads) (g : Fin gqaGroup)
  (q : Fin queryLen) (d : Fin headDim)

theorem row_start : row (start : Running EReal kvHeads gqaGroup queryLen headDim) kh g q d = .start := rfl

/-- Every row of a walk merges its pages. -/
theorem row_walk (pages : List (KeyPage kvHeads gqaGroup queryLen headDim)) :
    row (walk (exactQuery query) scale (pages.map KeyPage.exact)) kh g q d =
      (pages.map fun page => entries query scale page kh g q d).foldl merge .start := by
  unfold walk
  rw [List.foldl_map, List.foldl_map, ← row_start kh g q d]
  generalize (start : Running EReal kvHeads gqaGroup queryLen headDim) = running
  induction pages generalizing running with
  | nil => rfl
  | cons page pages ih => rw [List.foldl_cons, ih, row_onlineAttentionPage, List.foldl_cons]

/-- A page of one key, with the value two. -/
noncomputable def samplePage (visible : Bool) : KeyPage 1 1 1 1 where
  pageSize := 1
  k := fun _ _ _ => 1
  v := fun _ _ _ => 2
  visible := fun _ _ _ _ => visible

/-- **Online page merge is the full softmax.** For every row whose first page has a key that it
sees, folding the emitted function over the pages and dividing by the sum gives the values of all
keys that the row sees, weighted by the softmax of their scores. The sum is not zero. -/
theorem online_merge_eq_softmax {first : KeyPage kvHeads gqaGroup queryLen headDim}
    {pages : List (KeyPage kvHeads gqaGroup queryLen headDim)} (h : ∃ p, first.visible kh g q p = true) :
    (walk (exactQuery query) (scale : EReal) ((first :: pages).map KeyPage.exact)).rowSum kh g q ≠ 0 ∧
      normalise (walk (exactQuery query) (scale : EReal) ((first :: pages).map KeyPage.exact)) kh g q d =
        (softmaxSum ((first :: pages).flatMap (keys query scale kh g q d)) : ℝ) := by
  have hwalk := row_walk query scale kh g q d (first :: pages)
  have hvisible : visible (entries query scale first kh g q d) ≠ [] := by
    obtain ⟨p, hp⟩ := h
    rw [visible_entries]
    unfold keys
    rw [Ne, List.map_eq_nil_iff]
    exact List.ne_nil_of_mem (List.mem_filter.mpr ⟨List.mem_finRange p, hp⟩)
  have hkeys : (first :: pages).flatMap (keys query scale kh g q d) =
      ((first :: pages).map fun page => entries query scale page kh g q d).flatMap visible := by
    rw [List.flatMap_map]
    simp only [visible_entries]
  have hmerge := @foldl_merge_eq_softmaxSum _ (pages.map fun page => entries query scale page kh g q d) hvisible
  have hcons : entries query scale first kh g q d :: pages.map (fun page => entries query scale page kh g q d) =
      (first :: pages).map fun page => entries query scale page kh g q d := rfl
  rw [hcons, ← hwalk, ← hkeys] at hmerge
  exact hmerge

/-- A row that sees the one key of its first page and none of the second. -/
theorem online_merge_eq_softmax_sample :
    (walk (exactQuery fun _ _ _ _ => 1) ((1 : ℝ) : EReal) ([samplePage true, samplePage false].map KeyPage.exact)).rowSum
      0 0 0 ≠ 0 ∧
    normalise (walk (exactQuery fun _ _ _ _ => 1) ((1 : ℝ) : EReal)
      ([samplePage true, samplePage false].map KeyPage.exact)) 0 0 0 0 = (2 : ℝ) := by
  have h := @online_merge_eq_softmax 1 1 1 1 (fun _ _ _ _ => 1) 1 0 0 0 0 (samplePage true) [samplePage false]
    ⟨⟨0, Nat.one_pos⟩, rfl⟩
  have hkeys : [samplePage true, samplePage false].flatMap (keys (fun _ _ _ _ => 1) 1 0 0 0 0) = [(1, 2)] := by
    simp [samplePage, keys, score, List.finRange]
  have hsoftmax : softmaxSum [(1, 2)] = 2 := by
    simp [softmaxSum, Real.exp_ne_zero]
  rw [hkeys, hsoftmax] at h
  exact h

end pages

end OnlineAttention

end Dyninfer
