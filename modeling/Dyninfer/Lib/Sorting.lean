/-
A stable sort by a key keeps the order of the items of each key; the first item
after sorting by a total preorder is related to all.
-/
import Mathlib.Algebra.Order.Ring.Int
import Mathlib.Data.List.Nodup
import Mathlib.Data.List.Sort

namespace Sorting

variable {α κ : Type} [LinearOrder κ]

/-- Sorting by a key. -/
def sortByKey (key : α → κ) (xs : List α) : List α := xs.mergeSort fun a b => decide (key a ≤ key b)

theorem perm_sortByKey (key : α → κ) (xs : List α) : (sortByKey key xs).Perm xs := List.mergeSort_perm xs _

section order

variable {key : α → κ}

theorem le_trans_key (a b c : α) (hab : decide (key a ≤ key b) = true) (hbc : decide (key b ≤ key c) = true) :
    decide (key a ≤ key c) = true :=
  decide_eq_true (le_trans (of_decide_eq_true hab) (of_decide_eq_true hbc))

theorem le_total_key (a b : α) : (decide (key a ≤ key b) || decide (key b ≤ key a)) = true := by
  simpa only [Bool.or_eq_true, decide_eq_true_eq] using le_total (key a) (key b)

theorem pairwise_sortByKey (xs : List α) : (sortByKey key xs).Pairwise fun a b => key a ≤ key b := by
  have h : (sortByKey key xs).Pairwise fun a b => decide (key a ≤ key b) = true :=
    List.pairwise_mergeSort le_trans_key le_total_key xs
  simpa only [decide_eq_true_eq] using h

/-- Two items that are in order stay in order. -/
theorem pair_sublist_sortByKey {xs : List α} {a b : α} (hab : key a ≤ key b) (h : List.Sublist [a, b] xs) :
    List.Sublist [a, b] (sortByKey key xs) :=
  List.pair_sublist_mergeSort le_trans_key le_total_key (decide_eq_true hab) h

/-- The first item after sorting has the least key. -/
theorem head?_sortByKey {xs : List α} {x : α} (h : (sortByKey key xs).head? = some x) :
    x ∈ xs ∧ ∀ y ∈ xs, key x ≤ key y := by
  obtain ⟨rest, hsorted⟩ := List.head?_eq_some_iff.mp h
  have hpairwise := (pairwise_sortByKey xs : (sortByKey key xs).Pairwise fun a b => key a ≤ key b)
  have hperm := perm_sortByKey key xs
  rw [hsorted] at hpairwise hperm
  refine ⟨hperm.mem_iff.mp List.mem_cons_self, fun y hy => ?_⟩
  rcases List.mem_cons.mp (hperm.mem_iff.mpr hy) with heq | hrest
  · exact heq ▸ le_rfl
  · exact List.rel_of_pairwise_cons hpairwise hrest

end order

/-- Items that are in order stay as they are. -/
theorem filter_sortByKey_of_pairwise {key : α → κ} {xs : List α} {p : α → Bool}
    (h : (xs.filter p).Pairwise fun a b => key a ≤ key b) : (sortByKey key xs).filter p = xs.filter p := by
  have hsorted : (xs.filter p).Pairwise fun a b => decide (key a ≤ key b) = true := h.imp decide_eq_true
  have hsub := (List.sublist_mergeSort le_trans_key le_total_key hsorted List.filter_sublist).filter p
  rw [List.filter_filter] at hsub
  simp only [Bool.and_self] at hsub
  exact (hsub.eq_of_length ((List.mergeSort_perm xs _).filter _).length_eq.symm).symm

theorem filter_sortByKey (key : α → κ) (xs : List α) (k : κ) :
    (sortByKey key xs).filter (key · == k) = xs.filter (key · == k) := by
  refine filter_sortByKey_of_pairwise (List.pairwise_of_forall_mem_list fun a ha b hb => ?_)
  have ha := eq_of_beq (List.mem_filter.mp ha).2
  have hb := eq_of_beq (List.mem_filter.mp hb).2
  rw [ha, hb]

/-- A sort by a key that a map keeps goes through the map. -/
theorem sortByKey_map {β : Type} (key : β → κ) (f : α → β) (xs : List α) :
    sortByKey key (xs.map f) = (sortByKey (fun x => key (f x)) xs).map f := by
  unfold sortByKey
  rw [List.map_mergeSort]
  exact fun _ _ _ _ => rfl

/-- Where the keys are distinct, the order after sorting says nothing more. -/
theorem sortByKey_eq_iff {key : α → κ} {xs ys : List α} (hkeys : (xs.map key).Nodup) :
    sortByKey key xs = sortByKey key ys ↔ xs.Perm ys := by
  constructor
  · intro h
    exact (perm_sortByKey key xs).symm.trans (h ▸ perm_sortByKey key ys)
  · intro h
    have hperm : (sortByKey key xs).Perm (sortByKey key ys) :=
      (perm_sortByKey key xs).trans (h.trans (perm_sortByKey key ys).symm)
    refine hperm.eq_of_pairwise (fun a b ha hb hab hba => ?_) (pairwise_sortByKey xs) (pairwise_sortByKey ys)
    have ha : a ∈ xs := (perm_sortByKey key xs).mem_iff.mp ha
    have hb : b ∈ xs := h.mem_iff.mpr ((perm_sortByKey key ys).mem_iff.mp hb)
    exact List.inj_on_of_nodup_map hkeys ha hb (le_antisymm hab hba)

/-- The first item of a key is the first one after sorting. -/
theorem find?_sortByKey (key : α → κ) (xs : List α) (k : κ) :
    (sortByKey key xs).find? (key · == k) = xs.find? (key · == k) := by
  rw [← List.head?_filter, ← List.head?_filter, filter_sortByKey]

/-! ## The first after sorting -/

section first

variable {r : α → α → Prop} [DecidableRel r] {xs : List α} {x : α}

theorem head?_insertionSort_eq_none_iff : (xs.insertionSort r).head? = none ↔ xs = [] := by
  rw [List.head?_eq_none_iff]
  constructor
  · intro h
    exact (h ▸ (List.perm_insertionSort r xs).symm).eq_nil
  · rintro rfl
    rfl

/-- The first item after sorting is related to every item. -/
theorem head?_insertionSort [Std.Total r] [IsTrans α r] (h : (xs.insertionSort r).head? = some x) :
    x ∈ xs ∧ ∀ y ∈ xs, r x y := by
  obtain ⟨rest, hsorted⟩ := List.head?_eq_some_iff.mp h
  have hpairwise := List.pairwise_insertionSort r xs
  rw [hsorted] at hpairwise
  refine ⟨(List.mem_insertionSort r).mp (hsorted ▸ List.mem_cons_self), fun y hy => ?_⟩
  have hin := (List.mem_insertionSort r).mpr hy
  rw [hsorted] at hin
  cases hin with
  | head => exact (total_of r _ _).elim id id
  | tail _ hin => exact List.rel_of_pairwise_cons hpairwise hin

end first

end Sorting
