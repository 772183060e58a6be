/-
Half-open intervals in a list. A check that sorts them by their starts and
compares neighbours never passes two that share a point. What else it refuses
is an empty interval whose place lies in another, and of two that start
together it may see either first.
-/
import Dyninfer.Lib.Sorting

namespace Intervals

variable {α τ : Type} [LinearOrder τ] (start finish : α → τ)

def Contains (a : α) (t : τ) : Prop := start a ≤ t ∧ t < finish a

/-- No point lies in both. -/
def Apart (a b : α) : Prop := ∀ t, ¬ (Contains start finish a t ∧ Contains start finish b t)

/-- The first is empty, and its place lies in the second. -/
def EmptyIn (a b : α) : Prop := finish a = start a ∧ Contains start finish b (start a)

/-- In the order of the starts, each ends before the next one starts. -/
def NeighboursApart (xs : List α) : Prop := (Sorting.sortByKey start xs).IsChain fun a b => finish a ≤ start b

section pairs

variable {start finish} {a b : α}

theorem Apart.symm (h : Apart start finish a b) : Apart start finish b a := fun t ht => h t ht.symm

theorem apart_of_le (h : finish a ≤ start b) : Apart start finish a b :=
  fun _ ht => absurd (ht.1.2.trans_le (h.trans ht.2.1)) (lt_irrefl _)

/-- Of two intervals that share no point the one that starts first ends before the other starts, unless that
one is empty inside it. -/
theorem le_of_apart (hab : start a ≤ start b) (hb : start b ≤ finish b) (h : Apart start finish a b)
    (hempty : ¬ EmptyIn start finish b a) : finish a ≤ start b := by
  by_contra hlt
  rw [not_le] at hlt
  rcases hb.eq_or_lt with heq | hne
  · exact hempty ⟨heq.symm, hab, hlt⟩
  · exact h (start b) ⟨⟨hab, hlt⟩, le_refl _, hne⟩

theorem pair_sublist {xs : List α} (ha : a ∈ xs) (hb : b ∈ xs) (hne : a ≠ b) :
    List.Sublist [a, b] xs ∨ List.Sublist [b, a] xs := by
  obtain ⟨before, after, rfl⟩ := List.append_of_mem ha
  rcases List.mem_append.mp hb with hb | hb
  · exact .inr ((List.singleton_sublist.mpr hb).append (List.singleton_sublist.mpr List.mem_cons_self))
  · cases hb with
    | head => exact absurd rfl hne
    | tail _ hb => exact .inl (((List.singleton_sublist.mpr hb).cons_cons a).trans (List.sublist_append_right _ _))

end pairs

section check

variable {start finish} {xs : List α}

/-- What holds of neighbours holds of any two. -/
theorem NeighboursApart.pairwise (hle : ∀ a ∈ xs, start a ≤ finish a) (h : NeighboursApart start finish xs) :
    (Sorting.sortByKey start xs).Pairwise fun a b => finish a ≤ start b := by
  have hmem : ∀ a ∈ Sorting.sortByKey start xs, start a ≤ finish a :=
    fun a ha => hle a ((Sorting.perm_sortByKey start xs).mem_iff.mp ha)
  unfold NeighboursApart at h
  generalize Sorting.sortByKey start xs = ys at h hmem
  induction ys with
  | nil => exact .nil
  | cons a ys ih =>
    rw [List.forall_mem_cons] at hmem
    cases ys with
    | nil => exact List.pairwise_singleton _ _
    | cons b ys =>
      rw [List.isChain_cons_cons] at h
      have hrest := ih h.2 hmem.2
      refine .cons (fun c hc => ?_) hrest
      cases hc with
      | head => exact h.1
      | tail _ hc => exact (h.1.trans (hmem.2 b List.mem_cons_self)).trans (List.rel_of_pairwise_cons hrest hc)

/-- Where the check passes, no two share a point. -/
theorem NeighboursApart.apart (hle : ∀ a ∈ xs, start a ≤ finish a) (h : NeighboursApart start finish xs) :
    xs.Pairwise (Apart start finish) := by
  refine ((Sorting.perm_sortByKey start xs).pairwise_iff Apart.symm).mp ?_
  exact (h.pairwise hle).imp apart_of_le

/-- Where no two share a point and none is empty inside another, the check passes. -/
theorem neighboursApart_of_apart (hle : ∀ a ∈ xs, start a ≤ finish a) (h : xs.Pairwise (Apart start finish))
    (hempty : ∀ a ∈ xs, ∀ b ∈ xs, ¬ EmptyIn start finish a b) : NeighboursApart start finish xs := by
  have hperm := Sorting.perm_sortByKey start xs
  have hsorted := (Sorting.pairwise_sortByKey xs).and ((hperm.pairwise_iff Apart.symm).mpr h)
  refine List.Pairwise.isChain (hsorted.imp_of_mem fun {a b} ha hb hab => ?_)
  have ha := hperm.mem_iff.mp ha
  have hb := hperm.mem_iff.mp hb
  exact le_of_apart hab.1 (hle b hb) hab.2 (hempty b hb a ha)

/-- An empty interval is not listed after one that it lies in. -/
theorem NeighboursApart.not_after (hle : ∀ a ∈ xs, start a ≤ finish a) (h : NeighboursApart start finish xs) {a b : α}
    (hempty : EmptyIn start finish a b) : ¬ List.Sublist [b, a] xs := by
  intro hsub
  have hpair := List.pairwise_iff_forall_sublist.mp (h.pairwise hle)
    (Sorting.pair_sublist_sortByKey hempty.2.1 hsub)
  exact absurd hempty.2.2 (not_lt.mpr hpair)

/-- With an interval empty inside another, the check does not pass in both directions. -/
theorem not_neighboursApart_reverse (hle : ∀ a ∈ xs, start a ≤ finish a) {a b : α} (ha : a ∈ xs) (hb : b ∈ xs)
    (hempty : EmptyIn start finish a b) (h : NeighboursApart start finish xs) :
    ¬ NeighboursApart start finish xs.reverse := by
  intro hreverse
  have hne : a ≠ b := by
    intro hab
    subst hab
    exact absurd hempty.2.2 (by rw [hempty.1]; exact lt_irrefl _)
  rcases pair_sublist ha hb hne with hsub | hsub
  · refine hreverse.not_after (fun c hc => hle c (List.mem_reverse.mp hc)) hempty ?_
    exact List.reverse_sublist.mpr hsub
  · exact h.not_after hle hempty hsub

end check

end Intervals
