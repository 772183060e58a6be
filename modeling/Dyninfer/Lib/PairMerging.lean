/-
Joining neighbours by rank: of the neighbours that have a rank, those with the
lowest one are joined, where they stand for the first time, until no neighbours
have a rank. When no two pairs have one rank, each list has one next list at
most, and so one list that it ends in.
-/
import Mathlib.Logic.Relation

namespace PairMerging

variable {α : Type} {rank : α → α → Option Nat} {join : α → α → α}

/-- `a` and `b` stand next to each other. -/
def Adjacent (a b : α) (l : List α) : Prop := [a, b] <:+: l

theorem adjacent_append (before after : List α) (a b : α) : Adjacent a b (before ++ a :: b :: after) :=
  ⟨before, after, by simp⟩

/-- No neighbours have a rank. -/
def Normal (rank : α → α → Option Nat) (l : List α) : Prop := ∀ a b, Adjacent a b l → rank a b = none

/-- The lowest-ranked neighbours are joined, where they stand for the first time. -/
inductive Step (rank : α → α → Option Nat) (join : α → α → α) : List α → List α → Prop where
  | mk {before after : List α} {a b : α} {r : Nat} (hrank : rank a b = some r)
    (hlowest : ∀ x y s, Adjacent x y (before ++ a :: b :: after) → rank x y = some s → r ≤ s)
    (hfirst : ¬ Adjacent a b (before ++ [a])) : Step rank join (before ++ a :: b :: after) (before ++ join a b :: after)

/-- The list that one ends in. -/
def EndsIn (rank : α → α → Option Nat) (join : α → α → α) (l l' : List α) : Prop :=
  Relation.ReflTransGen (Step rank join) l l' ∧ Normal rank l'

/-- Of two occurrences that differ, one is the earlier. -/
theorem adjacent_of_eq {before after after' : List α} {x a b : α}
    (h : a :: b :: after = x :: before ++ a :: b :: after') : Adjacent a b (x :: before ++ [a]) := by
  obtain ⟨rfl, htail⟩ := List.cons.inj h
  cases before with
  | nil =>
    obtain ⟨rfl, -⟩ := List.cons.inj htail
    exact ⟨[], [], rfl⟩
  | cons y before =>
    obtain ⟨rfl, -⟩ := List.cons.inj htail
    exact ⟨[], before ++ [a], rfl⟩

/-- Two first occurrences are one. -/
theorem eq_of_first {before before' after after' : List α} {a b : α}
    (h : before ++ a :: b :: after = before' ++ a :: b :: after') (hfirst : ¬ Adjacent a b (before ++ [a]))
    (hfirst' : ¬ Adjacent a b (before' ++ [a])) : before = before' := by
  induction before generalizing before' with
  | nil =>
    cases before' with
    | nil => rfl
    | cons x before' => exact absurd (adjacent_of_eq h) hfirst'
  | cons x before ih =>
    cases before' with
    | nil => exact absurd (adjacent_of_eq h.symm) hfirst
    | cons x' before' =>
      obtain ⟨rfl, htail⟩ := List.cons.inj h
      have hcons : ∀ {l : List α}, ¬ Adjacent a b (x :: l) → ¬ Adjacent a b l := fun hx hl =>
        hx (hl.trans (List.suffix_cons _ _).isInfix)
      rw [ih htail (hcons hfirst) (hcons hfirst')]

theorem Step.unique (hinj : ∀ a b a' b' r, rank a b = some r → rank a' b' = some r → a = a' ∧ b = b')
    {l l₁ l₂ : List α} (h₁ : Step rank join l l₁) (h₂ : Step rank join l l₂) : l₁ = l₂ := by
  obtain ⟨hrank, hlowest, hfirst⟩ := h₁
  rename_i before after a b r
  generalize hl : before ++ a :: b :: after = l at h₂ hlowest
  obtain ⟨hrank', hlowest', hfirst'⟩ := h₂
  rename_i before' after' a' b' r'
  have hle : r ≤ r' := hlowest _ _ _ (adjacent_append _ _ _ _) hrank'
  have hge : r' ≤ r := hlowest' _ _ _ (hl ▸ adjacent_append _ _ _ _) hrank
  cases Nat.le_antisymm hle hge
  obtain ⟨rfl, rfl⟩ := hinj _ _ _ _ _ hrank hrank'
  cases eq_of_first hl hfirst hfirst'
  cases List.append_cancel_left hl
  rfl

theorem Normal.not_step {l l' : List α} (h : Normal rank l) : ¬ Step rank join l l' := by
  rintro ⟨hrank, -, -⟩
  rw [h _ _ (adjacent_append _ _ _ _)] at hrank
  cases hrank

theorem EndsIn.unique (hinj : ∀ a b a' b' r, rank a b = some r → rank a' b' = some r → a = a' ∧ b = b')
    {l l₁ l₂ : List α} (h₁ : EndsIn rank join l l₁) (h₂ : EndsIn rank join l l₂) : l₁ = l₂ := by
  obtain ⟨hsteps₁, hnormal₁⟩ := h₁
  obtain ⟨hsteps₂, hnormal₂⟩ := h₂
  induction hsteps₁ using Relation.ReflTransGen.head_induction_on with
  | refl =>
    rcases Relation.ReflTransGen.cases_head hsteps₂ with h | ⟨_, hstep, -⟩
    · exact h
    · exact absurd hstep hnormal₁.not_step
  | head hstep _ ih =>
    rcases Relation.ReflTransGen.cases_head hsteps₂ with rfl | ⟨_, hstep', hsteps⟩
    · exact absurd hstep hnormal₂.not_step
    · exact ih (hstep'.unique hinj hstep ▸ hsteps)

end PairMerging
