/-
Runs of a labelled transition function, every step of which meets a
condition on the state it starts from and its label. What one such step
keeps, the whole run keeps; a list of labels that evaluates is a run.
-/
namespace Runs

variable {σ α : Type} {step : σ → α → Option σ} {ok ok' : σ → α → Prop}

/-- `t` is reached from `s` by steps that all meet `ok`. -/
inductive Reaches (step : σ → α → Option σ) (ok : σ → α → Prop) : σ → σ → Prop where
  | refl (s : σ) : Reaches step ok s s
  | tail {s t u : σ} {a : α} : Reaches step ok s t → ok t a → step t a = some u → Reaches step ok s u

theorem Reaches.invariant {I : σ → Prop} (hstep : ∀ s a t, I s → ok s a → step s a = some t → I t) {s t : σ}
    (h : Reaches step ok s t) (hs : I s) : I t := by
  induction h with
  | refl => exact hs
  | tail _ hok ht ih => exact hstep _ _ _ ih hok ht

theorem Reaches.head {s t u : σ} {a : α} (hok : ok s a) (hstep : step s a = some t) (h : Reaches step ok t u) :
    Reaches step ok s u := by
  induction h with
  | refl => exact .tail (.refl s) hok hstep
  | tail _ hok' ht ih => exact .tail ih hok' ht

/-- The steps of a list of labels, as long as each meets the condition. -/
def run (step : σ → α → Option σ) (ok : σ → α → Prop) [∀ s a, Decidable (ok s a)] : σ → List α → Option σ
  | s, [] => some s
  | s, a :: rest => if ok s a then (step s a).bind fun t => run step ok t rest else none

variable (step : σ → α → Option σ) (ok : σ → α → Prop) [∀ s a, Decidable (ok s a)]

theorem reaches_of_run : ∀ {labels : List α} {s t : σ}, run step ok s labels = some t → Reaches step ok s t
  | [], s, t, h => by
    rw [run, Option.some_inj] at h
    exact h ▸ .refl s
  | a :: rest, s, t, h => by
    rw [run] at h
    split at h
    case isFalse => cases h
    case isTrue hok =>
      obtain ⟨u, hstep, hrest⟩ := Option.bind_eq_some_iff.mp h
      exact (reaches_of_run hrest).head hok hstep

/-- A run of which a test accepts the end. -/
theorem exists_reaches (labels : List α) (s : σ) (p : σ → Bool) (h : (run step ok s labels).any p = true) :
    ∃ t, Reaches step ok s t ∧ p t = true := by
  cases hrun : run step ok s labels with
  | none => rw [hrun] at h; cases h
  | some t =>
    rw [hrun] at h
    exact ⟨t, reaches_of_run step ok hrun, h⟩

end Runs
