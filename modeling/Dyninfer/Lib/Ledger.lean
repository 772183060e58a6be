/-
References that are taken and given back. A ledger holds those taken and not
given back yet, and remembers whether one was given back that was not held:
given back twice, or never taken. A program that neither does that nor loses
one keeps `Owns`, of the references it can still reach.
-/
import Mathlib.Data.List.Perm.Basic

structure Ledger (α : Type) where
  held : List α := []
  misused : Bool := false

namespace Ledger

variable {α : Type} [DecidableEq α] {l : Ledger α} {refs refs' : List α} {r : α}

def retain (l : Ledger α) (r : α) : Ledger α := { l with held := r :: l.held }

def release (l : Ledger α) (r : α) : Ledger α :=
  if r ∈ l.held then { l with held := l.held.erase r } else { l with misused := true }

/-- Nothing was given back too often, and `refs` is what is left to give back. -/
def Owns (l : Ledger α) (refs : List α) : Prop := l.misused = false ∧ l.held.Perm refs

omit [DecidableEq α] in
theorem owns_empty : Owns ({} : Ledger α) [] := ⟨rfl, List.Perm.refl _⟩

omit [DecidableEq α] in
theorem Owns.perm (h : l.Owns refs) (hperm : refs.Perm refs') : l.Owns refs' := ⟨h.1, h.2.trans hperm⟩

omit [DecidableEq α] in
theorem Owns.retain (h : l.Owns refs) : (l.retain r).Owns (r :: refs) := ⟨h.1, h.2.cons r⟩

theorem Owns.release (h : l.Owns (r :: refs)) : (l.release r).Owns refs := by
  have hmem : r ∈ l.held := h.2.mem_iff.mpr List.mem_cons_self
  rw [Ledger.release, if_pos hmem]
  refine ⟨h.1, ?_⟩
  have herase := h.2.erase r
  rwa [List.erase_cons_head] at herase

end Ledger
