/-
Programs that leave a trace: what a run from a given state appends to a log
the state carries. A run that returns has appended all of it; one that fails
has appended a beginning. The rules follow `bind`, as the program is written.
-/
import Dyninfer.Lib.Effect

namespace Effect

variable {σ τ ε α β γ : Type}

/-- From `s`, `x` appends `cs` to the log, or fails after a beginning of it; a value it returns is
in `Q`. -/
def EmitsAt (log : σ → List γ) (x : EStateM ε σ α) (cs : List γ) (Q : α → Prop) (s : σ) : Prop :=
  match x.run s with
  | .ok a s' => log s' = log s ++ cs ∧ Q a
  | .error _ s' => ∃ pre, pre <+: cs ∧ log s' = log s ++ pre

variable {log : σ → List γ} {x : EStateM ε σ α} {cs ds : List γ} {Q : α → Prop}

theorem EmitsAt.pure {a : α} {s : σ} (h : Q a) : EmitsAt log (Pure.pure a : EStateM ε σ α) [] Q s :=
  ⟨by simp, h⟩

theorem EmitsAt.throw {e : ε} {s : σ} : EmitsAt log (throw e : EStateM ε σ α) cs Q s :=
  ⟨[], List.nil_prefix, by simp⟩

theorem EmitsAt.bind {f : α → EStateM ε σ β} {R : β → Prop} {s : σ} (hx : EmitsAt log x cs Q s)
    (hf : ∀ a s', Q a → EmitsAt log (f a) ds R s') : EmitsAt log (x >>= f) (cs ++ ds) R s := by
  unfold EmitsAt at hx
  rw [EmitsAt, EStateM.run_bind]
  revert hx
  cases x.run s with
  | error e s' =>
    intro ⟨pre, hpre, hlog⟩
    exact ⟨pre, hpre.trans (List.prefix_append cs ds), hlog⟩
  | ok a s' =>
    intro ⟨hlog, ha⟩
    have hfa := hf a s' ha
    rw [EmitsAt] at hfa
    simp only
    revert hfa
    cases (f a).run s' with
    | error e s'' =>
      intro ⟨pre, hpre, hlog'⟩
      refine ⟨cs ++ pre, List.prefix_append_right_inj cs |>.2 hpre, ?_⟩
      rw [hlog', hlog, List.append_assoc]
    | ok b s'' =>
      intro ⟨hlog', hb⟩
      exact ⟨by rw [hlog', hlog, List.append_assoc], hb⟩

/-- A step that appends nothing leaves the trace to what follows. -/
theorem EmitsAt.bind_silent {f : α → EStateM ε σ β} {R : β → Prop} {s : σ} (hx : EmitsAt log x [] Q s)
    (hf : ∀ a s', Q a → EmitsAt log (f a) ds R s') : EmitsAt log (x >>= f) ds R s :=
  hx.bind hf

theorem EmitsAt.conseq {Q' : α → Prop} {s : σ} (hx : EmitsAt log x cs Q s) (hQ : ∀ a, Q a → Q' a) :
    EmitsAt log x cs Q' s := by
  unfold EmitsAt at hx ⊢
  revert hx
  cases x.run s with
  | ok a s' => exact fun h => ⟨h.1, hQ a h.2⟩
  | error e s' => exact fun h => h

theorem EmitsAt.require {c : Bool} {e : ε} {s : σ} :
    EmitsAt log (require c e) [] (fun _ => c = true) s := by
  cases c with
  | true => exact EmitsAt.pure rfl
  | false => exact EmitsAt.throw

/-- A write that leaves the log alone is silent. -/
theorem EmitsAt.modify {g : σ → σ} {s : σ} (h : log (g s) = log s) :
    EmitsAt log (modify g : EStateM ε σ Unit) [] (fun _ => True) s :=
  ⟨by rw [List.append_nil]; exact h, trivial⟩

/-- A program on a part of the state, the log being in that part. -/
theorem EmitsAt.onPart {part : τ → σ} {put : σ → τ → τ} (hput : ∀ s t, part (put s t) = s) {t : τ}
    (h : EmitsAt log x cs Q (part t)) : EmitsAt (fun t => log (part t)) (onPart part put x) cs Q t := by
  unfold EmitsAt at h ⊢
  rw [run_onPart]
  revert h
  cases x.run (part t) with
  | ok a s' => intro h; simpa only [hput] using h
  | error e s' => intro h; simpa only [hput] using h

end Effect
