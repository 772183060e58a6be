/-
Programs over a state that may fail, where a failure keeps the state it
reached (`EStateM`): what one run guarantees (`Triple`), and when two programs
run from one state end alike (`AgreeAt`). Both come with the rules for
`pure`, `bind` and failure that a proof about a written-out program uses, so
such a proof follows the program line by line.
-/
namespace Effect

variable {σ τ ε α β γ δ : Type}

theorem run_throw (e : ε) (s : σ) : (throw e : EStateM ε σ α).run s = .error e s := rfl

/-- A sequence that returns is a first part that returns, and a second from where it ended. -/
theorem bind_ok {x : EStateM ε σ α} {f : α → EStateM ε σ β} {s s' : σ} {b : β}
    (h : (x >>= f).run s = .ok b s') : ∃ a t, x.run s = .ok a t ∧ (f a).run t = .ok b s' := by
  rw [EStateM.run_bind] at h
  revert h
  cases hx : x.run s with
  | ok a t => exact fun h => ⟨a, t, rfl, h⟩
  | error e t => intro h; cases h

/-- A program that fails with `e` unless `c` holds. -/
def require (c : Bool) (e : ε) : EStateM ε σ Unit :=
  if c then pure () else throw e

theorem run_require_true {c : Bool} (h : c = true) (e : ε) (s : σ) :
    (require c e : EStateM ε σ Unit).run s = .ok () s := by
  simp [require, h]

theorem run_require_false {c : Bool} (h : c = false) (e : ε) (s : σ) :
    (require c e : EStateM ε σ Unit).run s = .error e s := by
  simp [require, h, run_throw]

/-- A program a number of times. -/
def times (x : EStateM ε σ α) : Nat → EStateM ε σ (List α)
  | 0 => pure []
  | n + 1 => do
    let a ← x
    let rest ← times x n
    return a :: rest

theorem require_ok {c : Bool} {e : ε} {s s' : σ} {a : Unit}
    (h : (require c e : EStateM ε σ Unit).run s = .ok a s') : c = true ∧ s' = s := by
  cases c with
  | true => rw [run_require_true rfl] at h; cases h; exact ⟨rfl, rfl⟩
  | false => rw [run_require_false rfl] at h; cases h

/-! ## One run -/

/-- What a run of `x` from a state in `P` ends in: `Q` of the value and state it returns, or `E`
of the state it fails in. -/
def Triple (P : σ → Prop) (x : EStateM ε σ α) (Q : α → σ → Prop) (E : σ → Prop) : Prop :=
  ∀ s, P s → match x.run s with
    | .ok a s' => Q a s'
    | .error _ s' => E s'

section rules

variable {P P' : σ → Prop} {E E' : σ → Prop} {Q Q' : α → σ → Prop} {x : EStateM ε σ α}

theorem Triple.pure {a : α} (h : ∀ s, P s → Q a s) : Triple P (Pure.pure a : EStateM ε σ α) Q E := h

theorem Triple.throw {e : ε} (h : ∀ s, P s → E s) : Triple P (throw e : EStateM ε σ α) Q E := h

theorem Triple.bind {f : α → EStateM ε σ β} {R : β → σ → Prop} (hx : Triple P x Q E)
    (hf : ∀ a, Triple (Q a) (f a) R E) : Triple P (x >>= f) R E := by
  intro s hs
  have h := hx s hs
  simp only [EStateM.run_bind]
  revert h
  cases x.run s with
  | ok a s' => exact fun h => hf a s' h
  | error e s' => exact fun h => h

theorem Triple.conseq (hx : Triple P x Q E) (hP : ∀ s, P' s → P s) (hQ : ∀ a s, Q a s → Q' a s)
    (hE : ∀ s, E s → E' s) : Triple P' x Q' E' := by
  intro s hs
  have h := hx s (hP s hs)
  revert h
  cases x.run s with
  | ok a s' => exact hQ a s'
  | error e s' => exact hE s'

theorem Triple.modify {g : σ → σ} {Q : Unit → σ → Prop} (h : ∀ s, P s → Q () (g s)) :
    Triple P (modify g : EStateM ε σ Unit) Q E := h

/-- A guard on the state. -/
theorem Triple.checked {c : σ → Bool} {e : ε} (hx : Triple (fun s => c s = false ∧ P s) x Q E)
    (herr : ∀ s, P s → E s) :
    Triple P (do if c (← get) then (MonadExcept.throw e : EStateM ε σ PUnit)
                 x) Q E := by
  intro s hs
  simp only [EStateM.run_bind, EStateM.run_get]
  cases h : c s with
  | true => exact herr s hs
  | false => exact hx s ⟨h, hs⟩

/-- After a `require`, its condition holds; when it fails nothing has changed. -/
theorem Triple.require {c : Bool} {e : ε} {Q : Unit → σ → Prop} (hok : ∀ s, c = true → P s → Q () s)
    (herr : ∀ s, c = false → P s → E s) : Triple P (require c e) Q E := by
  intro s hs
  cases h : c with
  | true => rw [run_require_true rfl]; exact hok s h hs
  | false => rw [run_require_false rfl]; exact herr s h hs

/-- A guard in front of a program: either way its outcome is known. -/
theorem Triple.decide {c : Bool} {e : ε} {f : Unit → EStateM ε σ α} (hok : c = true → Triple P (f ()) Q E)
    (herr : c = false → ∀ s, P s → E s) : Triple P (Effect.require c e >>= f) Q E := by
  cases c with
  | true => exact hok rfl
  | false => exact herr rfl

/-- What follows a guard may use its condition. -/
theorem Triple.guard {c : Bool} {e : ε} {f : Unit → EStateM ε σ α} (hok : c = true → Triple P (f ()) Q E)
    (herr : ∀ s, P s → E s) : Triple P (Effect.require c e >>= f) Q E :=
  Triple.decide hok fun _ => herr

/-- A guard whose condition is known. -/
theorem Triple.pass {c : Bool} {e : ε} {f : Unit → EStateM ε σ α} (hc : c = true) (hf : Triple P (f ()) Q E) :
    Triple P (Effect.require c e >>= f) Q E := by
  subst hc
  exact hf

/-- A fact of the precondition that is not about the state. -/
theorem Triple.assume {p : Prop} (h : p → Triple P x Q E) : Triple (fun s => p ∧ P s) x Q E :=
  fun s hs => h hs.1 s hs.2

/-- A witness of the precondition. -/
theorem Triple.exists {γ : Type} {P : γ → σ → Prop} (h : ∀ c, Triple (P c) x Q E) : Triple (fun s => ∃ c, P c s) x Q E :=
  fun s ⟨c, hs⟩ => h c s hs

/-- A step may look at the state it starts in. -/
theorem Triple.of_forall (h : ∀ s, P s → Triple (· = s) x Q E) : Triple P x Q E :=
  fun s hs => h s hs s rfl

theorem Triple.ok (h : Triple P x Q E) {s s' : σ} {a : α} (hs : P s) (hrun : x.run s = .ok a s') : Q a s' := by
  have h' := h s hs
  rwa [hrun] at h'

/-- A run that cannot fail returns. -/
theorem Triple.returns (h : Triple P x Q fun _ => False) {s : σ} (hs : P s) :
    ∃ a s', x.run s = .ok a s' ∧ Q a s' := by
  have h' := h s hs
  revert h'
  cases x.run s with
  | ok a s' => exact fun h => ⟨a, s', rfl, h⟩
  | error e s' => exact False.elim

end rules

/-! ## Cleaning up -/

/-- `x`, and `cleanup` behind it when it fails; the failure stays one. -/
def onError (x : EStateM ε σ α) (cleanup : EStateM ε σ Unit) : EStateM ε σ α := fun s =>
  match x.run s with
  | .ok a s' => .ok a s'
  | .error e s' =>
    match cleanup.run s' with
    | .ok _ s'' => .error e s''
    | .error e' s'' => .error e' s''

/-- `x`, and `cleanup` behind it whether or not it fails. -/
def andFinally (x : EStateM ε σ α) (cleanup : EStateM ε σ Unit) : EStateM ε σ α := do
  let a ← onError x cleanup
  cleanup
  return a

section cleanup

variable {P E E' : σ → Prop} {Q Q' : α → σ → Prop} {x : EStateM ε σ α} {cleanup : EStateM ε σ Unit}

theorem Triple.onError (hx : Triple P x Q E') (hcleanup : Triple E' cleanup (fun _ => E) E) :
    Triple P (onError x cleanup) Q E := by
  intro s hs
  have h := hx s hs
  unfold EStateM.run Effect.onError
  revert h
  cases x.run s with
  | ok a s' => exact fun h => h
  | error e s' =>
    intro h
    have h' := hcleanup s' h
    revert h'
    simp only
    cases cleanup.run s' with
    | ok a s'' => exact fun h => h
    | error e' s'' => exact fun h => h

theorem Triple.andFinally (hx : Triple P x Q' E') (hok : ∀ a, Triple (Q' a) cleanup (fun _ => Q a) E)
    (herr : Triple E' cleanup (fun _ => E) E) : Triple P (andFinally x cleanup) Q E :=
  (hx.onError herr).bind fun a => (hok a).bind fun _ => Triple.pure fun _ h => h

end cleanup

/-! ## Two runs from one state -/

/-- From `s`, `x` and `y` end in one state: both return, with values related by `R`, or both fail. -/
def AgreeAt (R : α → β → Prop) (x : EStateM ε σ α) (y : EStateM ε σ β) (s : σ) : Prop :=
  match x.run s, y.run s with
  | .ok a s₁, .ok b s₂ => R a b ∧ s₁ = s₂
  | .error _ s₁, .error _ s₂ => s₁ = s₂
  | _, _ => False

section agree

variable {R : α → β → Prop} {x : EStateM ε σ α} {y : EStateM ε σ β} {s : σ}

theorem AgreeAt.pure {a : α} {b : β} (h : R a b) :
    AgreeAt R (Pure.pure a : EStateM ε σ α) (Pure.pure b) s := ⟨h, rfl⟩

/-- Agreement goes through sequencing; the continuations are compared where the first parts end. -/
theorem AgreeAt.bind {S : γ → δ → Prop} {f : α → EStateM ε σ γ} {g : β → EStateM ε σ δ}
    (hxy : AgreeAt R x y s)
    (hfg : ∀ a b s', R a b → AgreeAt S (f a) (g b) s') : AgreeAt S (x >>= f) (y >>= g) s := by
  unfold AgreeAt at hxy ⊢
  simp only [EStateM.run_bind]
  revert hxy
  cases x.run s <;> cases y.run s
  case ok.ok a s₁ b s₂ =>
    rintro ⟨hab, rfl⟩
    exact hfg a b s₁ hab
  case error.error => exact fun h => h
  all_goals exact fun h => h.elim

/-- The same first step on both sides. -/
theorem AgreeAt.bind_same {S : γ → δ → Prop} (x : EStateM ε σ α) {f : α → EStateM ε σ γ}
    {g : α → EStateM ε σ δ} (hfg : ∀ a s', x.run s = .ok a s' → AgreeAt S (f a) (g a) s') :
    AgreeAt S (x >>= f) (x >>= g) s := by
  unfold AgreeAt
  simp only [EStateM.run_bind]
  cases hx : x.run s with
  | ok a s' => exact hfg a s' hx
  | error e s' => rfl

/-- A program against itself with a function applied to what it returns. -/
theorem AgreeAt.map_right (x : EStateM ε σ α) (f : α → β) (s : σ) :
    AgreeAt (fun a b => f a = b) x (x >>= fun a => Pure.pure (f a)) s := by
  unfold AgreeAt
  rw [EStateM.run_bind]
  cases x.run s with
  | ok a s' => exact ⟨rfl, rfl⟩
  | error e s' => rfl

/-- A step on the left that returns and leaves the state as it is may be dropped. -/
theorem AgreeAt.skip_left {a : γ} {z : EStateM ε σ γ} {f : γ → EStateM ε σ α} (hz : z.run s = .ok a s)
    (h : AgreeAt R (f a) y s) : AgreeAt R (z >>= f) y s := by
  unfold AgreeAt at h ⊢
  rwa [EStateM.run_bind, hz]

theorem AgreeAt.skip_right {a : γ} {z : EStateM ε σ γ} {g : γ → EStateM ε σ β} (hz : z.run s = .ok a s)
    (h : AgreeAt R x (g a) s) : AgreeAt R x (z >>= g) s := by
  unfold AgreeAt at h ⊢
  rwa [EStateM.run_bind, hz]

/-- What one run guarantees holds of a run that agrees with it. -/
theorem Triple.agree {P E : σ → Prop} {Q : α → σ → Prop} (hx : Triple P x Q E) (h : ∀ s, P s → AgreeAt R x y s) :
    Triple P y (fun b s => ∃ a, R a b ∧ Q a s) E := by
  intro s hs
  have hxs := hx s hs
  have hxy := h s hs
  unfold AgreeAt at hxy
  revert hxs hxy
  cases x.run s <;> cases y.run s
  case ok.ok a s₁ b s₂ =>
    rintro hQ ⟨hab, rfl⟩
    exact ⟨a, hab, hQ⟩
  case error.error =>
    rintro hE rfl
    exact hE
  all_goals exact fun _ h => h.elim

end agree

/-! ## A part of the state -/

/-- Run `x` on the part of the state that `get` and `put` give. -/
def onPart (get : τ → σ) (put : σ → τ → τ) (x : EStateM ε σ α) : EStateM ε τ α := fun t =>
  match x.run (get t) with
  | .ok a s => .ok a (put s t)
  | .error e s => .error e (put s t)

theorem run_onPart (get : τ → σ) (put : σ → τ → τ) (x : EStateM ε σ α) (t : τ) :
    (onPart get put x).run t =
      match x.run (get t) with
      | .ok a s => .ok a (put s t)
      | .error e s => .error e (put s t) := rfl

theorem onPart_bind {get : τ → σ} {put : σ → τ → τ} (hget : ∀ s t, get (put s t) = s)
    (hput : ∀ s s' t, put s (put s' t) = put s t) (x : EStateM ε σ α) (f : α → EStateM ε σ β) :
    onPart get put (x >>= f) = onPart get put x >>= fun a => onPart get put (f a) := by
  funext t
  change (onPart get put (x >>= f)).run t = (onPart get put x >>= fun a => onPart get put (f a)).run t
  simp only [EStateM.run_bind, run_onPart]
  cases x.run (get t) with
  | ok a s =>
    simp only [hget]
    cases (f a).run s <;> simp only [hput]
  | error e s => rfl

theorem AgreeAt.onPart {get : τ → σ} {put : σ → τ → τ} {R : α → β → Prop} {x : EStateM ε σ α}
    {y : EStateM ε σ β} {t : τ} (h : AgreeAt R x y (get t)) :
    AgreeAt R (onPart get put x) (onPart get put y) t := by
  unfold AgreeAt at h ⊢
  simp only [run_onPart]
  revert h
  cases x.run (get t) <;> cases y.run (get t)
  case ok.ok => rintro ⟨hab, rfl⟩; exact ⟨hab, rfl⟩
  case error.error => rintro rfl; rfl
  all_goals exact fun h => h.elim

end Effect
