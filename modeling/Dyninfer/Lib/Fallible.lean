/-
Programs that return a value or fail (`Except`): what the success of a
sequence, of a loop and of a traversal says about its steps.
-/
import Mathlib.Data.List.Forall2

namespace Fallible

variable {α β ε : Type}

/-- Fail with `e` unless `p`. -/
def ensure (p : Prop) [Decidable p] (e : ε) : Except ε Unit := if p then .ok () else .error e

/-- A value that a test accepts. -/
theorem exists_ok {x : Except ε α} {p : α → Bool} (h : x.toOption.any p = true) : ∃ a, x = .ok a ∧ p a = true := by
  cases x with
  | ok a => exact ⟨a, rfl, h⟩
  | error e => cases h

theorem bind_ok {x : Except ε α} {f : α → Except ε β} {b : β} (h : x >>= f = .ok b) :
    ∃ a, x = .ok a ∧ f a = .ok b := by
  cases x with
  | ok a => exact ⟨a, rfl, h⟩
  | error e => cases h

theorem bind_ok_iff {x : Except ε α} {f : α → Except ε β} {b : β} :
    x >>= f = .ok b ↔ ∃ a, x = .ok a ∧ f a = .ok b := by
  constructor
  · exact bind_ok
  · rintro ⟨a, rfl, h⟩
    exact h

theorem bind_error {x : Except ε α} {f : α → Except ε β} {e : ε} (h : x >>= f = .error e) :
    x = .error e ∨ ∃ a, x = .ok a ∧ f a = .error e := by
  cases x with
  | ok a => exact .inr ⟨a, rfl, h⟩
  | error e' => cases h; exact .inl rfl

theorem of_mapError_error {δ : Type} {g : ε → δ} {x : Except ε α} {e : δ} (h : x.mapError g = .error e) :
    ∃ e', g e' = e := by
  cases x with
  | ok a => cases h
  | error e' => cases h; exact ⟨e', rfl⟩

theorem ok_bind (a : α) (f : α → Except ε β) : (Except.ok a >>= f) = f a := rfl

theorem ok_mapError {δ : Type} (g : ε → δ) (a : α) : (Except.ok a : Except ε α).mapError g = .ok a := rfl

theorem of_mapError_ok {δ : Type} {g : ε → δ} {x : Except ε α} {a : α} (h : x.mapError g = .ok a) : x = .ok a := by
  cases x with
  | ok a' => cases h; rfl
  | error e => cases h

/-- What follows a failing test is reached where the test is false. -/
theorem ite_throw_ok {p : Prop} [Decidable p] {e : ε} {f : α → Except ε β} {x : Except ε β} {b : β}
    (h : (if p then throw e >>= f else x) = .ok b) : ¬ p ∧ x = .ok b := by
  split at h
  case isTrue => cases h
  case isFalse hp => exact ⟨hp, h⟩

theorem forM_ok {f : α → Except ε PUnit} {xs : List α} (h : xs.forM f = .ok ()) : ∀ x ∈ xs, f x = .ok () := by
  induction xs with
  | nil => exact fun x hx => absurd hx List.not_mem_nil
  | cons y ys ih =>
    obtain ⟨_, hy, hys⟩ := bind_ok h
    intro x hx
    cases hx with
    | head => exact hy
    | tail _ hx => exact ih hys x hx

theorem forM_ok_iff {f : α → Except ε PUnit} {xs : List α} : xs.forM f = .ok () ↔ ∀ x ∈ xs, f x = .ok () := by
  refine ⟨forM_ok, fun h => ?_⟩
  induction xs with
  | nil => rfl
  | cons y ys ih =>
    exact bind_ok_iff.mpr ⟨_, h y List.mem_cons_self, ih fun x hx => h x (List.mem_cons_of_mem _ hx)⟩

theorem mapM_ok {f : α → Except ε β} {xs : List α} {ys : List β} (h : xs.mapM f = .ok ys) :
    List.Forall₂ (fun x y => f x = .ok y) xs ys := by
  induction xs generalizing ys with
  | nil => cases h; exact .nil
  | cons x xs ih =>
    rw [List.mapM_cons] at h
    obtain ⟨y, hy, h⟩ := bind_ok h
    obtain ⟨zs, hzs, h⟩ := bind_ok h
    cases h
    exact .cons hy (ih hzs)

theorem mapM_iff_forall₂ {f : α → Except ε β} {xs : List α} {ys : List β} :
    xs.mapM f = .ok ys ↔ List.Forall₂ (fun x y => f x = .ok y) xs ys := by
  refine ⟨mapM_ok, fun h => ?_⟩
  induction h with
  | nil => rfl
  | cons hx _ ih => rw [List.mapM_cons, hx, ok_bind, ih]; rfl

/-- A traversal whose steps fail unless `P` and otherwise give `g`. -/
theorem mapM_ok_iff {f : α → Except ε β} {P : α → Prop} {g : α → β}
    (h : ∀ x y, f x = .ok y ↔ P x ∧ y = g x) {xs : List α} {ys : List β} :
    xs.mapM f = .ok ys ↔ (∀ x ∈ xs, P x) ∧ ys = xs.map g := by
  induction xs generalizing ys with
  | nil => exact ⟨fun h => by cases h; simp, fun h => by rw [h.2]; rfl⟩
  | cons x xs ih =>
    rw [List.mapM_cons, bind_ok_iff, List.forall_mem_cons]
    constructor
    · rintro ⟨y, hy, hrest⟩
      obtain ⟨zs, hzs, hrest⟩ := bind_ok hrest
      obtain ⟨hx, rfl⟩ := (h x y).mp hy
      obtain ⟨hxs, rfl⟩ := ih.mp hzs
      cases hrest
      exact ⟨⟨hx, hxs⟩, rfl⟩
    · rintro ⟨⟨hx, hxs⟩, rfl⟩
      refine ⟨g x, (h x _).mpr ⟨hx, rfl⟩, ?_⟩
      rw [ih.mpr ⟨hxs, rfl⟩]
      rfl

/-- A traversal whose steps succeed, each with a result in a relation to its element. -/
theorem mapM_exists {f : α → Except ε β} {R : α → β → Prop} {xs : List α}
    (h : ∀ x ∈ xs, ∃ y, f x = .ok y ∧ R x y) : ∃ ys, xs.mapM f = .ok ys ∧ List.Forall₂ R xs ys := by
  induction xs with
  | nil => exact ⟨[], rfl, .nil⟩
  | cons x xs ih =>
    obtain ⟨y, hy, hxy⟩ := h x List.mem_cons_self
    obtain ⟨ys, hys, hall⟩ := ih fun z hz => h z (List.mem_cons_of_mem _ hz)
    exact ⟨y :: ys, by rw [List.mapM_cons, hy, hys]; rfl, .cons hxy hall⟩

theorem mapM_total {f : α → Except ε β} {xs : List α} (h : ∀ x ∈ xs, ∃ y, f x = .ok y) : ∃ ys, xs.mapM f = .ok ys := by
  obtain ⟨ys, hys, -⟩ := mapM_exists (R := fun _ _ => True) fun x hx => (h x hx).imp fun y hy => ⟨hy, trivial⟩
  exact ⟨ys, hys⟩

/-- Two traversals of one list, the second of which gives what the first does through a function. -/
theorem mapM_map_eq {γ : Type} {f : α → Except ε β} {g : α → Except ε γ} {k : β → γ}
    (hstep : ∀ x y z, f x = .ok y → g x = .ok z → z = k y) {xs : List α} {ys : List β} {zs : List γ}
    (hys : xs.mapM f = .ok ys) (hzs : xs.mapM g = .ok zs) : zs = ys.map k := by
  induction xs generalizing ys zs with
  | nil => cases hys; cases hzs; rfl
  | cons x xs ih =>
    rw [List.mapM_cons] at hys hzs
    obtain ⟨y, hy, hys⟩ := bind_ok hys
    obtain ⟨z, hz, hzs⟩ := bind_ok hzs
    obtain ⟨ys', hys', hys⟩ := bind_ok hys
    obtain ⟨zs', hzs', hzs⟩ := bind_ok hzs
    cases hys
    cases hzs
    rw [hstep x y z hy hz, ih hys' hzs', List.map_cons]

theorem exists_of_forall₂ {R : α → β → Prop} {xs : List α} {ys : List β} (h : List.Forall₂ R xs ys) {x : α}
    (hx : x ∈ xs) : ∃ y ∈ ys, R x y := by
  induction h with
  | nil => cases hx
  | cons hxy _ ih =>
    cases hx with
    | head => exact ⟨_, List.mem_cons_self, hxy⟩
    | tail _ hx =>
      obtain ⟨y, hy, hR⟩ := ih hx
      exact ⟨y, List.mem_cons_of_mem _ hy, hR⟩

theorem getElem?_forall₂ {R : α → β → Prop} {xs : List α} {ys : List β} (h : List.Forall₂ R xs ys) (i : Nat) :
    xs[i]? = none ∧ ys[i]? = none ∨ ∃ x y, xs[i]? = some x ∧ ys[i]? = some y ∧ R x y := by
  induction h generalizing i with
  | nil => exact .inl ⟨rfl, rfl⟩
  | cons hxy _ ih =>
    cases i with
    | zero => exact .inr ⟨_, _, rfl, rfl, hxy⟩
    | succ i => simpa using ih i

theorem forall₂_map {R : α → β → Prop} {g : α → β} {xs : List α} (h : ∀ x ∈ xs, R x (g x)) :
    List.Forall₂ R xs (xs.map g) :=
  List.forall₂_map_right_iff.mpr (List.forall₂_same.mpr h)

/-- An invariant of the items done so far, over a whole loop. -/
theorem foldlM_prefix_ok {f : β → α → Except ε β} {I : List α → β → Prop}
    (hstep : ∀ done x b b', I done b → f b x = .ok b' → I (done ++ [x]) b') {done xs : List α} {b b' : β}
    (hb : I done b) (h : xs.foldlM f b = .ok b') : I (done ++ xs) b' := by
  induction xs generalizing done b with
  | nil =>
    cases h
    simpa using hb
  | cons x xs ih =>
    rw [List.foldlM_cons] at h
    obtain ⟨next, hnext, h⟩ := bind_ok h
    simpa using ih (hstep done x b next hb hnext) h

/-- What every step of a loop keeps, and what it says of its item, the whole loop keeps and says. -/
theorem foldlM_ok {f : β → α → Except ε β} {I : β → Prop} {R : α → Prop} {xs : List α} {b b' : β}
    (hstep : ∀ b x b', x ∈ xs → I b → f b x = .ok b' → I b' ∧ R x) (hb : I b)
    (h : xs.foldlM f b = .ok b') : I b' ∧ ∀ x ∈ xs, R x := by
  induction xs generalizing b with
  | nil => cases h; exact ⟨hb, fun x hx => absurd hx List.not_mem_nil⟩
  | cons y ys ih =>
    rw [List.foldlM_cons] at h
    obtain ⟨b₁, hy, h⟩ := bind_ok h
    obtain ⟨hb₁, hRy⟩ := hstep b y b₁ List.mem_cons_self hb hy
    obtain ⟨hb', hR⟩ := ih (fun b x b' hx => hstep b x b' (List.mem_cons_of_mem _ hx)) hb₁ h
    refine ⟨hb', fun x hx => ?_⟩
    cases hx with
    | head => exact hRy
    | tail _ hx => exact hR x hx

/-- A loop that appends what each item gives, and keeps the whole good, appends what all items give. -/
theorem foldlM_append_iff {f : List β → α → Except ε (List β)} {R : α → List β → Prop} {Good : List β → Prop}
    (hgood : ∀ {acc bs}, Good (acc ++ bs) → Good acc)
    {xs : List α} (hstep : ∀ acc x acc', x ∈ xs → Good acc →
      (f acc x = .ok acc' ↔ ∃ bs, R x bs ∧ Good (acc ++ bs) ∧ acc' = acc ++ bs))
    {acc acc' : List β} (hacc : Good acc) :
    xs.foldlM f acc = .ok acc' ↔ ∃ bss, List.Forall₂ R xs bss ∧ Good (acc ++ bss.flatten) ∧ acc' = acc ++ bss.flatten := by
  induction xs generalizing acc acc' with
  | nil =>
    constructor
    · intro h
      cases h
      exact ⟨[], .nil, by simpa using hacc, by simp⟩
    · rintro ⟨bss, hbss, -, rfl⟩
      cases hbss
      simp only [List.flatten_nil, List.append_nil]
      rfl
  | cons x xs ih =>
    rw [List.foldlM_cons, bind_ok_iff]
    constructor
    · rintro ⟨acc₁, hx, hxs⟩
      obtain ⟨bs, hbs, hgood₁, rfl⟩ := (hstep _ _ _ List.mem_cons_self hacc).mp hx
      obtain ⟨bss, hbss, hgood', rfl⟩ := (ih (fun acc y acc' hy => hstep acc y acc' (List.mem_cons_of_mem _ hy)) hgood₁).mp hxs
      rw [List.append_assoc] at hgood'
      exact ⟨bs :: bss, .cons hbs hbss, hgood', by rw [List.flatten_cons, List.append_assoc]⟩
    · rintro ⟨bss, hbss, hgood', rfl⟩
      cases hbss with
      | @cons _ bs _ bss hbs hbss =>
        rw [List.flatten_cons, ← List.append_assoc] at hgood' ⊢
        exact ⟨acc ++ bs, (hstep _ _ _ List.mem_cons_self hacc).mpr ⟨bs, hbs, hgood hgood', rfl⟩,
          (ih (fun acc y acc' hy => hstep acc y acc' (List.mem_cons_of_mem _ hy)) (hgood hgood')).mpr ⟨bss, hbss, hgood', rfl⟩⟩

end Fallible
