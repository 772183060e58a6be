/-
The linear scan for a maximum: keep the first element that is strictly above
all before it. For a comparison that is a weak order with a least element to
start from, the scan ends at the first maximum; where the comparison is by a key,
a list with an element has exactly one.
-/
import Mathlib.Algebra.Order.Ring.Int

namespace FirstMax

variable {F : Type} {gt : F → F → Bool} {bot : F}

/-- A strict comparison whose incomparability is transitive, with `bot` above nothing. -/
structure WeakOrder (gt : F → F → Bool) (bot : F) : Prop where
  split : ∀ x y z, gt x z = true → gt x y = true ∨ gt y z = true
  bot_least : ∀ x, gt bot x = false

/-- A weak order on the elements of a set, with `bot` among them. -/
structure WeakOrderOn (gt : F → F → Bool) (bot : F) (S : F → Prop) : Prop where
  bot_mem : S bot
  split : ∀ x y z, S x → S y → S z → gt x z = true → gt x y = true ∨ gt y z = true
  bot_least : ∀ x, S x → gt bot x = false

theorem WeakOrder.on (h : WeakOrder gt bot) : WeakOrderOn gt bot fun _ => True :=
  ⟨trivial, fun x y z _ _ _ => h.split x y z, fun x _ => h.bot_least x⟩

/-- `i` is where `l` has its maximum for the first time. -/
def IsFirstMax (gt : F → F → Bool) (l : List F) (i : Nat) : Prop :=
  ∃ before m after, l = before ++ m :: after ∧ before.length = i ∧
    (∀ x ∈ before, gt m x = true) ∧ ∀ x ∈ after, gt x m = false

theorem isFirstMax_congr {gt' : F → F → Bool} {l : List F} {i : Nat} (h : ∀ x ∈ l, ∀ y ∈ l, gt x y = gt' x y) :
    IsFirstMax gt l i ↔ IsFirstMax gt' l i := by
  unfold IsFirstMax
  refine exists_congr fun before => exists_congr fun m => exists_congr fun after => and_congr_right fun hl => ?_
  subst hl
  refine and_congr_right fun _ => and_congr (forall₂_congr fun x hx => ?_) (forall₂_congr fun x hx => ?_)
  · rw [h m (by simp) x (by simp [hx])]
  · rw [h x (by simp [hx]) m (by simp)]

/-- The scan, from the best pair of index and value so far, over elements numbered from `n` on. -/
def scan (gt : F → F → Bool) (best : Nat × F) (l : List F) (n : Nat) : Nat × F :=
  (l.zipIdx n).foldl (fun best v => if gt v.1 best.2 then (v.2, v.1) else best) best

theorem scan_cons (best : Nat × F) (x : F) (l : List F) (n : Nat) :
    scan gt best (x :: l) n = scan gt (if gt x best.2 then (n, x) else best) l (n + 1) := rfl

theorem scan_append (best : Nat × F) (l l' : List F) (n : Nat) :
    scan gt best (l ++ l') n = scan gt (scan gt best l n) l' (n + l.length) := by
  simp only [scan, List.zipIdx_append, List.foldl_append]

theorem scan_value (l : List F) : ∀ (best : Nat × F) (n : Nat),
    (scan gt best l n).2 = best.2 ∨ (scan gt best l n).2 ∈ l := by
  induction l with
  | nil => intro best n; exact .inl rfl
  | cons x l ih =>
    intro best n
    rw [scan_cons]
    rcases ih (if gt x best.2 then (n, x) else best) (n + 1) with h | h
    · rw [h]
      split
      · exact .inr (by simp)
      · exact .inl rfl
    · exact .inr (by simp [h])

/-- The scan ends at its start or at an element. -/
theorem scan_index (l : List F) : ∀ (best : Nat × F) (n : Nat),
    (scan gt best l n).1 = best.1 ∨ (scan gt best l n).1 < n + l.length := by
  induction l with
  | nil => exact fun best n => .inl rfl
  | cons x l ih =>
    intro best n
    rw [scan_cons, List.length_cons]
    rcases ih (if gt x best.2 then (n, x) else best) (n + 1) with h | h
    · rw [h]
      split
      · exact .inr (by show n < _; omega)
      · exact .inl rfl
    · exact .inr (by omega)

theorem scan_below (l : List F) : ∀ (best : Nat × F) (n : Nat), (∀ x ∈ l, gt x best.2 = false) →
    scan gt best l n = best := by
  induction l with
  | nil => intro best n _; rfl
  | cons x l ih =>
    intro best n h
    rw [scan_cons, h x (by simp), if_neg (by simp)]
    exact ih best (n + 1) fun y hy => h y (by simp [hy])

/-- The scan from the least element finds the first maximum of a list in the set. -/
theorem scan_eq_on {S : F → Prop} (hgt : WeakOrderOn gt bot S) {l : List F} {i : Nat} (hl : ∀ x ∈ l, S x)
    (h : IsFirstMax gt l i) : (scan gt (0, bot) l 0).1 = i := by
  obtain ⟨before, m, after, rfl, rfl, hbefore, hafter⟩ := h
  have hSm : S m := hl m (by simp)
  rw [scan_append, Nat.zero_add, scan_cons]
  by_cases hm : gt m (scan gt (0, bot) before 0).2 = true
  · rw [if_pos hm, scan_below after _ _ hafter]
  · -- Nothing beats the start value: the maximum is no more than it, and comes first.
    rw [if_neg hm]
    rw [Bool.not_eq_true] at hm
    have hbot : (scan gt (0, bot) before 0).2 = bot := by
      rcases scan_value before (0, bot) 0 with h | h
      · exact h
      · rw [hbefore _ h] at hm; cases hm
    have hnil : before = [] := by
      cases before with
      | nil => rfl
      | cons x rest =>
        exfalso
        have hSx : S x := hl x (by simp)
        rcases hgt.split m bot x hSm hgt.bot_mem hSx (hbefore x (by simp)) with h | h
        · rw [hbot, h] at hm; cases hm
        · rw [hgt.bot_least x hSx] at h; cases h
    subst hnil
    rw [scan_below after _ _ ?_]
    · rfl
    · intro x hx
      rw [hbot] at hm ⊢
      apply Classical.byContradiction
      intro hxb
      rw [Bool.not_eq_false] at hxb
      rcases hgt.split x m bot (hl x (by simp [hx])) hSm hgt.bot_mem hxb with h | h
      · rw [hafter x hx] at h; cases h
      · rw [hm] at h; cases h

theorem scan_eq (hgt : WeakOrder gt bot) {l : List F} {i : Nat} (h : IsFirstMax gt l i) :
    (scan gt (0, bot) l 0).1 = i :=
  scan_eq_on hgt.on (fun _ _ => trivial) h

/-! ## Comparisons by a key -/

section key

variable {κ : Type} [LinearOrder κ] {key : F → κ} {l : List F} {i j : Nat}

/-- Whether the key of the first is greater. -/
def byKey (key : F → κ) (x y : F) : Bool := decide (key y < key x)

theorem exists_isFirstMax (h : l ≠ []) : ∃ i, IsFirstMax (byKey key) l i := by
  induction l with
  | nil => exact absurd rfl h
  | cons x l ih =>
    cases l with
    | nil => exact ⟨0, [], x, [], rfl, rfl, by simp, by simp⟩
    | cons y l =>
      obtain ⟨i, before, m, after, hl, hi, hbefore, hafter⟩ := ih (by simp)
      simp only [byKey, decide_eq_true_eq, decide_eq_false_iff_not, not_lt] at hbefore hafter
      by_cases hx : key x < key m
      · refine ⟨i + 1, x :: before, m, after, by rw [hl]; rfl, by simp [hi], ?_, ?_⟩
        · simpa [byKey, hx] using hbefore
        · simpa [byKey] using hafter
      · rw [not_lt] at hx
        refine ⟨0, [], x, y :: l, rfl, rfl, by simp, fun z hz => ?_⟩
        rw [hl] at hz
        simp only [byKey, decide_eq_false_iff_not, not_lt]
        rcases List.mem_append.mp hz with hz | hz
        · exact (hbefore z hz).le.trans hx
        · cases hz with
          | head => exact hx
          | tail _ hz => exact (hafter z hz).trans hx

/-- Every element's key is at most that of a first maximum, and less before it. -/
theorem IsFirstMax.le (h : IsFirstMax (byKey key) l i) : ∃ m, l[i]? = some m ∧
    ∀ k x, l[k]? = some x → key x ≤ key m ∧ (k < i → key x < key m) := by
  obtain ⟨before, m, after, rfl, rfl, hbefore, hafter⟩ := h
  simp only [byKey, decide_eq_true_eq, decide_eq_false_iff_not, not_lt] at hbefore hafter
  refine ⟨m, by simp, fun k x hx => ?_⟩
  by_cases hk : k < before.length
  · rw [List.getElem?_append_left hk] at hx
    have hlt := hbefore x (List.mem_of_getElem? hx)
    exact ⟨hlt.le, fun _ => hlt⟩
  · rw [List.getElem?_append_right (by omega)] at hx
    refine ⟨?_, fun h => absurd h hk⟩
    rcases List.mem_cons.mp (List.mem_of_getElem? hx) with rfl | hx
    · exact le_rfl
    · exact hafter x hx

theorem IsFirstMax.unique (hi : IsFirstMax (byKey key) l i) (hj : IsFirstMax (byKey key) l j) : i = j := by
  obtain ⟨m, hm, hle⟩ := hi.le
  obtain ⟨m', hm', hle'⟩ := hj.le
  rcases lt_trichotomy i j with h | h | h
  · exact absurd ((hle' i m hm).2 h) (not_lt.mpr (hle j m' hm').1)
  · exact h
  · exact absurd ((hle j m' hm').2 h) (not_lt.mpr (hle' i m hm).1)

/-- An element whose key is the greatest, and greater than those before it, is a first maximum. -/
theorem isFirstMax_of_le {m : F} (hm : l[i]? = some m)
    (hle : ∀ k x, l[k]? = some x → key x ≤ key m ∧ (k < i → key x < key m)) : IsFirstMax (byKey key) l i := by
  obtain ⟨hi, rfl⟩ := List.getElem?_eq_some_iff.mp hm
  refine ⟨l.take i, l[i], l.drop (i + 1), ?_, by rw [List.length_take]; omega, fun x hx => ?_, fun x hx => ?_⟩
  · rw [← List.drop_eq_getElem_cons hi, List.take_append_drop]
  · obtain ⟨k, hk⟩ := List.mem_iff_getElem?.mp hx
    rw [List.getElem?_take] at hk
    split at hk
    case isTrue hki => exact decide_eq_true ((hle k x hk).2 hki)
    case isFalse => cases hk
  · obtain ⟨k, hk⟩ := List.mem_iff_getElem?.mp hx
    rw [List.getElem?_drop] at hk
    exact decide_eq_false (not_lt.mpr (hle _ x hk).1)

end key

end FirstMax
