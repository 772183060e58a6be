/-
Groups told apart by a label. Places are put into groups, and every place of a
group with another member is tagged with the least label of the group. The
tags say less than the groups: two groups with one least label are tagged as
their union is. The groups can be told from the tags, the labels and the kinds
of the places just when no four places that are tagged alike, and are of one
kind, have the tag as the label of two of them.
-/
import Mathlib.Data.Set.Finite.Lemmas
import Mathlib.Data.Setoid.Basic
import Mathlib.Order.Bounds.Basic

namespace SharedLabels

variable {ι σ κ : Type} [LinearOrder σ] (label : ι → σ) (kind : ι → κ)

/-- The tag of a place: the least label of its group, where there are others in the group. -/
def Tags (r : Setoid ι) (i : ι) (s : σ) : Prop := (∃ j, j ≠ i ∧ r i j) ∧ IsLeast (label '' {j | r i j}) s

section tags

variable {label} {r : Setoid ι} {i j : ι} {s s' : σ}

theorem Tags.unique (h : Tags label r i s) (h' : Tags label r i s') : s = s' := h.2.unique h'.2

/-- The members of a group have one tag. -/
theorem Tags.of_rel (h : Tags label r i s) (hij : r i j) : Tags label r j s := by
  have hgroup : {k | r j k} = {k | r i k} := by
    ext k
    exact ⟨fun hjk => r.trans hij hjk, fun hik => r.trans (r.symm hij) hik⟩
  refine ⟨?_, hgroup ▸ h.2⟩
  by_cases hj : j = i
  · exact hj ▸ h.1
  · exact ⟨i, fun hi => hj hi.symm, r.symm hij⟩

/-- The member whose label is the tag. -/
theorem Tags.exists_least (h : Tags label r i s) : ∃ j, r i j ∧ label j = s := by
  obtain ⟨j, hj, hs⟩ := h.2.1
  exact ⟨j, hj, hs⟩

theorem exists_tags [Finite ι] (hij : r i j) (hne : j ≠ i) : ∃ s, Tags label r i s := by
  obtain ⟨k, hk, hleast⟩ := Set.exists_min_image {k | r i k} label (Set.toFinite _) ⟨i, r.refl i⟩
  refine ⟨label k, ⟨j, hne, hij⟩, ⟨k, hk, rfl⟩, ?_⟩
  rintro _ ⟨l, hl, rfl⟩
  exact hleast l hl

end tags

/-- Two groupings that tag alike. -/
def SameTags (r r' : Setoid ι) : Prop := ∀ i s, Tags label r i s ↔ Tags label r' i s

/-- Four places tagged alike and of one kind, two of them with the tag as label. -/
def Ambiguous (r : Setoid ι) : Prop :=
  ∃ s k p q x y, [p, q, x, y].Nodup ∧ (∀ i ∈ [p, q, x, y], Tags label r i s ∧ kind i = k) ∧ label p = s ∧ label q = s

variable {label kind} {r r' : Setoid ι}

/-- Places of one group stay together where the tags are kept, else the two groups they go to are ambiguous. -/
theorem rel_of_sameTags [Finite ι] (hkind : ∀ i j, r i j → kind i = kind j) (hkind' : ∀ i j, r' i j → kind i = kind j)
    (htags : SameTags label r r') (hr : ¬ Ambiguous label kind r) {i j : ι} (hij : r i j) : r' i j := by
  by_contra hapart
  have hne : j ≠ i := fun h => hapart (h ▸ r'.refl i)
  obtain ⟨s, hi⟩ : ∃ s, Tags label r i s := exists_tags hij hne
  have hi' := (htags i s).mp hi
  have hj' := (htags j s).mp (hi.of_rel hij)
  -- the least member and another one of either group
  have hpair : ∀ i, Tags label r' i s → ∃ p x, p ≠ x ∧ r' i p ∧ r' i x ∧ label p = s := by
    intro i h
    obtain ⟨p, hp, hlabel⟩ := h.exists_least
    obtain ⟨x, hx, hpx⟩ := (h.of_rel hp).1
    exact ⟨p, x, hx.symm, hp, r'.trans hp hpx, hlabel⟩
  obtain ⟨p, x, hpx, hip, hix, hp⟩ := hpair i hi'
  obtain ⟨q, y, hqy, hjq, hjy, hq⟩ := hpair j hj'
  have hdistinct : ∀ {a b}, r' i a → r' j b → a ≠ b := by
    intro a b ha hb hab
    exact hapart (r'.trans ha (r'.symm (hab ▸ hb)))
  refine hr ⟨s, kind i, p, q, x, y, ?_, ?_, hp, hq⟩
  · simp [hdistinct hip hjq, hpx, hdistinct hip hjy, (hdistinct hix hjq).symm, hqy, hdistinct hix hjy]
  · intro a ha
    have hsides : r' i a ∨ r' j a := by
      simp only [List.mem_cons, List.not_mem_nil, or_false] at ha
      rcases ha with rfl | rfl | rfl | rfl <;> simp [*]
    rcases hsides with h | h
    · exact ⟨(htags a s).mpr (hi'.of_rel h), (hkind' i a h).symm⟩
    · exact ⟨(htags a s).mpr (hj'.of_rel h), (hkind' j a h).symm.trans (hkind i j hij).symm⟩

/-- The groups of the places that are tagged alike and of one kind, cut in two by a set. -/
def regroup (label : ι → σ) (kind : ι → κ) (r : Setoid ι) (cut : Set ι) : Setoid ι where
  r i j := i = j ∨ kind i = kind j ∧ (i ∈ cut ↔ j ∈ cut) ∧ ∃ s, Tags label r i s ∧ Tags label r j s
  iseqv := by
    constructor
    · intro i
      exact .inl rfl
    · intro i j h
      rcases h with rfl | ⟨hkind, hcut, s, hi, hj⟩
      · exact .inl rfl
      · exact .inr ⟨hkind.symm, hcut.symm, s, hj, hi⟩
    · intro i j k hij hjk
      rcases hij with rfl | ⟨hkind, hcut, s, hi, hj⟩
      · exact hjk
      rcases hjk with rfl | ⟨hkind', hcut', s', hj', hk⟩
      · exact .inr ⟨hkind, hcut, s, hi, hj⟩
      · exact .inr ⟨hkind.trans hkind', hcut.trans hcut', s, hi, hj.unique hj' ▸ hk⟩

theorem regroup_kind {cut : Set ι} {i j : ι} (h : regroup label kind r cut i j) : kind i = kind j := by
  rcases h with rfl | ⟨hkind, -⟩
  · rfl
  · exact hkind

/-- Regrouping keeps the tags when every place stays with another one, and with one whose label is the tag. -/
theorem regroup_sameTags {cut : Set ι}
    (hstays : ∀ i s, Tags label r i s → (∃ j, j ≠ i ∧ regroup label kind r cut i j) ∧
      ∃ j, regroup label kind r cut i j ∧ label j = s) : SameTags label r (regroup label kind r cut) := by
  have htags : ∀ i s, Tags label r i s → Tags label (regroup label kind r cut) i s := by
    intro i s h
    obtain ⟨hother, p, hp, hlabel⟩ := hstays i s h
    refine ⟨hother, ⟨p, hp, hlabel⟩, ?_⟩
    rintro _ ⟨j, hj, rfl⟩
    rcases hj with rfl | ⟨-, -, s', hi, hj⟩
    · exact h.2.2 ⟨i, r.refl i, rfl⟩
    · exact h.unique hi ▸ hj.2.2 ⟨j, r.refl j, rfl⟩
  refine fun i s => ⟨htags i s, fun h => ?_⟩
  obtain ⟨j, hne, hj⟩ := h.1
  rcases hj with rfl | ⟨-, -, s', hi, -⟩
  · exact absurd rfl hne
  · exact (htags i s' hi).unique h ▸ hi

section cut

variable {p q x y : ι} {s : σ} {k : κ}

theorem regroup_of_rel (hkind : ∀ i j, r i j → kind i = kind j) {cut : Set ι} {i j : ι} (h : Tags label r i s)
    (hij : r i j) (hcut : i ∈ cut ↔ j ∈ cut) : regroup label kind r cut i j :=
  .inr ⟨hkind i j hij, hcut, s, h, h.of_rel hij⟩

/-- The places tagged alike stay together. -/
theorem regroup_whole (hkind : ∀ i j, r i j → kind i = kind j) : SameTags label r (regroup label kind r ∅) := by
  refine regroup_sameTags fun i s h => ?_
  obtain ⟨j, hne, hj⟩ := h.1
  obtain ⟨l, hl, hlabel⟩ := h.exists_least
  exact ⟨⟨j, hne, regroup_of_rel hkind h hj (by simp)⟩, l, regroup_of_rel hkind h hl (by simp), hlabel⟩

/-- Two of four places that are tagged alike leave the others. -/
theorem regroup_cut (hkind : ∀ i j, r i j → kind i = kind j) (hnodup : [p, q, x, y].Nodup)
    (hall : ∀ i ∈ [p, q, x, y], Tags label r i s ∧ kind i = k) (hp : label p = s) (hq : label q = s) :
    SameTags label r (regroup label kind r {p, x}) := by
  simp only [List.nodup_cons, List.mem_cons, List.not_mem_nil, or_false, not_or] at hnodup
  obtain ⟨⟨hpq, hpx, hpy⟩, ⟨hqx, hqy⟩, hxy, -⟩ := hnodup
  have hlumped : ∀ {i j}, Tags label r i s → kind i = k → j ∈ [p, q, x, y] → (i ∈ ({p, x} : Set ι) ↔ j ∈ ({p, x} : Set ι)) →
      regroup label kind r {p, x} i j := by
    intro i j hi hk hj hcut
    exact .inr ⟨hk.trans (hall j hj).2.symm, hcut, s, hi, (hall j hj).1⟩
  refine regroup_sameTags fun i t h => ?_
  by_cases hi : t = s ∧ kind i = k
  · obtain ⟨rfl, hk⟩ := hi
    by_cases hcut : i ∈ ({p, x} : Set ι)
    · have hpair : ∀ j ∈ ({p, x} : Set ι), regroup label kind r {p, x} i j := by
        intro j hj
        refine hlumped h hk ?_ (iff_of_true hcut hj)
        rcases hj with rfl | rfl <;> simp
      refine ⟨?_, p, hpair p (by simp), hp⟩
      rcases hcut with rfl | rfl
      · exact ⟨x, Ne.symm hpx, hpair x (by simp)⟩
      · exact ⟨p, hpx, hpair p (by simp)⟩
    · have hpair : ∀ j ∈ [q, y], regroup label kind r {p, x} i j := by
        intro j hj
        simp only [List.mem_cons, List.not_mem_nil, or_false] at hj
        rcases hj with rfl | rfl
        · exact hlumped h hk (by simp) (iff_of_false hcut (by simp [hqx, Ne.symm hpq]))
        · exact hlumped h hk (by simp) (iff_of_false hcut (by simp [Ne.symm hxy, Ne.symm hpy]))
      refine ⟨?_, q, hpair q (by simp), hq⟩
      by_cases hiq : i = q
      · exact ⟨y, fun h => hqy (hiq.symm.trans h.symm), hpair y (by simp)⟩
      · exact ⟨q, Ne.symm hiq, hpair q (by simp)⟩
  · have hout : ∀ j, r i j → j ∉ ({p, x} : Set ι) := by
      intro j hj hcut
      have htags : Tags label r j s ∧ kind j = k := by
        rcases hcut with rfl | rfl
        · exact hall _ (by simp)
        · exact hall _ (by simp)
      exact hi ⟨(h.of_rel hj).unique htags.1, (hkind i j hj).trans htags.2⟩
    have hstays : ∀ j, r i j → regroup label kind r {p, x} i j := fun j hj =>
      regroup_of_rel hkind h hj (iff_of_false (hout i (r.refl i)) (hout j hj))
    obtain ⟨j, hne, hj⟩ := h.1
    obtain ⟨l, hl, hlabel⟩ := h.exists_least
    exact ⟨⟨j, hne, hstays j hj⟩, l, hstays l hl, hlabel⟩

end cut

/-- **Determination.** The tags determine the groups just when these are not ambiguous. -/
theorem determined_iff [Finite ι] (hkind : ∀ i j, r i j → kind i = kind j) :
    (∀ r' : Setoid ι, (∀ i j, r' i j → kind i = kind j) → SameTags label r r' → r' = r) ↔
      ¬ Ambiguous label kind r := by
  constructor
  · rintro hdetermined ⟨s, k, p, q, x, y, hnodup, hall, hp, hq⟩
    have hwhole := hdetermined _ (fun _ _ => regroup_kind) (regroup_whole hkind)
    have hcut := hdetermined _ (fun _ _ => regroup_kind) (regroup_cut hkind hnodup hall hp hq)
    have hpq : regroup label kind r ∅ p q := by
      have hp := hall p (by simp)
      have hq := hall q (by simp)
      exact .inr ⟨hp.2.trans hq.2.symm, by simp, s, hp.1, hq.1⟩
    rw [hwhole, ← hcut] at hpq
    simp only [List.nodup_cons, List.mem_cons, List.not_mem_nil, or_false, not_or] at hnodup
    rcases hpq with h | ⟨-, hsides, -⟩
    · exact hnodup.1.1 h
    · exact absurd (hsides.mp (by simp)) (by simp [hnodup.2.1.1, Ne.symm hnodup.1.1])
  · intro hr r' hkind' htags
    ext i j
    constructor
    · intro hij
      refine rel_of_sameTags hkind' hkind (fun i s => (htags i s).symm) (fun hambiguous => hr ?_) hij
      obtain ⟨s, k, p, q, x, y, hnodup, hall, hp, hq⟩ := hambiguous
      exact ⟨s, k, p, q, x, y, hnodup, fun i hi => ⟨(htags i s).mpr (hall i hi).1, (hall i hi).2⟩, hp, hq⟩
    · exact fun hij => rel_of_sameTags hkind hkind' htags hr hij

end SharedLabels
