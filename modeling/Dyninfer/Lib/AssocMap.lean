/-
Maps as association lists: the first entry of a key decides. The lemmas say
what a lookup finds after one insertion and after a list of them, where the
last insertion of a key wins, or after those of the keys that are absent. A
loop that refuses a second value for a key builds a map of all its items.
-/
import Dyninfer.Lib.Fallible
import Mathlib.Data.List.Nodup

abbrev AssocMap (κ ν : Type) := List (κ × ν)

namespace AssocMap

variable {κ ν α : Type} [BEq κ] [LawfulBEq κ]

def get (m : AssocMap κ ν) (key : κ) : Option ν := m.lookup key

def insert (m : AssocMap κ ν) (key : κ) (v : ν) : AssocMap κ ν :=
  (key, v) :: m.filter fun e => e.1 != key

/-- Insert where the key is absent. -/
def orInsert (m : AssocMap κ ν) (key : κ) (v : ν) : AssocMap κ ν :=
  if (m.get key).isSome then m else m.insert key v

/-- Insert the entries whose keys are absent. -/
def orInsertAll (m entries : AssocMap κ ν) : AssocMap κ ν := entries.foldl (fun m e => m.orInsert e.1 e.2) m

/-- The two maps have the same entries. -/
def sameEntries [BEq ν] (m m' : AssocMap κ ν) : Bool := (m ++ m').all fun e => m.get e.1 == m'.get e.1

theorem get_insert_self (m : AssocMap κ ν) (key : κ) (v : ν) : (m.insert key v).get key = some v := by
  simp [get, insert]

theorem get_insert_ne (m : AssocMap κ ν) {key key' : κ} (v : ν) (h : key' ≠ key) :
    (m.insert key v).get key' = m.get key' := by
  have hne : (key' == key) = false := beq_eq_false_iff_ne.mpr h
  simp only [get, insert, List.lookup_cons, hne]
  induction m with
  | nil => rfl
  | cons e m ih =>
    obtain ⟨k, w⟩ := e
    by_cases hk : k = key
    · subst hk
      simp only [List.filter_cons, bne_self_eq_false, Bool.false_eq_true, if_false, List.lookup_cons, hne]
      exact ih
    · simp only [List.filter_cons, bne_iff_ne.mpr hk, if_true, List.lookup_cons, ih]

theorem get_insert [DecidableEq κ] (m : AssocMap κ ν) (key key' : κ) (v : ν) :
    (m.insert key v).get key' = if key' = key then some v else m.get key' := by
  split
  case isTrue h => rw [h, get_insert_self]
  case isFalse h => rw [get_insert_ne m v h]

theorem get_isSome_of_mem {m : AssocMap κ ν} {e : κ × ν} (h : e ∈ m) : (m.get e.1).isSome :=
  List.lookup_isSome_iff.mpr ⟨e, h, BEq.rfl⟩

theorem mem_of_get {m : AssocMap κ ν} {key : κ} {v : ν} (h : m.get key = some v) : (key, v) ∈ m := by
  obtain ⟨before, after, rfl, -⟩ := List.lookup_eq_some_iff.mp h
  simp

theorem get_of_mem {m : AssocMap κ ν} (h : (m.map Prod.fst).Nodup) {key : κ} {v : ν} (hmem : (key, v) ∈ m) :
    m.get key = some v := by
  induction m with
  | nil => cases hmem
  | cons e m ih =>
    obtain ⟨k, w⟩ := e
    rw [List.map_cons, List.nodup_cons] at h
    rcases List.mem_cons.mp hmem with heq | hin
    · cases heq
      exact List.lookup_cons_self
    · have hne : (key == k) = false := by
        rw [beq_eq_false_iff_ne]
        intro heq
        have hkey : key ∈ m.map Prod.fst := List.mem_map_of_mem hin
        exact h.1 (heq ▸ hkey)
      rw [get, List.lookup_cons, hne]
      exact ih h.2 hin

theorem insert_of_get_eq_none {m : AssocMap κ ν} {key : κ} (h : m.get key = none) (v : ν) :
    m.insert key v = (key, v) :: m := by
  have hne : ∀ e ∈ m, (e.1 != key) = true := fun e he =>
    bne_iff_ne.mpr fun heq => absurd (List.lookup_eq_none_iff.mp h e he) (by simp [heq])
  rw [insert, List.filter_eq_self.mpr hne]

theorem get_orInsert [DecidableEq κ] (m : AssocMap κ ν) (key key' : κ) (v : ν) :
    (m.orInsert key v).get key' = (m.get key').or (if key' = key then some v else none) := by
  unfold orInsert
  split
  · next h =>
    split
    · next heq =>
      subst heq
      obtain ⟨w, hw⟩ := Option.isSome_iff_exists.mp h
      rw [hw]; rfl
    · rw [Option.or_none]
  · next h =>
    rw [get_insert]
    split
    · next heq => rw [heq, Option.not_isSome_iff_eq_none.mp h]; rfl
    · rw [Option.or_none]

omit [LawfulBEq κ] in
theorem orInsertAll_of_isSome (m : AssocMap κ ν) {entries : AssocMap κ ν}
    (h : ∀ e ∈ entries, (m.get e.1).isSome) : m.orInsertAll entries = m := by
  unfold orInsertAll
  induction entries with
  | nil => rfl
  | cons e entries ih =>
    rw [List.foldl_cons, orInsert, if_pos (h e List.mem_cons_self)]
    exact ih fun e' he' => h e' (List.mem_cons_of_mem _ he')

/-- A map takes over the one entry it was extended by. -/
theorem orInsertAll_orInsert (m : AssocMap κ ν) (key : κ) (v : ν) :
    m.orInsertAll (m.orInsert key v) = m.orInsert key v := by
  have hself : ∀ e ∈ m, (m.get e.1).isSome := fun e => get_isSome_of_mem
  unfold orInsert
  split
  · exact orInsertAll_of_isSome m hself
  · next h =>
    have hnone : m.get key = none := Option.not_isSome_iff_eq_none.mp h
    rw [insert_of_get_eq_none hnone, orInsertAll, List.foldl_cons, orInsert, if_neg h, insert_of_get_eq_none hnone]
    exact orInsertAll_of_isSome _ fun e he => get_isSome_of_mem (List.mem_cons_of_mem _ he)

/-- Insert what a list of items gives, in its order. -/
def insertAll (m : AssocMap κ ν) (key : α → κ) (value : α → ν) (xs : List α) : AssocMap κ ν :=
  xs.foldl (fun m x => m.insert (key x) (value x)) m

theorem get_insertAll [DecidableEq κ] (m : AssocMap κ ν) (key : α → κ) (value : α → ν) (xs : List α) (k : κ) :
    (m.insertAll key value xs).get k = ((xs.reverse.find? (key · == k)).map value).or (m.get k) := by
  unfold insertAll
  induction xs generalizing m with
  | nil => rfl
  | cons x xs ih =>
    rw [List.foldl_cons, ih, get_insert, List.reverse_cons, List.find?_append]
    by_cases h : key x = k
    · cases xs.reverse.find? (key · == k) <;> simp [h]
    · simp [h, Ne.symm h]

theorem get_insertAll_of_not_mem (m : AssocMap κ ν) {key : α → κ} {value : α → ν} {xs : List α} {k : κ}
    (h : ∀ x ∈ xs, key x ≠ k) : (m.insertAll key value xs).get k = m.get k := by
  unfold insertAll
  induction xs generalizing m with
  | nil => rfl
  | cons x xs ih =>
    rw [List.foldl_cons, ih _ fun y hy => h y (List.mem_cons_of_mem _ hy),
      get_insert_ne _ _ (h x List.mem_cons_self).symm]

omit [LawfulBEq κ] in
/-- Steps that keep an entry keep it over a list. -/
theorem get_foldl_kept {step : AssocMap κ ν → α → AssocMap κ ν} {k : κ} {xs : List α}
    (h : ∀ x ∈ xs, ∀ m, (step m x).get k = m.get k) (m : AssocMap κ ν) : (xs.foldl step m).get k = m.get k := by
  induction xs generalizing m with
  | nil => rfl
  | cons x xs ih =>
    rw [List.foldl_cons, ih fun y hy => h y (List.mem_cons_of_mem _ hy), h x List.mem_cons_self]

/-- The last item of a key decides. -/
theorem get_insertAll_append (m : AssocMap κ ν) {key : α → κ} {value : α → ν} {before after : List α} {x : α}
    (h : ∀ y ∈ after, key y ≠ key x) :
    (m.insertAll key value (before ++ x :: after)).get (key x) = some (value x) := by
  have hcut : m.insertAll key value (before ++ x :: after) =
      (((m.insertAll key value before).insert (key x) (value x)).insertAll key value after) := by
    simp only [insertAll, List.foldl_append, List.foldl_cons]
  rw [hcut, get_insertAll_of_not_mem _ h, get_insert_self]

/-- A lookup finds the last item of its key, or what was there before. -/
theorem get_insertAll_cases [DecidableEq κ] (m : AssocMap κ ν) (key : α → κ) (value : α → ν) (xs : List α) (k : κ) :
    ((∀ x ∈ xs, key x ≠ k) ∧ (m.insertAll key value xs).get k = m.get k) ∨
      ∃ before x after, xs = before ++ x :: after ∧ key x = k ∧ (∀ y ∈ after, key y ≠ k) ∧
        (m.insertAll key value xs).get k = some (value x) := by
  by_cases h : ∃ x ∈ xs, key x = k
  · right
    have hfind : (xs.reverse.find? fun x => decide (key x = k)).isSome := by
      rw [List.find?_isSome]
      obtain ⟨x, hx, hk⟩ := h
      exact ⟨x, List.mem_reverse.mpr hx, by simpa using hk⟩
    obtain ⟨x, hx⟩ := Option.isSome_iff_exists.mp hfind
    obtain ⟨hk, as, bs, hsplit, has⟩ := List.find?_eq_some_iff_append.mp hx
    have hk : key x = k := by simpa using hk
    have hxs : xs = bs.reverse ++ x :: as.reverse := by
      rw [← List.reverse_reverse xs, hsplit]; simp
    have hafter : ∀ y ∈ as.reverse, key y ≠ k := fun y hy => by
      simpa using has y (List.mem_reverse.mp hy)
    refine ⟨bs.reverse, x, as.reverse, hxs, hk, hafter, ?_⟩
    rw [hxs, ← hk]
    exact get_insertAll_append m fun y hy => hk ▸ hafter y hy
  · left
    have hno : ∀ x ∈ xs, key x ≠ k := fun x hx hk => h ⟨x, hx, hk⟩
    exact ⟨hno, get_insertAll_of_not_mem m hno⟩

/-! ## Maps of pairs -/

omit [LawfulBEq κ] in
theorem insertAll_map (m : AssocMap κ ν) (key : α → κ) (value : α → ν) (xs : List α) :
    m.insertAll Prod.fst Prod.snd (xs.map fun x => (key x, value x)) = m.insertAll key value xs := List.foldl_map

/-- A map built of pairs with distinct keys has those pairs. -/
theorem get_insertAll_iff [DecidableEq κ] {pairs : List (κ × ν)} (h : (pairs.map Prod.fst).Nodup) {k : κ} {v : ν} :
    (insertAll [] Prod.fst Prod.snd pairs).get k = some v ↔ (k, v) ∈ pairs := by
  obtain ⟨hno, hget⟩ | ⟨before, pair, after, hpairs, hkey, -, hget⟩ := get_insertAll_cases [] Prod.fst Prod.snd pairs k
  · rw [hget]
    exact ⟨nofun, fun hmem => absurd rfl (hno _ hmem)⟩
  · have hpair : pair ∈ pairs := hpairs ▸ List.mem_append_right _ List.mem_cons_self
    rw [hget, Option.some_inj]
    constructor
    · rintro rfl
      rwa [← hkey]
    · intro hmem
      rw [List.inj_on_of_nodup_map h hpair hmem hkey]

/-- The order in which distinct keys are inserted does not matter. -/
theorem get_insertAll_perm [DecidableEq κ] {pairs pairs' : List (κ × ν)} (h : (pairs.map Prod.fst).Nodup)
    (hperm : pairs.Perm pairs') (k : κ) :
    (insertAll [] Prod.fst Prod.snd pairs).get k = (insertAll [] Prod.fst Prod.snd pairs').get k := by
  ext v
  rw [get_insertAll_iff h, get_insertAll_iff ((hperm.map _).nodup h), hperm.mem_iff]

omit [LawfulBEq κ] in
theorem sameEntries_of_get [BEq ν] [ReflBEq ν] {m m' : AssocMap κ ν} (h : ∀ k, m.get k = m'.get k) :
    m.sameEntries m' = true := by
  simp only [sameEntries, h, beq_self_eq_true, List.all_eq_true, implies_true]

/-! ## Keys -/

theorem mem_insert_keys (m : AssocMap κ ν) (key k : κ) (v : ν) :
    k ∈ (m.insert key v).map (·.1) ↔ k = key ∨ k ∈ m.map (·.1) := by
  simp only [insert, List.map_cons, List.mem_cons, List.mem_map, List.mem_filter, bne_iff_ne]
  constructor
  · rintro (rfl | ⟨e, ⟨he, -⟩, rfl⟩)
    · exact .inl rfl
    · exact .inr ⟨e, he, rfl⟩
  · rintro (rfl | ⟨e, he, rfl⟩)
    · exact .inl rfl
    · by_cases h : e.1 = key
      · exact .inl h
      · exact .inr ⟨e, ⟨he, h⟩, rfl⟩

theorem mem_insertAll_keys (m : AssocMap κ ν) (key : α → κ) (value : α → ν) (xs : List α) (k : κ) :
    k ∈ (m.insertAll key value xs).map (·.1) ↔ k ∈ xs.map key ∨ k ∈ m.map (·.1) := by
  unfold insertAll
  induction xs generalizing m with
  | nil => simp
  | cons x xs ih =>
    rw [List.foldl_cons, ih, mem_insert_keys, List.map_cons, List.mem_cons, or_left_comm, or_assoc]

theorem mem_orInsert_keys (m : AssocMap κ ν) (key k : κ) (v : ν) :
    k ∈ (m.orInsert key v).map (·.1) ↔ k = key ∨ k ∈ m.map (·.1) := by
  unfold orInsert
  split
  case isTrue h =>
    obtain ⟨e, he, heq⟩ := List.lookup_isSome_iff.mp h
    have hkey : key ∈ m.map (·.1) := List.mem_map.mpr ⟨e, he, (eq_of_beq heq).symm⟩
    exact ⟨.inr, fun hk => hk.elim (fun hk => hk ▸ hkey) id⟩
  case isFalse => exact mem_insert_keys m key k v

theorem mem_orInsertAll_keys (m entries : AssocMap κ ν) (k : κ) :
    k ∈ (m.orInsertAll entries).map (·.1) ↔ k ∈ entries.map (·.1) ∨ k ∈ m.map (·.1) := by
  unfold orInsertAll
  induction entries generalizing m with
  | nil => simp
  | cons e entries ih =>
    rw [List.foldl_cons, ih, mem_orInsert_keys, List.map_cons, List.mem_cons, or_left_comm, or_assoc]

theorem insert_keys_nodup {m : AssocMap κ ν} (h : (m.map (·.1)).Nodup) (key : κ) (v : ν) :
    ((m.insert key v).map (·.1)).Nodup := by
  rw [insert, List.map_cons, List.nodup_cons]
  refine ⟨fun hkey => ?_, h.sublist (List.filter_sublist.map _)⟩
  obtain ⟨e, he, heq⟩ := List.mem_map.mp hkey
  exact bne_iff_ne.mp (List.mem_filter.mp he).2 heq

theorem orInsert_keys_nodup {m : AssocMap κ ν} (h : (m.map (·.1)).Nodup) (key : κ) (v : ν) :
    ((m.orInsert key v).map (·.1)).Nodup := by
  unfold orInsert
  split
  · exact h
  · exact insert_keys_nodup h key v

theorem orInsertAll_keys_nodup {m : AssocMap κ ν} (h : (m.map (·.1)).Nodup) (entries : AssocMap κ ν) :
    ((m.orInsertAll entries).map (·.1)).Nodup := by
  unfold orInsertAll
  induction entries generalizing m with
  | nil => exact h
  | cons e entries ih => exact ih (orInsert_keys_nodup h e.1 e.2)

theorem get_cons [DecidableEq κ] (e : κ × ν) (m : AssocMap κ ν) (k : κ) :
    get (e :: m) k = if k = e.1 then some e.2 else m.get k := by
  by_cases h : k = e.1
  · subst h
    simp only [get, if_true]
    exact List.lookup_cons_self
  · rw [if_neg h, get, List.lookup_cons, beq_eq_false_iff_ne.mpr h]
    rfl

theorem get_orInsertAll [DecidableEq κ] (m entries : AssocMap κ ν) (k : κ) :
    (m.orInsertAll entries).get k = (m.get k).or (entries.get k) := by
  unfold orInsertAll
  induction entries generalizing m with
  | nil => exact Option.or_none.symm
  | cons e entries ih =>
    rw [List.foldl_cons, ih, get_orInsert, Option.or_assoc, get_cons]
    split
    · rfl
    · rfl

/-! ## Items that agree -/

section agree

variable {ε : Type} {key : α → κ} {value : α → ν}

/-- Items of one key have one value. -/
def Agree (key : α → κ) (value : α → ν) (xs : List α) : Prop :=
  ∀ a ∈ xs, ∀ b ∈ xs, key a = key b → value a = value b

/-- The entries of a list of items. -/
def entriesOf (key : α → κ) (value : α → ν) (xs : List α) : AssocMap κ ν := xs.map fun x => (key x, value x)

theorem get_entriesOf_iff {xs : List α} (h : Agree key value xs) {k : κ} {v : ν} :
    (entriesOf key value xs).get k = some v ↔ ∃ x ∈ xs, key x = k ∧ value x = v := by
  have hmem : ∀ {w}, (k, w) ∈ entriesOf key value xs ↔ ∃ x ∈ xs, key x = k ∧ value x = w := by
    simp [entriesOf]
  constructor
  · exact fun hget => hmem.mp (mem_of_get hget)
  · intro hx
    obtain ⟨w, hw⟩ := Option.isSome_iff_exists.mp (get_isSome_of_mem (hmem.mpr hx))
    obtain ⟨x, hx, hkey, rfl⟩ := hx
    obtain ⟨y, hy, hkey', rfl⟩ := hmem.mp (mem_of_get hw)
    rw [h x hx y hy (hkey.trans hkey'.symm)]
    exact hw

/-- A loop that refuses an item that is not valid, and one whose key has another value already. -/
theorem foldlM_agree_iff [DecidableEq κ] {f : AssocMap κ ν → α → Except ε (AssocMap κ ν)} {Valid : α → Prop}
    (hstep : ∀ m x m', f m x = .ok m' ↔
      Valid x ∧ (∀ v, m.get (key x) = some v → v = value x) ∧ m' = m.orInsert (key x) (value x))
    {xs : List α} {m m' : AssocMap κ ν} : xs.foldlM f m = .ok m' ↔
      (∀ x ∈ xs, Valid x) ∧ (∀ x ∈ xs, ∀ v, m.get (key x) = some v → v = value x) ∧ Agree key value xs ∧
        m' = m.orInsertAll (entriesOf key value xs) := by
  induction xs generalizing m m' with
  | nil => simp [Agree, entriesOf, orInsertAll, pure, Except.pure, eq_comm]
  | cons x xs ih =>
    rw [List.foldlM_cons, Fallible.bind_ok_iff]
    constructor
    · rintro ⟨next, hnext, hrest⟩
      obtain ⟨hvalid, hagree, rfl⟩ := (hstep m x next).mp hnext
      obtain ⟨hvalids, hkept, hagrees, rfl⟩ := ih.mp hrest
      simp only [get_orInsert] at hkept
      have hkey : ∀ y ∈ xs, key y = key x → value x = value y := by
        intro y hy hyx
        cases hm : m.get (key x) with
        | none => exact hkept y hy _ (by rw [hyx, hm, if_pos rfl]; rfl)
        | some v => exact (hagree v hm).symm.trans (hkept y hy v (by rw [hyx, hm]; rfl))
      refine ⟨List.forall_mem_cons.mpr ⟨hvalid, hvalids⟩, List.forall_mem_cons.mpr ⟨hagree, fun y hy v hv => ?_⟩, ?_, rfl⟩
      · exact hkept y hy v (by rw [hv]; rfl)
      · intro a ha b hb hab
        rcases List.mem_cons.mp ha with hax | hax <;> rcases List.mem_cons.mp hb with hbx | hbx
        · rw [hax, hbx]
        · exact hax ▸ hkey b hbx (hax ▸ hab.symm)
        · exact hbx ▸ (hkey a hax (hbx ▸ hab)).symm
        · exact hagrees a hax b hbx hab
    · rintro ⟨hvalid, hkept, hagree, rfl⟩
      rw [List.forall_mem_cons] at hvalid hkept
      refine ⟨_, (hstep m x _).mpr ⟨hvalid.1, hkept.1, rfl⟩, ih.mpr ⟨hvalid.2, fun y hy v hv => ?_, ?_, rfl⟩⟩
      · rw [get_orInsert] at hv
        rcases Option.or_eq_some_iff.mp hv with hv | ⟨-, hv⟩
        · exact hkept.2 y hy v hv
        · split at hv
          case isTrue heq =>
            cases hv
            exact hagree x List.mem_cons_self y (List.mem_cons_of_mem _ hy) heq.symm
          case isFalse => cases hv
      · exact fun a ha b hb => hagree a (List.mem_cons_of_mem _ ha) b (List.mem_cons_of_mem _ hb)

end agree

end AssocMap
