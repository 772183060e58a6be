/-
What the schema fingerprint says of the parameters. It keeps their contract
and forgets where the bytes lie, except that components over the same bytes
are labelled alike; the labels are the names of a parameter and a component
put together, and do not always tell two groups apart.
-/
import Dyninfer.Checkpoint.Catalog
import Dyninfer.Lib.SharedLabels
import Dyninfer.Lib.Sorting
import Mathlib.Data.List.Forall2
import Mathlib.Data.List.Perm.Basic
import Mathlib.Data.String.Basic

namespace Dyninfer

/-! ## Schemas -/

def StorageComponent.lengths (component : StorageComponent) : List Nat := component.byteRanges.map (·.length)

/-- Components of one contract, wherever they lie. -/
structure SameComponent (c d : StorageComponent) : Prop where
  name : c.name = d.name
  shape : c.shape = d.shape
  storageType : c.storageType = d.storageType
  lengths : c.lengths = d.lengths
  alignment : c.alignment = d.alignment
  endianness : c.endianness = d.endianness

/-- Parameters of one contract, their components related. -/
structure SameParameter (R : StorageComponent → StorageComponent → Prop) (p q : LogicalParameter) : Prop where
  canonicalName : p.canonicalName = q.canonicalName
  role : p.role = q.role
  logicalType : p.logicalType = q.logicalType
  encoding : p.encoding = q.encoding
  components : List.Forall₂ R p.components q.components

/-- The components of all parameters, each with its label. -/
def places (parameters : List LogicalParameter) : List (String × StorageComponent) :=
  parameters.flatMap fun parameter => parameter.components.map fun component =>
    (s!"{parameter.canonicalName}::{component.name}", component)

/-- Where the bytes of a place lie. -/
def identityAt (parameters : List LogicalParameter) (i : Nat) : Option (Nat × String × List ByteRange) :=
  (places parameters)[i]?.map (·.2.identity)

/-- The components at the same places lie over the same bytes. -/
def SameSharing (parameters parameters' : List LogicalParameter) : Prop :=
  ∀ i j, identityAt parameters i = identityAt parameters j ↔ identityAt parameters' i = identityAt parameters' j

/-- Up to order, the same parameters and the same sharing. -/
def Agree (parameters parameters' : List LogicalParameter) : Prop :=
  ∃ ordered : List LogicalParameter, ordered.Perm parameters' ∧
    List.Forall₂ (SameParameter SameComponent) parameters ordered ∧ SameSharing parameters ordered

/-- A component with its key and its file renamed, and other offsets. -/
structure Renamed (keys : String → String) (files : Nat → Nat) (c d : StorageComponent) : Prop
    extends SameComponent c d where
  key : d.key = keys c.key
  sourceFileIndex : d.sourceFileIndex = files c.sourceFileIndex

/-- Up to order, the same parameters with the keys and files renamed and the offsets moved, and the same sharing. -/
def Relocated (parameters parameters' : List LogicalParameter) : Prop :=
  ∃ (keys : String → String) (files : Nat → Nat), Function.Injective keys ∧ Function.Injective files ∧
    ∃ ordered : List LogicalParameter, ordered.Perm parameters' ∧
      List.Forall₂ (SameParameter (Renamed keys files)) parameters ordered ∧ SameSharing parameters ordered

theorem SameParameter.mono {R S : StorageComponent → StorageComponent → Prop} (himp : ∀ c d, R c d → S c d)
    {p q : LogicalParameter} (h : SameParameter R p q) : SameParameter S p q :=
  ⟨h.canonicalName, h.role, h.logicalType, h.encoding, h.components.imp himp⟩

theorem Relocated.agree {parameters parameters' : List LogicalParameter} (h : Relocated parameters parameters') :
    Agree parameters parameters' := by
  obtain ⟨keys, files, -, -, ordered, hperm, hsame, hsharing⟩ := h
  exact ⟨ordered, hperm, hsame.imp fun _ _ h => h.mono fun _ _ h => h.toSameComponent, hsharing⟩

/-! ## Groups and labels -/

section groups

variable {parameters parameters' ordered : List LogicalParameter}

/-- The groups of components over the same bytes, of the first `n` places. -/
def sharing (n : Nat) (parameters : List LogicalParameter) : Setoid (Fin n) :=
  Setoid.ker fun i => identityAt parameters i

def placeLabel (n : Nat) (parameters : List LogicalParameter) (i : Fin n) : String :=
  ((places parameters)[i.val]?.map (·.1)).getD ""

def placeLengths (n : Nat) (parameters : List LogicalParameter) (i : Fin n) : List Nat :=
  ((places parameters)[i.val]?.map (·.2.lengths)).getD []

theorem placeLengths_of_sharing {n : Nat} {i j : Fin n} (h : sharing n parameters i j) :
    placeLengths n parameters i = placeLengths n parameters j := by
  have hidentity : identityAt parameters i = identityAt parameters j := h
  have hranges : ∀ i : Fin n, placeLengths n parameters i =
      ((identityAt parameters i).map fun identity => identity.2.2.map (·.length)).getD [] := by
    intro i
    rw [identityAt, Option.map_map]
    rfl
  rw [hranges, hranges, hidentity]

theorem identityMembers_eq (parameters : List LogicalParameter) (identity : Nat × String × List ByteRange) :
    identityMembers parameters identity = ((places parameters).filter (·.2.identity = identity)).map (·.1) := by
  unfold identityMembers places
  rw [List.filter_flatMap, List.map_flatMap]
  congr 1
  funext parameter
  rw [List.filter_map, List.map_map]
  rfl

theorem aliasLabel_eq_some_iff {identity : Nat × String × List ByteRange} {s : String} :
    aliasLabel parameters identity = some s ↔ 2 ≤ (identityMembers parameters identity).length ∧
      s ∈ identityMembers parameters identity ∧ ∀ m ∈ identityMembers parameters identity, s ≤ m := by
  have htrans : ∀ a b c : String, decide (a ≤ b) = true → decide (b ≤ c) = true → decide (a ≤ c) = true := by
    simp only [decide_eq_true_eq]
    exact fun a b c => le_trans
  have htotal : ∀ a b : String, (decide (a ≤ b) || decide (b ≤ a)) = true := by
    simp only [Bool.or_eq_true, decide_eq_true_eq]
    exact le_total
  have hsorted := List.pairwise_mergeSort htrans htotal (identityMembers parameters identity)
  have hmem : ∀ m, m ∈ (identityMembers parameters identity).mergeSort (fun a b => decide (a ≤ b)) ↔
      m ∈ identityMembers parameters identity := fun m => List.mem_mergeSort
  unfold aliasLabel
  simp only
  split
  case isTrue hlt => simp [Nat.not_le.mpr hlt]
  case isFalse hle =>
    rw [and_iff_right (Nat.not_lt.mp hle)]
    simp only [← hmem]
    cases hsort : (identityMembers parameters identity).mergeSort fun a b => decide (a ≤ b) with
    | nil => simp
    | cons least rest =>
      rw [hsort, List.pairwise_cons] at hsorted
      rw [List.head?_cons, Option.some.injEq]
      constructor
      · rintro rfl
        refine ⟨List.mem_cons_self, fun m hm => ?_⟩
        rcases List.mem_cons.mp hm with rfl | hm
        · exact le_refl m
        · exact of_decide_eq_true (hsorted.1 m hm)
      · rintro ⟨hs, hleast⟩
        rcases List.mem_cons.mp hs with rfl | hs
        · rfl
        · exact le_antisymm (of_decide_eq_true (hsorted.1 s hs)) (hleast least List.mem_cons_self)

theorem places_perm (h : parameters.Perm parameters') : (places parameters).Perm (places parameters') :=
  h.flatMap_right _

theorem aliasLabel_perm (h : parameters.Perm parameters') : aliasLabel parameters = aliasLabel parameters' := by
  funext identity
  have hmembers : (identityMembers parameters identity).Perm (identityMembers parameters' identity) := by
    rw [identityMembers_eq, identityMembers_eq]
    exact ((places_perm h).filter _).map _
  ext s
  simp only [aliasLabel_eq_some_iff, hmembers.length_eq, hmembers.mem_iff]

theorem two_le_length_filter {α : Type} {p : α → Bool} {xs : List α} {i : Nat} {a : α} (hi : xs[i]? = some a)
    (ha : p a = true) : 2 ≤ (xs.filter p).length ↔ ∃ j b, j ≠ i ∧ xs[j]? = some b ∧ p b = true := by
  induction xs generalizing i with
  | nil => cases hi
  | cons x xs ih =>
    cases i with
    | zero =>
      rw [List.getElem?_cons_zero, Option.some.injEq] at hi
      rw [List.filter_cons_of_pos (hi ▸ ha), List.length_cons, Nat.succ_le_succ_iff, Nat.succ_le_iff,
        List.length_pos_iff_exists_mem]
      constructor
      · rintro ⟨b, hb⟩
        obtain ⟨hmem, hb⟩ := List.mem_filter.mp hb
        obtain ⟨j, hj⟩ := List.mem_iff_getElem?.mp hmem
        exact ⟨j + 1, b, Nat.succ_ne_zero j, hj, hb⟩
      · rintro ⟨j, b, hne, hj, hb⟩
        obtain ⟨j, rfl⟩ := Nat.exists_eq_succ_of_ne_zero hne
        exact ⟨b, List.mem_filter.mpr ⟨List.mem_of_getElem? hj, hb⟩⟩
    | succ i =>
      rw [List.getElem?_cons_succ] at hi
      by_cases hx : p x = true
      · have hpos : 0 < (xs.filter p).length :=
          List.length_pos_of_mem (List.mem_filter.mpr ⟨List.mem_of_getElem? hi, ha⟩)
        rw [List.filter_cons_of_pos hx, List.length_cons]
        exact iff_of_true (by omega) ⟨0, x, (Nat.succ_ne_zero i).symm, rfl, hx⟩
      · rw [List.filter_cons_of_neg hx, ih hi]
        constructor
        · rintro ⟨j, b, hne, hj, hb⟩
          exact ⟨j + 1, b, by omega, hj, hb⟩
        · rintro ⟨j, b, hne, hj, hb⟩
          cases j with
          | zero =>
            cases hj
            exact absurd hb hx
          | succ j => exact ⟨j, b, by omega, hj, hb⟩

theorem tags_iff {n : Nat} (hn : (places parameters).length = n) (i : Fin n) {place : String × StorageComponent}
    (hplace : (places parameters)[i.val]? = some place) (s : String) :
    SharedLabels.Tags (placeLabel n parameters) (sharing n parameters) i s ↔
      aliasLabel parameters place.2.identity = some s := by
  have hbound : ∀ {j : Nat} {b}, (places parameters)[j]? = some b → j < n := by
    intro j b hj
    exact hn ▸ (List.getElem?_eq_some_iff.mp hj).1
  have hget : ∀ j : Fin n, ∃ b, (places parameters)[j.val]? = some b := fun j =>
    ⟨_, List.getElem?_eq_getElem (hn ▸ j.isLt)⟩
  have hsame : ∀ {j : Fin n} {b}, (places parameters)[j.val]? = some b →
      (sharing n parameters i j ↔ b.2.identity = place.2.identity) := by
    intro j b hj
    change identityAt parameters i = identityAt parameters j ↔ _
    simp only [identityAt, hplace, hj, Option.map_some, Option.some.injEq]
    exact eq_comm
  have hgroup : placeLabel n parameters '' {j | sharing n parameters i j} =
      {m | m ∈ identityMembers parameters place.2.identity} := by
    ext m
    rw [identityMembers_eq]
    simp only [Set.mem_image, Set.mem_ofPred_eq, List.mem_map, List.mem_filter, decide_eq_true_eq]
    constructor
    · rintro ⟨j, hij, rfl⟩
      obtain ⟨b, hb⟩ := hget j
      exact ⟨b, ⟨List.mem_of_getElem? hb, (hsame hb).mp hij⟩, by simp [placeLabel, hb]⟩
    · rintro ⟨b, ⟨hmem, hb⟩, rfl⟩
      obtain ⟨j, hj⟩ := List.mem_iff_getElem?.mp hmem
      exact ⟨⟨j, hbound hj⟩, (hsame hj).mpr hb, by simp [placeLabel, hj]⟩
  have hothers : (∃ j, j ≠ i ∧ sharing n parameters i j) ↔ 2 ≤ (identityMembers parameters place.2.identity).length := by
    rw [identityMembers_eq, List.length_map, two_le_length_filter hplace (decide_eq_true rfl)]
    constructor
    · rintro ⟨j, hne, hij⟩
      obtain ⟨b, hb⟩ := hget j
      exact ⟨j, b, fun h => hne (Fin.ext h), hb, decide_eq_true ((hsame hb).mp hij)⟩
    · rintro ⟨j, b, hne, hj, hb⟩
      exact ⟨⟨j, hbound hj⟩, fun h => hne (congrArg Fin.val h), (hsame hj).mpr (of_decide_eq_true hb)⟩
  unfold SharedLabels.Tags
  rw [hothers, hgroup, aliasLabel_eq_some_iff]
  rfl

end groups

/-! ## Entries -/

section entries

variable {known known' : List LogicalParameter}

theorem fingerprintComponent_eq_iff {c d : StorageComponent} :
    fingerprintComponent known c = fingerprintComponent known' d ↔
      SameComponent c d ∧ aliasLabel known c.identity = aliasLabel known' d.identity := by
  simp only [fingerprintComponent, FingerprintComponent.mk.injEq]
  constructor
  · rintro ⟨hname, hshape, htype, hlengths, halignment, hendianness, htag⟩
    exact ⟨⟨hname, hshape, htype, hlengths, halignment, hendianness⟩, htag⟩
  · rintro ⟨⟨hname, hshape, htype, hlengths, halignment, hendianness⟩, htag⟩
    exact ⟨hname, hshape, htype, hlengths, halignment, hendianness, htag⟩

theorem map_eq_map_iff {α β γ : Type} {f : α → γ} {g : β → γ} {xs : List α} {ys : List β} :
    xs.map f = ys.map g ↔ List.Forall₂ (fun a b => f a = g b) xs ys := by
  rw [← List.forall₂_eq_eq_eq, List.forall₂_map_left_iff, List.forall₂_map_right_iff]

theorem forall₂_append_iff {α β : Type} {R : α → β → Prop} {xs xs' : List α} {ys ys' : List β}
    (hlength : xs.length = ys.length) :
    List.Forall₂ R (xs ++ xs') (ys ++ ys') ↔ List.Forall₂ R xs ys ∧ List.Forall₂ R xs' ys' := by
  induction xs generalizing ys with
  | nil =>
    cases List.length_eq_zero_iff.mp hlength.symm
    simp
  | cons x xs ih =>
    cases ys with
    | nil => cases hlength
    | cons y ys => simp [ih (Nat.succ.inj hlength), and_assoc]

/-- The tags of the components of one parameter. -/
def SameTag (known known' : List LogicalParameter) (c d : StorageComponent) : Prop :=
  aliasLabel known c.identity = aliasLabel known' d.identity

theorem fingerprintEntry_eq_iff {p q : LogicalParameter} :
    fingerprintEntry known p = fingerprintEntry known' q ↔
      SameParameter SameComponent p q ∧ List.Forall₂ (SameTag known known') p.components q.components := by
  have hboth : ∀ {cs ds : List StorageComponent},
      List.Forall₂ (fun c d => fingerprintComponent known c = fingerprintComponent known' d) cs ds ↔
        List.Forall₂ SameComponent cs ds ∧ List.Forall₂ (SameTag known known') cs ds := by
    intro cs ds
    constructor
    · intro h
      exact ⟨h.imp fun _ _ h => (fingerprintComponent_eq_iff.mp h).1, h.imp fun _ _ h => (fingerprintComponent_eq_iff.mp h).2⟩
    · rintro ⟨hsame, htag⟩
      rw [List.forall₂_iff_zip] at hsame htag ⊢
      exact ⟨hsame.1, fun hmem => fingerprintComponent_eq_iff.mpr ⟨hsame.2 hmem, htag.2 hmem⟩⟩
  simp only [fingerprintEntry, FingerprintEntry.mk.injEq, map_eq_map_iff, hboth]
  constructor
  · rintro ⟨hname, hrole, hshape, htype, hencoding, hcomponents, htags⟩
    refine ⟨⟨hname, hrole, ?_, hencoding, hcomponents⟩, htags⟩
    cases hp : p.logicalType
    cases hq : q.logicalType
    rw [hp, hq] at hshape htype
    simp only at hshape htype
    rw [hshape, htype]
  · rintro ⟨⟨hname, hrole, htype, hencoding, hcomponents⟩, htags⟩
    exact ⟨hname, hrole, by rw [htype], by rw [htype], hencoding, hcomponents, htags⟩

theorem entries_eq_iff {parameters ordered : List LogicalParameter} :
    parameters.map (fingerprintEntry known) = ordered.map (fingerprintEntry known') ↔
      List.Forall₂ (SameParameter SameComponent) parameters ordered ∧
        List.Forall₂ (fun x y => SameTag known known' x.2 y.2) (places parameters) (places ordered) := by
  rw [map_eq_map_iff]
  simp only [fingerprintEntry_eq_iff]
  induction parameters generalizing ordered with
  | nil => cases ordered <;> simp [places]
  | cons p parameters ih =>
    cases ordered with
    | nil => simp
    | cons q ordered =>
      rw [List.forall₂_cons, List.forall₂_cons, ih]
      unfold places
      rw [List.flatMap_cons, List.flatMap_cons]
      constructor
      · rintro ⟨⟨hsame, htags⟩, hrest, hresttags⟩
        refine ⟨⟨hsame, hrest⟩, ?_⟩
        rw [forall₂_append_iff (by simp [hsame.components.length_eq]), List.forall₂_map_left_iff, List.forall₂_map_right_iff]
        exact ⟨htags, hresttags⟩
      · rintro ⟨⟨hsame, hrest⟩, htags⟩
        rw [forall₂_append_iff (by simp [hsame.components.length_eq]), List.forall₂_map_left_iff,
          List.forall₂_map_right_iff] at htags
        exact ⟨⟨hsame, htags.1⟩, hrest, htags.2⟩

theorem places_same {R : StorageComponent → StorageComponent → Prop} {parameters ordered : List LogicalParameter}
    (hname : ∀ c d, R c d → c.name = d.name) (h : List.Forall₂ (SameParameter R) parameters ordered) :
    List.Forall₂ (fun x y => x.1 = y.1 ∧ R x.2 y.2) (places parameters) (places ordered) := by
  refine List.rel_flatMap h fun p q hsame => ?_
  rw [List.forall₂_map_left_iff, List.forall₂_map_right_iff]
  exact hsame.components.imp fun c d h => ⟨by rw [hsame.canonicalName, hname c d h], h⟩

end entries

/-! ## What the fingerprint determines -/

section determination

variable {parameters parameters' ordered : List LogicalParameter}

/-- Parameters in the same order and of the same contract. -/
theorem placeLabel_same (hsame : List.Forall₂ (SameParameter SameComponent) parameters ordered) (n : Nat) :
    placeLabel n parameters = placeLabel n ordered := by
  have hlabels : (places parameters).map (·.1) = (places ordered).map (·.1) :=
    map_eq_map_iff.mpr ((places_same (fun _ _ h => h.name) hsame).imp fun _ _ h => h.1)
  funext i
  rw [placeLabel, placeLabel, ← List.getElem?_map, ← List.getElem?_map, hlabels]

theorem placeLengths_same (hsame : List.Forall₂ (SameParameter SameComponent) parameters ordered) (n : Nat) :
    placeLengths n parameters = placeLengths n ordered := by
  have hlengths : (places parameters).map (·.2.lengths) = (places ordered).map (·.2.lengths) :=
    map_eq_map_iff.mpr ((places_same (fun _ _ h => h.name) hsame).imp fun _ _ h => h.2.lengths)
  funext i
  rw [placeLengths, placeLengths, ← List.getElem?_map, ← List.getElem?_map, hlengths]

theorem length_places_same (hsame : List.Forall₂ (SameParameter SameComponent) parameters ordered) :
    (places parameters).length = (places ordered).length :=
  (places_same (fun _ _ h => h.name) hsame).length_eq

theorem sameTags_iff {n : Nat} (hn : (places parameters).length = n)
    (hsame : List.Forall₂ (SameParameter SameComponent) parameters ordered) :
    List.Forall₂ (fun x y => SameTag parameters ordered x.2 y.2) (places parameters) (places ordered) ↔
      SharedLabels.SameTags (placeLabel n parameters) (sharing n parameters) (sharing n ordered) := by
  have hlength := length_places_same hsame
  have hn' := hlength.symm.trans hn
  have htags : ∀ (i : Fin n) s,
      (SharedLabels.Tags (placeLabel n parameters) (sharing n parameters) i s ↔
        aliasLabel parameters ((places parameters).get (i.cast hn.symm)).2.identity = some s) ∧
      (SharedLabels.Tags (placeLabel n parameters) (sharing n ordered) i s ↔
        aliasLabel ordered ((places ordered).get (i.cast hn'.symm)).2.identity = some s) := by
    intro i s
    rw [placeLabel_same hsame n]
    exact ⟨placeLabel_same hsame n ▸ tags_iff hn i (List.getElem?_eq_getElem _) s,
      tags_iff hn' i (List.getElem?_eq_getElem _) s⟩
  rw [List.forall₂_iff_get]
  constructor
  · rintro ⟨-, hall⟩ i s
    have htag := hall i (hn ▸ i.isLt) (hn' ▸ i.isLt)
    rw [(htags i s).1, (htags i s).2]
    exact iff_of_eq (congrArg (· = some s) htag)
  · intro hall
    refine ⟨hlength, fun i hi hi' => ?_⟩
    refine Option.ext fun s => ?_
    have hiff := hall ⟨i, hn ▸ hi⟩ s
    rwa [(htags ⟨i, hn ▸ hi⟩ s).1, (htags ⟨i, hn ▸ hi⟩ s).2] at hiff

theorem sameSharing_iff {n : Nat} (hn : (places parameters).length = n) (hn' : (places ordered).length = n) :
    SameSharing parameters ordered ↔ sharing n ordered = sharing n parameters := by
  constructor
  · intro h
    ext i j
    exact (h i j).symm
  · intro h i j
    have hout : ∀ {list : List LogicalParameter} {k : Nat}, (places list).length = n →
        (identityAt list k = none ↔ ¬ k < n) := by
      intro list k hlist
      rw [identityAt, Option.map_eq_none_iff, List.getElem?_eq_none_iff, hlist, Nat.not_lt]
    by_cases hi : i < n
    · by_cases hj : j < n
      · have hrel : sharing n ordered ⟨i, hi⟩ ⟨j, hj⟩ ↔ sharing n parameters ⟨i, hi⟩ ⟨j, hj⟩ := by rw [h]
        exact hrel.symm
      · rw [(hout hn).mpr hj, (hout hn').mpr hj, hout hn, hout hn']
    · rw [(hout hn).mpr hi, (hout hn').mpr hi, eq_comm, hout hn, eq_comm, hout hn']

theorem fingerprintEntries_eq_iff (hdistinct : (parameters.map (·.canonicalName)).Nodup) :
    fingerprintEntries parameters = fingerprintEntries parameters' ↔
      ∃ ordered : List LogicalParameter, ordered.Perm parameters' ∧
        List.Forall₂ (SameParameter SameComponent) parameters ordered ∧
        SharedLabels.SameTags (placeLabel (places parameters).length parameters)
          (sharing (places parameters).length parameters) (sharing (places parameters).length ordered) := by
  have hkeys : ((parameters.map (fingerprintEntry parameters)).map (·.canonicalName)).Nodup := by
    rw [List.map_map]
    exact hdistinct
  have hsort : ∀ parameters, fingerprintEntries parameters =
      Sorting.sortByKey (·.canonicalName) (parameters.map (fingerprintEntry parameters)) := by
    intro parameters
    unfold fingerprintEntries Sorting.sortByKey
    congr
  rw [hsort, hsort, Sorting.sortByKey_eq_iff hkeys]
  constructor
  · intro hperm
    have hmap : List.Forall₂ (fun entry q => entry = fingerprintEntry parameters' q)
        (parameters'.map (fingerprintEntry parameters')) parameters' := by
      rw [List.forall₂_map_left_iff]
      exact List.forall₂_same.mpr fun _ _ => rfl
    obtain ⟨ordered, hentries, hordered⟩ := List.perm_comp_forall₂ hperm hmap
    have hentries : parameters.map (fingerprintEntry parameters) = ordered.map (fingerprintEntry ordered) := by
      rw [map_eq_map_iff]
      rw [List.forall₂_map_left_iff] at hentries
      refine hentries.imp fun p q h => h.trans ?_
      unfold fingerprintEntry fingerprintComponent
      rw [aliasLabel_perm hordered]
    obtain ⟨hsame, htags⟩ := entries_eq_iff.mp hentries
    exact ⟨ordered, hordered, hsame, (sameTags_iff rfl hsame).mp htags⟩
  · rintro ⟨ordered, hordered, hsame, htags⟩
    rw [entries_eq_iff.mpr ⟨hsame, (sameTags_iff rfl hsame).mpr htags⟩]
    have hknown : fingerprintEntry ordered = fingerprintEntry parameters' := by
      funext q
      unfold fingerprintEntry fingerprintComponent
      rw [aliasLabel_perm hordered]
    rw [hknown]
    exact hordered.map _

end determination

/-! ## Parameters of other groups -/

section placing

/-- The component of a key, from the start of a file. -/
def StorageComponent.moveTo (component : StorageComponent) (key : String) : StorageComponent :=
  { component with
    key
    sourceFileIndex := 0
    byteRanges := component.byteRanges.map fun range => ⟨0, range.length⟩ }

/-- The parameters with a key for each place, counted from `n`. -/
def placeBy (key : Nat → String) : Nat → List LogicalParameter → List LogicalParameter
  | _, [] => []
  | n, parameter :: parameters =>
    { parameter with components := (parameter.components.zipIdx n).map fun c => c.1.moveTo (key c.2) } ::
      placeBy key (n + parameter.components.length) parameters

theorem sameComponent_moveTo (component : StorageComponent) (key : String) :
    SameComponent component (component.moveTo key) :=
  ⟨rfl, rfl, rfl, by simp [StorageComponent.lengths, StorageComponent.moveTo], rfl, rfl⟩

variable (key : Nat → String)

theorem placeBy_same (n : Nat) (parameters : List LogicalParameter) :
    List.Forall₂ (SameParameter SameComponent) parameters (placeBy key n parameters) := by
  induction parameters generalizing n with
  | nil => exact .nil
  | cons parameter parameters ih =>
    refine .cons ⟨rfl, rfl, rfl, rfl, ?_⟩ (ih _)
    rw [List.forall₂_map_right_iff, List.forall₂_iff_get]
    refine ⟨List.length_zipIdx.symm, fun i _ _ => ?_⟩
    simpa using sameComponent_moveTo _ _

theorem places_placeBy (n : Nat) (parameters : List LogicalParameter) :
    places (placeBy key n parameters) =
      ((places parameters).zipIdx n).map fun place => (place.1.1, place.1.2.moveTo (key place.2)) := by
  induction parameters generalizing n with
  | nil => rfl
  | cons parameter parameters ih =>
    unfold places at ih ⊢
    rw [placeBy, List.flatMap_cons, List.flatMap_cons, List.zipIdx_append, List.map_append, ih, List.length_map,
      List.zipIdx_map, List.map_map, List.map_map]
    rfl

theorem identityAt_placeBy (parameters : List LogicalParameter) (i : Nat) :
    identityAt (placeBy key 0 parameters) i = (places parameters)[i]?.map fun place =>
      (place.2.moveTo (key i)).identity := by
  rw [identityAt, places_placeBy, List.getElem?_map, List.getElem?_zipIdx, Option.map_map, Option.map_map, Nat.zero_add]
  rfl

theorem identity_moveTo_eq_iff {c d : StorageComponent} {k l : String} :
    (c.moveTo k).identity = (d.moveTo l).identity ↔ k = l ∧ c.lengths = d.lengths := by
  have hranges : ∀ {rs ss : List ByteRange}, rs.map (fun range => ByteRange.mk 0 range.length) =
      ss.map (fun range => ByteRange.mk 0 range.length) ↔ rs.map (·.length) = ss.map (·.length) := by
    intro rs ss
    rw [map_eq_map_iff, map_eq_map_iff]
    simp
  simp only [StorageComponent.identity, StorageComponent.moveTo, StorageComponent.lengths, Prod.mk.injEq, true_and, hranges]

/-- Every grouping of components of the same lengths is that of some parameters. -/
theorem exists_sharing {n : Nat} {parameters : List LogicalParameter} (hn : (places parameters).length = n)
    (r : Setoid (Fin n)) (hr : ∀ i j, r i j → placeLengths n parameters i = placeLengths n parameters j) :
    ∃ ordered, List.Forall₂ (SameParameter SameComponent) parameters ordered ∧ sharing n ordered = r := by
  -- the key of a group is as long as the number of one of its members
  let member : Fin n → Fin n := fun i => (Quotient.mk r i).out
  have hmember : ∀ i j, member i = member j ↔ r i j := by
    intro i j
    rw [← Quotient.eq (r := r)]
    exact Quotient.out_inj
  let key : Nat → String := fun i =>
    if h : i < n then String.ofList (List.replicate (member ⟨i, h⟩) 'x') else ""
  refine ⟨placeBy key 0 parameters, placeBy_same key 0 parameters, ?_⟩
  ext i j
  have hkey : key i = key j ↔ r i j := by
    rw [← hmember, ← Fin.val_inj]
    simp only [key, i.isLt, j.isLt, dite_true, String.ofList_inj]
    constructor
    · intro h
      simpa using congrArg List.length h
    · intro h
      rw [h]
  have hget : ∀ i : Fin n, (places parameters)[i.val]? = some ((places parameters).get (i.cast hn.symm)) :=
    fun i => List.getElem?_eq_getElem _
  have hlengths : ∀ i : Fin n, placeLengths n parameters i = ((places parameters).get (i.cast hn.symm)).2.lengths := by
    intro i
    rw [placeLengths, hget]
    rfl
  change identityAt _ i = identityAt _ j ↔ r i j
  rw [identityAt_placeBy, identityAt_placeBy, hget, hget, Option.map_some, Option.map_some, Option.some.injEq,
    identity_moveTo_eq_iff, hkey, ← hlengths, ← hlengths]
  exact and_iff_left_of_imp (hr i j)

end placing

/-! ## The fingerprint -/

section fingerprint

variable {parameters : List LogicalParameter}

/-- Four components with one alias label and the same lengths, two of which have that label themselves. -/
def AmbiguousSharing (parameters : List LogicalParameter) : Prop :=
  SharedLabels.Ambiguous (placeLabel (places parameters).length parameters)
    (placeLengths (places parameters).length parameters) (sharing (places parameters).length parameters)

/-- Parameters of distinct names are in one order by their names. -/
theorem ordered_unique {ordered ordered' : List LogicalParameter} (hdistinct : (ordered.map (·.canonicalName)).Nodup)
    (hperm : ordered'.Perm ordered) (hnames : ordered'.map (·.canonicalName) = ordered.map (·.canonicalName)) :
    ordered' = ordered := by
  refine List.ext_getElem hperm.length_eq fun i hi hi' => ?_
  refine List.inj_on_of_nodup_map hdistinct (hperm.mem_iff.mp (List.getElem_mem hi)) (List.getElem_mem hi') ?_
  have hname : (ordered'.map (·.canonicalName))[i]? = (ordered.map (·.canonicalName))[i]? := by rw [hnames]
  simpa [hi, hi'] using hname

theorem names_same {R : StorageComponent → StorageComponent → Prop} {ordered : List LogicalParameter}
    (hsame : List.Forall₂ (SameParameter R) parameters ordered) :
    parameters.map (·.canonicalName) = ordered.map (·.canonicalName) :=
  map_eq_map_iff.mpr (hsame.imp fun _ _ h => h.canonicalName)

theorem Agree.fingerprintEntries_eq {parameters' : List LogicalParameter}
    (hdistinct : (parameters.map (·.canonicalName)).Nodup) (h : Agree parameters parameters') :
    fingerprintEntries parameters = fingerprintEntries parameters' := by
  obtain ⟨ordered, hordered, hsame, hsharing⟩ := h
  have hgroups := (sameSharing_iff rfl (length_places_same hsame).symm).mp hsharing
  refine (fingerprintEntries_eq_iff hdistinct).mpr ⟨ordered, hordered, hsame, ?_⟩
  rw [hgroups]
  exact fun _ _ => Iff.rfl

theorem agree_iff_not_ambiguous (hdistinct : (parameters.map (·.canonicalName)).Nodup) :
    (∀ parameters', fingerprintEntries parameters = fingerprintEntries parameters' → Agree parameters parameters') ↔
      ¬ AmbiguousSharing parameters := by
  rw [AmbiguousSharing, ← SharedLabels.determined_iff fun _ _ => placeLengths_of_sharing]
  constructor
  · intro h r hkind htags
    obtain ⟨placed, hplaced, rfl⟩ := exists_sharing rfl r hkind
    obtain ⟨ordered, hordered, hsame, hsharing⟩ := h placed
      ((fingerprintEntries_eq_iff hdistinct).mpr ⟨placed, .refl placed, hplaced, htags⟩)
    have hnames := names_same hplaced
    have heq : ordered = placed :=
      ordered_unique (hnames ▸ hdistinct) hordered ((names_same hsame).symm.trans hnames)
    rw [← heq]
    exact (sameSharing_iff rfl (length_places_same hsame).symm).mp hsharing
  · intro h parameters' hentries
    obtain ⟨ordered, hordered, hsame, htags⟩ := (fingerprintEntries_eq_iff hdistinct).mp hentries
    have hlength := length_places_same hsame
    refine ⟨ordered, hordered, hsame, (sameSharing_iff rfl hlength.symm).mpr (h _ (fun i j hij => ?_) htags)⟩
    rw [placeLengths_same hsame]
    exact placeLengths_of_sharing hij

/-- **The schema fingerprint.** It is the same wherever the bytes lie; and the parameters and their sharing can be
told from it when the labels are not ambiguous. -/
theorem fingerprint_determines_iff (contentDigest : List FingerprintEntry → String) (parameters : List LogicalParameter)
    (hdistinct : (parameters.map (·.canonicalName)).Nodup)
    (hdigest : ∀ entries, contentDigest (fingerprintEntries parameters) = contentDigest entries →
      fingerprintEntries parameters = entries) :
    (∀ parameters', Relocated parameters parameters' →
      (schemaFingerprintFromParameters contentDigest parameters).digest =
        (schemaFingerprintFromParameters contentDigest parameters').digest) ∧
    ((∀ parameters', (parameters'.map (·.canonicalName)).Nodup →
      (schemaFingerprintFromParameters contentDigest parameters).digest =
        (schemaFingerprintFromParameters contentDigest parameters').digest → Agree parameters parameters') ↔
      ¬ AmbiguousSharing parameters) := by
  refine ⟨fun parameters' h => congrArg contentDigest (h.agree.fingerprintEntries_eq hdistinct), ?_⟩
  rw [← agree_iff_not_ambiguous hdistinct]
  constructor
  · intro h parameters' hentries
    refine h parameters' ?_ (congrArg contentDigest hentries)
    obtain ⟨ordered, hordered, hsame, -⟩ := (fingerprintEntries_eq_iff hdistinct).mp hentries
    exact (hordered.map _).nodup (names_same hsame ▸ hdistinct)
  · intro h parameters' _ hequal
    exact h parameters' (hdigest _ hequal)

/-- A weight of sixteen bytes. -/
def smallWeight (name component key : String) : LogicalParameter where
  canonicalName := name
  role := .other name
  logicalType := ⟨[4], .f32⟩
  encoding := .plain .f32
  components := [⟨component, key, 0, [4], .scalar .f32, [⟨0, 16⟩], 1, .little⟩]
  aliases := []

/-- Four weights in two groups, the least labels of which are one string. -/
def twoGroups : List LogicalParameter :=
  [smallWeight "a" "b::c" "first", smallWeight "a::b" "c" "second", smallWeight "x" "data" "first",
    smallWeight "y" "data" "second"]

/-- The same weights in one group. -/
def oneGroup : List LogicalParameter :=
  [smallWeight "a" "b::c" "first", smallWeight "a::b" "c" "first", smallWeight "x" "data" "first",
    smallWeight "y" "data" "first"]

/-- A digest that tells the two groups from everything else. -/
def twoDigest (entries : List FingerprintEntry) : String :=
  if fingerprintEntries twoGroups = entries then "two" else "other"

theorem fingerprint_determines_iff_two :
    (∀ parameters', Relocated twoGroups parameters' →
      (schemaFingerprintFromParameters twoDigest twoGroups).digest =
        (schemaFingerprintFromParameters twoDigest parameters').digest) ∧
    ((∀ parameters', (parameters'.map (·.canonicalName)).Nodup →
      (schemaFingerprintFromParameters twoDigest twoGroups).digest =
        (schemaFingerprintFromParameters twoDigest parameters').digest → Agree twoGroups parameters') ↔
      ¬ AmbiguousSharing twoGroups) := by
  refine fingerprint_determines_iff twoDigest twoGroups (by decide) fun entries h => ?_
  by_contra hne
  rw [twoDigest, twoDigest, if_pos rfl, if_neg hne] at h
  exact absurd h (by decide)

/-- The fingerprint of two groups is that of one. -/
theorem groups_merged :
    (twoGroups.map (·.canonicalName)).Nodup ∧ (oneGroup.map (·.canonicalName)).Nodup ∧
      (∀ contentDigest, (schemaFingerprintFromParameters contentDigest twoGroups).digest =
        (schemaFingerprintFromParameters contentDigest oneGroup).digest) ∧ ¬ Agree twoGroups oneGroup := by
  have hlabel : ∀ place ∈ places twoGroups, aliasLabel twoGroups place.2.identity = some "a::b::c" := by
    simp only [aliasLabel_eq_some_iff]
    decide +kernel
  have hlabel' : ∀ place ∈ places oneGroup, aliasLabel oneGroup place.2.identity = some "a::b::c" := by
    simp only [aliasLabel_eq_some_iff]
    decide +kernel
  have hsame : List.Forall₂ (SameParameter SameComponent) twoGroups oneGroup := by
    refine .cons ?_ (.cons ?_ (.cons ?_ (.cons ?_ .nil))) <;>
      exact ⟨rfl, rfl, rfl, rfl, .cons ⟨rfl, rfl, rfl, rfl, rfl, rfl⟩ .nil⟩
  refine ⟨by decide, by decide, fun contentDigest => ?_, ?_⟩
  · refine congrArg (fun entries => contentDigest (List.mergeSort entries _)) (entries_eq_iff.mpr ⟨hsame, ?_⟩)
    rw [List.forall₂_iff_get]
    refine ⟨rfl, fun i hi hi' => ?_⟩
    exact (hlabel _ (List.get_mem _ _)).trans (hlabel' _ (List.get_mem _ _)).symm
  · rintro ⟨ordered, hordered, hordersame, hsharing⟩
    have hordered := ordered_unique (by decide) hordered ((names_same hordersame).symm.trans (names_same hsame))
    subst hordered
    exact absurd ((hsharing 0 1).mpr rfl) (by decide)

end fingerprint

end Dyninfer
