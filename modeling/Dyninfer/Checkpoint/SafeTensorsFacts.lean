/-
What a SafeTensors index guarantees: every entry is a field of the header,
with the bytes of its type and shape inside the file, no two of them over the
same bytes.
-/
import Dyninfer.Checkpoint.SafeTensors

namespace Dyninfer

open Bytes

/-- An entry with the bytes of its type and shape. -/
def RawTensorEntry.Fills (entry : RawTensorEntry) : Prop :=
  ∃ ty numel, entry.storageType = .scalar ty ∧ entry.shape.numel = some numel ∧ numel * ty.sizeBytes < 2 ^ 64 ∧
    (entry.byteRanges.map (·.length)).sum = numel * ty.sizeBytes

namespace SafeTensors

/-! ## One entry -/

/-- An entry that a header field declares: its shape and type, and its bytes, which lie in the file. -/
structure Declares (serde : Serde) (source : RandomAccessSource) (field : String × Json) (entry : RawTensorEntry)
    (base : Nat) : Prop where
  key : entry.key = field.1
  sourceFileIndex : entry.sourceFileIndex = 0
  info : ∃ info ty numel, serde.tensorInfo field.2 = .ok info ∧ parseDtype info.dtype = .ok ty ∧
    info.shape.numel = some numel ∧ info.dataEnd - info.dataStart = numel * ty.sizeBytes ∧
    numel * ty.sizeBytes < 2 ^ 64 ∧ info.dataStart ≤ info.dataEnd ∧
    entry.shape = info.shape ∧ entry.storageType = .scalar ty ∧
    entry.byteRanges = [⟨base + info.dataStart, info.dataEnd - info.dataStart⟩] ∧
    base + info.dataStart + (info.dataEnd - info.dataStart) ≤ source.len

section entries

variable {serde : Serde} {source : RandomAccessSource} {limits : InspectionLimits}

theorem readEntry_ok {base : Nat} {key : String} {value : Json} {entry : RawTensorEntry}
    (h : readEntry serde source limits base key value = .ok entry) :
    Declares serde source (key, value) entry base ∧ key.utf8ByteSize ≤ limits.maxKeyLen ∧
      entry.shape.length ≤ limits.maxShapeRank ∧ ∀ d ∈ entry.shape, d ≤ limits.maxDim := by
  have hsize : source.len < 2 ^ 63 := source.size
  obtain ⟨_, hkey, h⟩ := Fallible.bind_ok h
  split at h
  case h_1 => cases h
  case h_2 info hinfo =>
    obtain ⟨_, hshape, h⟩ := Fallible.bind_ok h
    obtain ⟨hoffsets, h⟩ := Fallible.ite_throw_ok h
    obtain ⟨ty, hty, h⟩ := Fallible.bind_ok h
    split at h
    case h_1 => cases h
    case h_2 numel hnumel =>
      obtain ⟨hfits, h⟩ := Fallible.ite_throw_ok h
      obtain ⟨hlength, h⟩ := Fallible.ite_throw_ok h
      obtain ⟨hbase, h⟩ := Fallible.ite_throw_ok h
      obtain ⟨hend, h⟩ := Fallible.ite_throw_ok h
      cases h
      obtain ⟨hrank, hdims⟩ := InspectionLimits.validateShape_ok_iff.mp hshape
      refine ⟨⟨rfl, rfl, info, ty, numel, hinfo, hty, hnumel, ?_, ?_, ?_, rfl, rfl, rfl, ?_⟩,
        InspectionLimits.validateKey_ok_iff.mp hkey, hrank, hdims⟩
      · exact not_not.mp hlength
      · omega
      · omega
      · omega

theorem headerFields_ok {len : Nat} {fields : List (String × Json)} (h : headerFields serde source len = .ok fields) :
    8 + len ≤ source.len ∧ ∃ bs, source.readRange 8 len = .ok bs ∧ serde.fromSlice bs = .ok (.object fields) := by
  obtain ⟨-, h⟩ := Fallible.ite_throw_ok h
  obtain ⟨bs, hbs, h⟩ := Fallible.bind_ok h
  refine ⟨(source.readRange_ok hbs).1, bs, hbs, ?_⟩
  split at h
  case h_1 => cases h
  case h_2 value hvalue =>
    split at h
    case h_1 => cases h
    case h_2 found hfound =>
      cases h
      unfold Json.asObject at hfound
      split at hfound
      · cases hfound
        exact hvalue
      · cases hfound

theorem headerFields_nodup {len : Nat} {fields : List (String × Json)}
    (h : headerFields serde source len = .ok fields) : (fields.map (·.1)).Nodup := by
  obtain ⟨-, bs, -, hbs⟩ := headerFields_ok h
  exact serde.object_keys bs fields hbs

theorem headerLen_ok {len : Nat} (h : headerLen source limits = .ok len) : len ≤ limits.maxHeaderBytes := by
  obtain ⟨buf, -, h⟩ := Fallible.bind_ok h
  simp only at h
  split at h
  · cases h
  · cases h
    omega

/-- The tensor fields of a header. -/
def tensorFields (fields : List (String × Json)) : List (String × Json) := fields.filter (·.1 != "__metadata__")

/-- What a successful index is made of. -/
structure Indexed (serde : Serde) (source : RandomAccessSource) (limits : InspectionLimits)
    (index : RawCheckpointIndex) (len : Nat) (fields : List (String × Json)) (entries : List RawTensorEntry) :
    Prop where
  readLen : headerLen source limits = .ok len
  readFields : headerFields serde source len = .ok fields
  readEntries : List.Forall₂ (fun field entry => readEntry serde source limits (8 + len) field.1 field.2 = .ok entry)
    (tensorFields fields) entries
  count : entries.length ≤ limits.maxTensorCount
  apart : overlapping (Sorting.sortByKey (·.1) (entries.filterMap entryRange)) = none
  total : saturatingSum (declaredBytes entries) ≤ limits.maxTotalDeclaredBytes
  indexEntries : index.entries = Sorting.sortByKey (·.key) entries
  indexFiles : index.sourceFiles = source.sourceFiles
  indexMetadata : index.metadata = headerMetadata fields

theorem index_ok {found : RawCheckpointIndex} (h : index serde source limits = .ok found) :
    ∃ len fields entries, Indexed serde source limits found len fields entries := by
  obtain ⟨len, hlen, h⟩ := Fallible.bind_ok h
  obtain ⟨fields, hfields, h⟩ := Fallible.bind_ok h
  obtain ⟨entries, hentries, h⟩ := Fallible.bind_ok h
  obtain ⟨hcount, h⟩ := Fallible.ite_throw_ok h
  have hbase : dataBase len = 8 + len := by
    have hend := (headerFields_ok hfields).1
    have hsize : source.len < 2 ^ 63 := source.size
    exact Nat.mod_eq_of_lt (by omega)
  rw [hbase] at hentries
  split at h
  case h_1 => cases h
  case h_2 hapart =>
    obtain ⟨htotal, h⟩ := Fallible.ite_throw_ok h
    cases h
    exact ⟨len, fields, entries, hlen, hfields, Fallible.mapM_ok hentries, by omega, hapart, by omega, rfl, rfl, rfl⟩

/-! ## All entries -/

/-- Ranges in order that do not overlap take no more than the space they lie in. -/
theorem sum_of_overlapping_none {bound : Nat} {ranges : List (Nat × Nat × String)} (h : overlapping ranges = none)
    (hends : ∀ r ∈ ranges, r.1 ≤ r.2.1 ∧ r.2.1 ≤ bound) :
    (ranges.map fun r => r.2.1 - r.1).sum + (ranges.head?.map (·.1)).getD 0 ≤ bound := by
  induction ranges with
  | nil => simp
  | cons a rest ih =>
    have ha := hends a List.mem_cons_self
    cases rest with
    | nil =>
      simp only [List.map_cons, List.map_nil, List.sum_cons, List.sum_nil, List.head?_cons, Option.map_some,
        Option.getD_some]
      omega
    | cons b rest =>
      unfold overlapping at h
      split at h
      case isTrue => cases h
      case isFalse hab =>
        have hrest := ih h fun r hr => hends r (List.mem_cons_of_mem _ hr)
        simp only [List.map_cons, List.sum_cons, List.head?_cons, Option.map_some, Option.getD_some] at hrest ⊢
        omega

theorem declared_of_forall₂ {base : Nat} {fields : List (String × Json)} {entries : List RawTensorEntry}
    (h : List.Forall₂ (fun field entry => readEntry serde source limits base field.1 field.2 = .ok entry) fields
      entries) : ∀ entry ∈ entries, ∃ field ∈ fields, readEntry serde source limits base field.1 field.2 = .ok entry :=
  fun _ hentry => Fallible.exists_of_forall₂ h.flip hentry

/-- The tensors of a file take no more bytes than it has. -/
theorem Indexed.sum_le {found : RawCheckpointIndex} {len : Nat} {fields : List (String × Json)}
    {entries : List RawTensorEntry} (h : Indexed serde source limits found len fields entries) :
    (declaredBytes entries).sum ≤ source.len := by
  have hsize : source.len < 2 ^ 63 := source.size
  have hranges : ∀ entry ∈ entries, ∃ r ∈ entryRange entry, r.1 ≤ r.2.1 ∧ r.2.1 ≤ source.len ∧
      entry.byteRanges.map (·.length) = [r.2.1 - r.1] := by
    intro entry hentry
    obtain ⟨field, -, hread⟩ := declared_of_forall₂ h.readEntries entry hentry
    obtain ⟨info, ty, numel, -, -, -, -, -, -, -, -, hrange, hend⟩ := (readEntry_ok hread).1.info
    refine ⟨(8 + len + info.dataStart, 8 + len + info.dataStart + (info.dataEnd - info.dataStart), entry.key),
      ?_, Nat.le_add_right _ _, hend, ?_⟩
    · have hmin : min (8 + len + info.dataStart + (info.dataEnd - info.dataStart)) (2 ^ 64 - 1) =
          8 + len + info.dataStart + (info.dataEnd - info.dataStart) := by omega
      rw [entryRange, hrange, Option.mem_def]
      simp only [List.head?_cons, Option.map_some, hmin]
    · rw [hrange]
      simp
  have hdeclared : declaredBytes entries = (entries.filterMap entryRange).map fun r => r.2.1 - r.1 := by
    have hall := hranges
    clear h hranges
    induction entries with
    | nil => rfl
    | cons entry entries ih =>
      rw [List.forall_mem_cons] at hall
      obtain ⟨r, hr, -, -, hlengths⟩ := hall.1
      have hrest := ih hall.2
      unfold declaredBytes at hrest ⊢
      rw [List.flatMap_cons, hrest, hlengths, List.filterMap_cons_some hr]
      rfl
  have hperm := List.mergeSort_perm (entries.filterMap entryRange) fun a b => decide (a.1 ≤ b.1)
  have hends : ∀ r ∈ Sorting.sortByKey (·.1) (entries.filterMap entryRange), r.1 ≤ r.2.1 ∧ r.2.1 ≤ source.len := by
    intro r hr
    obtain ⟨entry, hentry, hr⟩ := List.mem_filterMap.mp (hperm.mem_iff.mp hr)
    obtain ⟨r', hr', hstart, hend, -⟩ := hranges entry hentry
    rw [Option.mem_def.mp hr', Option.some_inj] at hr
    exact hr ▸ ⟨hstart, hend⟩
  have hsum := sum_of_overlapping_none h.apart hends
  rw [hdeclared, ← (hperm.map _).sum_nat]
  exact Nat.le_trans (Nat.le_add_right _ _) hsum

/-- The check of the total is a check of the sum: it does not saturate. -/
theorem Indexed.total_le {found : RawCheckpointIndex} {len : Nat} {fields : List (String × Json)}
    {entries : List RawTensorEntry} (h : Indexed serde source limits found len fields entries) :
    (declaredBytes entries).sum ≤ limits.maxTotalDeclaredBytes := by
  have hsum := h.sum_le
  have hsize : source.len < 2 ^ 63 := source.size
  have htotal := h.total
  rw [saturatingSum_eq] at htotal
  omega

theorem Indexed.perm {found : RawCheckpointIndex} {len : Nat} {fields : List (String × Json)}
    {entries : List RawTensorEntry} (h : Indexed serde source limits found len fields entries) :
    found.entries.Perm entries := by
  rw [h.indexEntries]
  exact List.mergeSort_perm _ _

/-- The keys of an index are the tensor fields of the header. -/
theorem Indexed.keys {found : RawCheckpointIndex} {len : Nat} {fields : List (String × Json)}
    {entries : List RawTensorEntry} (h : Indexed serde source limits found len fields entries) :
    entries.map (·.key) = (tensorFields fields).map (·.1) := by
  have hkeys := h.readEntries.imp fun field entry hread => (readEntry_ok hread).1.key
  rw [← List.forall₂_eq_eq_eq, List.forall₂_map_left_iff, List.forall₂_map_right_iff]
  exact hkeys.flip

/-- The entries of an index have the bytes of their types and shapes. -/
theorem index_fills {found : RawCheckpointIndex} (h : index serde source limits = .ok found) :
    ∀ entry ∈ found.entries, entry.Fills := by
  obtain ⟨len, fields, entries, hindexed⟩ := index_ok h
  intro entry hentry
  obtain ⟨field, -, hread⟩ := declared_of_forall₂ hindexed.readEntries entry (hindexed.perm.mem_iff.mp hentry)
  obtain ⟨info, ty, numel, -, -, hnumel, hlength, hfits, -, hshape, htype, hrange, -⟩ := (readEntry_ok hread).1.info
  refine ⟨ty, numel, htype, hshape ▸ hnumel, hfits, ?_⟩
  rw [hrange, ← hlength]
  simp

/-- A file of one tensor. -/
theorem index_lone {len : Nat} {fields : List (String × Json)} {field : String × Json} {entry : RawTensorEntry}
    (hlen : headerLen source limits = .ok len) (hfields : headerFields serde source len = .ok fields)
    (hlone : tensorFields fields = [field])
    (hentry : readEntry serde source limits (dataBase len) field.1 field.2 = .ok entry)
    (hcount : 1 ≤ limits.maxTensorCount)
    (htotal : saturatingSum (declaredBytes [entry]) ≤ limits.maxTotalDeclaredBytes) :
    ∃ found, index serde source limits = .ok found ∧ found.entries = [entry] ∧ found.sourceFiles = source.sourceFiles ∧
      found.metadata = headerMetadata fields := by
  have hapart : overlapping (Sorting.sortByKey (·.1) ([entry].filterMap entryRange)) = none := by
    cases hrange : entryRange entry with
    | none => simp [hrange, Sorting.sortByKey, overlapping]
    | some r => simp [hrange, Sorting.sortByKey, overlapping]
  unfold tensorFields at hlone
  unfold index
  rw [hlen, Fallible.ok_bind, hfields, Fallible.ok_bind, hlone, List.mapM_cons, hentry, Fallible.ok_bind, List.mapM_nil]
  simp only [pure_bind, List.length_singleton, hapart]
  rw [if_neg (by omega), if_neg (by omega)]
  exact ⟨_, rfl, List.mergeSort_singleton _, rfl, rfl⟩

end entries

end SafeTensors

end Dyninfer
