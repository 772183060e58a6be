/-
Parameters read from files (`FileParameterStorage` in `iree-runtime/src/lib.rs`):
the descriptors of ranges in listed files are folded into a map by key, where
a key that comes twice must come with the same range, and the strings passed on
to C hold no NUL. The file system answers `metadata` as a parameter.
-/
import Dyninfer.Core.Error
import Dyninfer.Lib.AssocMap
import Dyninfer.Lib.Bytes
import Dyninfer.Lib.Sorting
import Mathlib.Data.String.Basic

namespace Dyninfer

open Bytes

/-- A string for C, without its final NUL. -/
structure CString where
  bytes : List UInt8
  noNul : 0 ∉ bytes

/-- `CString::new`. -/
def CString.new (bytes : List UInt8) : Except String CString :=
  if h : 0 ∈ bytes then .error s!"nul byte found in provided data at position: {bytes.idxOf 0}"
  else .ok ⟨bytes, h⟩

theorem CString.new_ok_iff {bytes : List UInt8} {c : CString} : CString.new bytes = .ok c ↔ c.bytes = bytes := by
  unfold CString.new
  split
  case isTrue h => exact ⟨nofun, fun heq => absurd (heq ▸ h) c.noNul⟩
  case isFalse h =>
    cases c with
    | mk bytes' h' => simp [eq_comm]

/-- `std::fs::Metadata`. -/
structure FileMetadata where
  isFile : Bool
  len : Nat

/-- The answers of `std::fs::metadata`. A path with a NUL names nothing. -/
structure FileSystem where
  metadata : String → Except String FileMetadata
  noNul : ∀ path found, metadata path = .ok found → 0 ∉ utf8 path

structure FileParameterDescriptor where
  key : String
  sourceFileIndex : Nat
  offset : Nat
  length : Nat
  deriving DecidableEq, Repr

/-- A range of a file: the index of the file, the offset and the length. -/
abbrev Location := Nat × Nat × Nat

def FileParameterDescriptor.location (entry : FileParameterDescriptor) : Location :=
  (entry.sourceFileIndex, entry.offset, entry.length)

structure FileParameterStorage where
  files : List CString
  entries : List (CString × Location)

namespace FileParameterStorage

def pathCstring (path : String) : Except DynInferError CString :=
  (CString.new (utf8 path)).mapError fun e => .runtime s!"path contains NUL: {e}"

/-- The size and the C string of a listed file. -/
def openFile (fs : FileSystem) (path : String) : Except DynInferError (Nat × CString) := do
  let metadata ← (fs.metadata path).mapError fun e => .runtime s!"cannot stat direct parameter file {path}: {e}"
  if !metadata.isFile then throw (.runtime s!"direct parameter source is not a file: {path}")
  return (metadata.len, ← pathCstring path)

/-- One descriptor, into the map of the keys seen so far. -/
def addEntry (fileSizes : List Nat) (keys : AssocMap String Location) (entry : FileParameterDescriptor) :
    Except DynInferError (AssocMap String Location) :=
  match fileSizes[entry.sourceFileIndex]? with
  | none => .error (.runtime s!"invalid direct parameter descriptor `{entry.key}`")
  | some size => do
    if entry.length = 0 then throw (.runtime s!"invalid direct parameter descriptor `{entry.key}`")
    if entry.offset + entry.length ≥ 2 ^ 64 then throw (.runtime s!"parameter range overflows for `{entry.key}`")
    if entry.offset + entry.length > size then
      throw (.runtime s!"parameter `{entry.key}` range [{entry.offset}, {entry.offset + entry.length}) exceeds file size {size}")
    match keys.get entry.key with
    | some existing =>
      if existing ≠ entry.location then
        throw (.runtime s!"direct parameter key `{entry.key}` maps to conflicting ranges")
      return keys
    | none => return keys.insert entry.key entry.location

/-- An entry of the map, for C. -/
def storeEntry (entry : String × Location) : Except DynInferError (CString × Location) := do
  let key ← (CString.new (utf8 entry.1)).mapError fun e => .runtime s!"invalid parameter key: {e}"
  return (key, entry.2)

/-- `FileParameterStorage::new`. The map gives its entries in the order of the keys. -/
def new (fs : FileSystem) (files : List String) (entries : List FileParameterDescriptor) :
    Except DynInferError FileParameterStorage := do
  if files = [] ∨ entries = [] then throw (.runtime "direct parameter files and entries must be non-empty")
  let opened ← files.mapM (openFile fs)
  let keys ← entries.foldlM (addEntry (opened.map (·.1))) []
  let stored ← (Sorting.sortByKey (·.1) keys).mapM storeEntry
  return { files := opened.map (·.2), entries := stored }

/-! ## Consistent descriptors -/

/-- A range that is not empty, does not overflow and lies in its file. -/
structure Placed (fs : FileSystem) (files : List String) (entry : FileParameterDescriptor) : Prop where
  nonempty : 0 < entry.length
  fits : entry.offset + entry.length < 2 ^ 64
  inside : ∃ path found, files[entry.sourceFileIndex]? = some path ∧ fs.metadata path = .ok found ∧
    entry.offset + entry.length ≤ found.len

/-- Every descriptor is placed, and the descriptors of a key name one range. -/
structure Consistent (fs : FileSystem) (files : List String) (entries : List FileParameterDescriptor) : Prop where
  placed : ∀ entry ∈ entries, Placed fs files entry
  agree : ∀ a ∈ entries, ∀ b ∈ entries, a.key = b.key → a.location = b.location

/-- A storage of these files and descriptors: each key once, with its range. -/
structure Holds (storage : FileParameterStorage) (files : List String) (entries : List FileParameterDescriptor) :
    Prop where
  files : storage.files.map (·.bytes) = files.map utf8
  keys : (storage.entries.map (·.1.bytes)).Nodup
  entries : ∀ (key : CString) (location : Location), (key, location) ∈ storage.entries ↔
    ∃ entry ∈ entries, utf8 entry.key = key.bytes ∧ entry.location = location

section new

variable {fs : FileSystem} {files : List String} {entries : List FileParameterDescriptor}

theorem openFile_ok_iff {path : String} {opened : Nat × CString} : openFile fs path = .ok opened ↔
    ∃ found, fs.metadata path = .ok found ∧ found.isFile = true ∧ opened.1 = found.len ∧
      opened.2.bytes = utf8 path := by
  obtain ⟨size, name⟩ := opened
  unfold openFile pathCstring
  cases fs.metadata path with
  | error e => simp [Except.mapError, bind, Except.bind]
  | ok found =>
    cases hfile : found.isFile with
    | false => simp [hfile, Except.mapError, bind, Except.bind]
    | true =>
      simp only [Except.mapError, hfile, Bool.not_true, Bool.false_eq_true, if_false, Fallible.ok_bind, Except.ok.injEq,
        exists_eq_left', true_and, ← CString.new_ok_iff]
      cases CString.new (utf8 path) with
      | error e => simp [bind, Except.bind]
      | ok c => simp [bind, Except.bind, pure, Except.pure, eq_comm]

theorem addEntry_ok_iff {fileSizes : List Nat} {keys keys' : AssocMap String Location}
    {entry : FileParameterDescriptor} : addEntry fileSizes keys entry = .ok keys' ↔
      (0 < entry.length ∧ entry.offset + entry.length < 2 ^ 64 ∧
        ∃ size, fileSizes[entry.sourceFileIndex]? = some size ∧ entry.offset + entry.length ≤ size) ∧
      (∀ location, keys.get entry.key = some location → location = entry.location) ∧
        keys' = keys.orInsert entry.key entry.location := by
  unfold addEntry AssocMap.orInsert
  cases hsize : fileSizes[entry.sourceFileIndex]? with
  | none => simp
  | some size =>
    simp only [Option.some.injEq, exists_eq_left']
    by_cases hzero : entry.length = 0
    · rw [if_pos hzero]
      exact ⟨nofun, fun h => absurd h.1.1 (by omega)⟩
    by_cases hover : entry.offset + entry.length ≥ 2 ^ 64
    · rw [if_neg hzero, if_pos hover]
      exact ⟨nofun, fun h => absurd h.1.2.1 (by omega)⟩
    by_cases hend : entry.offset + entry.length > size
    · rw [if_neg hzero, if_neg hover, if_pos hend]
      exact ⟨nofun, fun h => absurd h.1.2.2 (by omega)⟩
    rw [if_neg hzero, if_neg hover, if_neg hend]
    have hvalid : 0 < entry.length ∧ entry.offset + entry.length < 2 ^ 64 ∧ entry.offset + entry.length ≤ size := by
      omega
    cases keys.get entry.key with
    | none =>
      rw [eq_true hvalid]
      simp [pure, Except.pure, eq_comm]
    | some existing =>
      by_cases heq : existing = entry.location
      · rw [eq_true hvalid]
        simp [heq, pure, Except.pure, eq_comm]
      · simp [heq, throw, throwThe, MonadExceptOf.throw, bind, Except.bind]

theorem storeEntry_ok_iff {entry : String × Location} {stored : CString × Location} :
    storeEntry entry = .ok stored ↔ stored.1.bytes = utf8 entry.1 ∧ stored.2 = entry.2 := by
  obtain ⟨key, location⟩ := stored
  unfold storeEntry
  rw [← CString.new_ok_iff]
  cases CString.new (utf8 entry.1) with
  | error e => simp [Except.mapError, bind, Except.bind]
  | ok c => simp [Except.mapError, bind, Except.bind, pure, Except.pure, eq_comm]

/-- The map of the keys that a run of the loop builds. -/
def keysOf (entries : List FileParameterDescriptor) : AssocMap String Location :=
  AssocMap.orInsertAll [] (AssocMap.entriesOf (·.key) (·.location) entries)

theorem keysOf_nodup (entries : List FileParameterDescriptor) : ((keysOf entries).map (·.1)).Nodup :=
  AssocMap.orInsertAll_keys_nodup (m := []) List.nodup_nil _

theorem mem_keysOf_iff (h : AssocMap.Agree FileParameterDescriptor.key FileParameterDescriptor.location entries)
    {key : String} {location : Location} :
    (key, location) ∈ keysOf entries ↔ ∃ entry ∈ entries, entry.key = key ∧ entry.location = location := by
  rw [← AssocMap.get_entriesOf_iff h]
  have hget : (keysOf entries).get key = (AssocMap.entriesOf (·.key) (·.location) entries).get key :=
    AssocMap.get_orInsertAll [] _ key
  rw [← hget]
  exact ⟨AssocMap.get_of_mem (keysOf_nodup entries), AssocMap.mem_of_get⟩

/-- With the files open, a descriptor is placed where its range fits the size of its file. -/
theorem placed_iff {opened : List (Nat × CString)} (hopened : files.mapM (openFile fs) = .ok opened)
    {entry : FileParameterDescriptor} : Placed fs files entry ↔
      0 < entry.length ∧ entry.offset + entry.length < 2 ^ 64 ∧
        ∃ size, (opened.map (·.1))[entry.sourceFileIndex]? = some size ∧ entry.offset + entry.length ≤ size := by
  have hsize (size : Nat) : (opened.map (·.1))[entry.sourceFileIndex]? = some size ↔
      ∃ path found, files[entry.sourceFileIndex]? = some path ∧ fs.metadata path = .ok found ∧ found.len = size := by
    rw [List.getElem?_map]
    rcases Fallible.getElem?_forall₂ (Fallible.mapM_ok hopened) entry.sourceFileIndex with
      ⟨hfile, hopen⟩ | ⟨path, item, hfile, hopen, hitem⟩
    · simp [hfile, hopen]
    · obtain ⟨found, hfound, -, hlen, -⟩ := openFile_ok_iff.mp hitem
      simp [hfile, hopen, hfound, hlen]
  constructor
  · intro h
    obtain ⟨path, found, hpath, hfound, hend⟩ := h.inside
    exact ⟨h.nonempty, h.fits, found.len, (hsize _).mpr ⟨path, found, hpath, hfound, rfl⟩, hend⟩
  · rintro ⟨hnonempty, hfits, size, hget, hend⟩
    obtain ⟨path, found, hpath, hfound, rfl⟩ := (hsize _).mp hget
    exact ⟨hnonempty, hfits, path, found, hpath, hfound, hend⟩

/-- What a storage is built of. -/
theorem new_ok_iff (hfiles : files ≠ []) (hentries : entries ≠ []) {opened : List (Nat × CString)}
    (hopened : files.mapM (openFile fs) = .ok opened) {storage : FileParameterStorage} :
    new fs files entries = .ok storage ↔ Consistent fs files entries ∧ storage.files = opened.map (·.2) ∧
      (Sorting.sortByKey (·.1) (keysOf entries)).mapM storeEntry = .ok storage.entries := by
  have hloop (keys : AssocMap String Location) :
      entries.foldlM (addEntry (opened.map (·.1))) [] = .ok keys ↔
        Consistent fs files entries ∧ keys = keysOf entries := by
    refine (AssocMap.foldlM_agree_iff (f := addEntry (opened.map (·.1))) fun m x m' => addEntry_ok_iff).trans ?_
    simp only [← placed_iff hopened]
    constructor
    · rintro ⟨hplaced, -, hagree, rfl⟩
      exact ⟨⟨hplaced, hagree⟩, rfl⟩
    · rintro ⟨⟨hplaced, hagree⟩, rfl⟩
      exact ⟨hplaced, fun _ _ _ => nofun, hagree, rfl⟩
  obtain ⟨files', entries'⟩ := storage
  unfold new
  rw [if_neg (by simp [hfiles, hentries]), hopened, Fallible.ok_bind]
  simp only [Fallible.bind_ok_iff, hloop]
  constructor
  · rintro ⟨keys, ⟨hconsistent, rfl⟩, stored, hstored, hnew⟩
    cases hnew
    exact ⟨hconsistent, rfl, hstored⟩
  · rintro ⟨hconsistent, rfl, hstored⟩
    exact ⟨_, ⟨hconsistent, rfl⟩, entries', hstored, rfl⟩

/-- The stored entries of consistent descriptors. -/
theorem holds_of_new (hfiles : files ≠ []) (hentries : entries ≠ []) {opened : List (Nat × CString)}
    (hopened : files.mapM (openFile fs) = .ok opened) {storage : FileParameterStorage}
    (h : new fs files entries = .ok storage) : storage.Holds files entries := by
  obtain ⟨hconsistent, hnames, hstored⟩ := (new_ok_iff hfiles hentries hopened).mp h
  have hperm := Sorting.perm_sortByKey (·.1) (keysOf entries)
  have hbytes : storage.entries.map (fun stored => (stored.1.bytes, stored.2)) =
      (Sorting.sortByKey (·.1) (keysOf entries)).map fun entry => (utf8 entry.1, entry.2) := by
    rw [← List.forall₂_eq_eq_eq, List.forall₂_map_left_iff, List.forall₂_map_right_iff]
    refine (Fallible.mapM_ok hstored).flip.imp fun stored entry hstore => ?_
    obtain ⟨hkey, hlocation⟩ := storeEntry_ok_iff.mp hstore
    rw [hkey, hlocation]
  refine ⟨?_, ?_, fun key location => ?_⟩
  · rw [hnames, List.map_map, ← List.forall₂_eq_eq_eq, List.forall₂_map_left_iff, List.forall₂_map_right_iff]
    refine (Fallible.mapM_ok hopened).flip.imp fun item path hopen => ?_
    obtain ⟨found, -, -, -, hname⟩ := openFile_ok_iff.mp hopen
    exact hname
  · have hkeys : storage.entries.map (·.1.bytes) =
        ((Sorting.sortByKey (·.1) (keysOf entries)).map (·.1)).map utf8 := by
      simpa only [List.map_map, Function.comp_def] using congrArg (List.map Prod.fst) hbytes
    rw [hkeys]
    exact ((hperm.map _).nodup_iff.mpr (keysOf_nodup entries)).map fun _ _ => utf8_inj
  · have hmem : (key, location) ∈ storage.entries ↔
        (key.bytes, location) ∈ storage.entries.map fun stored => (stored.1.bytes, stored.2) := by
      constructor
      · exact fun h => List.mem_map.mpr ⟨_, h, rfl⟩
      · intro h
        obtain ⟨⟨⟨bytes, hnul⟩, location'⟩, hin, heq⟩ := List.mem_map.mp h
        cases heq
        exact hin
    rw [hmem, hbytes]
    simp only [List.mem_map, hperm.mem_iff, Prod.mk.injEq]
    constructor
    · rintro ⟨⟨name, location'⟩, hentry, hkey, rfl⟩
      obtain ⟨declared, hdeclared, rfl, hlocation⟩ := (mem_keysOf_iff hconsistent.agree).mp hentry
      exact ⟨declared, hdeclared, hkey, hlocation⟩
    · rintro ⟨declared, hdeclared, hkey, hlocation⟩
      exact ⟨(declared.key, location), (mem_keysOf_iff hconsistent.agree).mpr ⟨declared, hdeclared, rfl, hlocation⟩,
        hkey, rfl⟩

theorem Consistent.perm {entries' : List FileParameterDescriptor} (h : Consistent fs files entries)
    (hperm : entries'.Perm entries) : Consistent fs files entries' :=
  ⟨fun entry hentry => h.placed entry (hperm.mem_iff.mp hentry),
    fun a ha b hb => h.agree a (hperm.mem_iff.mp ha) b (hperm.mem_iff.mp hb)⟩

/-- Consistent descriptors in another order build the same map, up to its order. -/
theorem keysOf_perm {entries' : List FileParameterDescriptor} (h : Consistent fs files entries)
    (hperm : entries'.Perm entries) : (keysOf entries').Perm (keysOf entries) := by
  refine (List.perm_ext_iff_of_nodup (keysOf_nodup entries').of_map (keysOf_nodup entries).of_map).mpr fun e => ?_
  obtain ⟨key, location⟩ := e
  rw [mem_keysOf_iff (h.perm hperm).agree, mem_keysOf_iff h.agree]
  simp only [hperm.mem_iff]

/-- What is built does not depend on the order of the descriptors. -/
theorem new_perm {entries' : List FileParameterDescriptor} (hfiles : files ≠ []) (hentries : entries ≠ [])
    {opened : List (Nat × CString)} (hopened : files.mapM (openFile fs) = .ok opened) (hperm : entries'.Perm entries)
    {storage : FileParameterStorage} (h : new fs files entries = .ok storage) :
    new fs files entries' = .ok storage := by
  have hentries' : entries' ≠ [] := fun hnil => hentries (hnil ▸ hperm).symm.eq_nil
  obtain ⟨hconsistent, hnames, hstored⟩ := (new_ok_iff hfiles hentries hopened).mp h
  refine (new_ok_iff hfiles hentries' hopened).mpr ⟨hconsistent.perm hperm, hnames, ?_⟩
  rw [(Sorting.sortByKey_eq_iff (keysOf_nodup entries')).mpr (keysOf_perm hconsistent hperm)]
  exact hstored

end new

/-- **Parameter files.** Over regular files and keys without a NUL, a storage is built exactly when the descriptors
are consistent; it holds each key once with its range, and does not depend on the order of the descriptors. -/
theorem new_exact (fs : FileSystem) {files : List String} {entries : List FileParameterDescriptor} (hfiles : files ≠ [])
    (hentries : entries ≠ []) (hregular : ∀ path ∈ files, ∃ found, fs.metadata path = .ok found ∧ found.isFile = true)
    (hkeys : ∀ entry ∈ entries, 0 ∉ utf8 entry.key) :
    ((∃ storage, new fs files entries = .ok storage) ↔ Consistent fs files entries) ∧
      (∀ storage, new fs files entries = .ok storage → storage.Holds files entries) ∧
      ∀ entries', entries'.Perm entries → ∀ storage,
        new fs files entries' = .ok storage ↔ new fs files entries = .ok storage := by
  have hopens : ∀ path ∈ files, ∃ opened, openFile fs path = .ok opened := by
    intro path hpath
    obtain ⟨found, hfound, hfile⟩ := hregular path hpath
    exact ⟨(found.len, ⟨utf8 path, fs.noNul path found hfound⟩),
      openFile_ok_iff.mpr ⟨found, hfound, hfile, rfl, rfl⟩⟩
  obtain ⟨opened, hopened⟩ := Fallible.mapM_total hopens
  refine ⟨⟨fun ⟨storage, h⟩ => ((new_ok_iff hfiles hentries hopened).mp h).1, fun hconsistent => ?_⟩,
    fun storage h => holds_of_new hfiles hentries hopened h, fun entries' hperm storage => ⟨fun h => ?_, fun h => ?_⟩⟩
  · have hstore : ∀ entry ∈ Sorting.sortByKey (·.1) (keysOf entries), ∃ stored, storeEntry entry = .ok stored := by
      intro entry hentry
      obtain ⟨declared, hdeclared, hkey, -⟩ :=
        (mem_keysOf_iff hconsistent.agree).mp ((Sorting.perm_sortByKey _ _).mem_iff.mp hentry)
      exact ⟨(⟨utf8 entry.1, hkey ▸ hkeys declared hdeclared⟩, entry.2), storeEntry_ok_iff.mpr ⟨rfl, rfl⟩⟩
    obtain ⟨stored, hstored⟩ := Fallible.mapM_total hstore
    exact ⟨⟨opened.map (·.2), stored⟩, (new_ok_iff hfiles hentries hopened).mpr ⟨hconsistent, rfl, hstored⟩⟩
  · have hentries' : entries' ≠ [] := fun hnil => hentries (hnil ▸ hperm).symm.eq_nil
    exact new_perm hfiles hentries' hopened hperm.symm h
  · exact new_perm hfiles hentries hopened hperm h

/-- A file of 64 bytes. -/
def oneFile : FileSystem where
  metadata path := if path = "a" then .ok ⟨true, 64⟩ else .error "No such file or directory"
  noNul path found h := by
    split at h
    case isTrue hpath => subst hpath; decide +kernel
    case isFalse => cases h

theorem new_exact_aliases :
    ((∃ storage, new oneFile ["a"] [⟨"shared", 0, 8, 16⟩, ⟨"shared", 0, 8, 16⟩] = .ok storage) ↔
        Consistent oneFile ["a"] [⟨"shared", 0, 8, 16⟩, ⟨"shared", 0, 8, 16⟩]) ∧
      (∀ storage, new oneFile ["a"] [⟨"shared", 0, 8, 16⟩, ⟨"shared", 0, 8, 16⟩] = .ok storage →
        storage.Holds ["a"] [⟨"shared", 0, 8, 16⟩, ⟨"shared", 0, 8, 16⟩]) ∧
      ∀ entries', entries'.Perm [⟨"shared", 0, 8, 16⟩, ⟨"shared", 0, 8, 16⟩] → ∀ storage,
        new oneFile ["a"] entries' = .ok storage ↔
          new oneFile ["a"] [⟨"shared", 0, 8, 16⟩, ⟨"shared", 0, 8, 16⟩] = .ok storage := by
  refine new_exact oneFile (by simp) (by simp) ?_ ?_
  · simp [oneFile]
  · intro entry hentry
    have hkey : entry.key = "shared" := by
      rcases List.mem_cons.mp hentry with rfl | hentry
      · rfl
      · rw [List.mem_singleton.mp hentry]
    rw [hkey]
    decide +kernel

end FileParameterStorage

end Dyninfer
