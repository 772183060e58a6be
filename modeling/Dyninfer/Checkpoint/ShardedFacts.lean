/-
The merge of a sharded checkpoint. The shards are read one after the other,
each under the next file index, and each must hold exactly the tensors the
weight map gives it; so the merged entries are the keys of the map, each from
its own shard.
-/
import Dyninfer.Checkpoint.SafeTensorsFacts

namespace Dyninfer.SafeTensors

open Bytes

/-! ## One shard after the other -/

/-- A shard that was read. -/
structure ReadShard where
  name : String
  source : RandomAccessSource
  index : RawCheckpointIndex
  file : SourceFile

/-- The shard's entries, as those of the file with the given index. -/
def ReadShard.entriesAt (shard : ReadShard) (sourceFileIndex : Nat) : List RawTensorEntry :=
  shard.index.entries.map fun entry => { entry with sourceFileIndex }

/-- The shard is the file of its name, and holds the tensors that the map gives it. -/
structure ReadShard.Agrees (serde : Serde) (files : Files) (dir : String) (limits : InspectionLimits)
    (weightMap : AssocMap String String) (shard : ReadShard) : Prop where
  opened : files.openIn dir shard.name = .ok shard.source
  indexed : SafeTensors.index serde shard.source limits = .ok shard.index
  file : shard.index.sourceFiles.head? = some shard.file
  keys : ∀ key, key ∈ shard.index.entries.map (·.key) ↔ (key, shard.name) ∈ weightMap

/-- The entries of shards that are read under consecutive file indices. -/
def entriesFrom (start : Nat) (shards : List ReadShard) : List RawTensorEntry :=
  (shards.zipIdx start).flatMap fun s => s.1.entriesAt s.2

section merge

variable {serde : Serde} {files : Files} {dir : String} {limits : InspectionLimits} {weightMap : AssocMap String String}

theorem mem_expectedOf {key shard : String} : key ∈ expectedOf weightMap shard ↔ (key, shard) ∈ weightMap := by
  unfold expectedOf
  simp

theorem mergeShard_ok {merged merged' : Merged} {name : String}
    (h : mergeShard serde files dir limits weightMap merged name = .ok merged') :
    ∃ shard : ReadShard, shard.name = name ∧ shard.Agrees serde files dir limits weightMap ∧
      merged' = ⟨merged.entries ++ shard.entriesAt merged.sourceFiles.length, merged.sourceFiles ++ [shard.file],
        merged.metadata.orInsertAll shard.index.metadata⟩ := by
  obtain ⟨source, hopen, h⟩ := Fallible.bind_ok h
  obtain ⟨found, hindex, h⟩ := Fallible.bind_ok h
  obtain ⟨hkeys, h⟩ := Fallible.ite_throw_ok h
  obtain ⟨-, h⟩ := Fallible.ite_throw_ok h
  split at h
  case h_1 => cases h
  case h_2 file hfile =>
    cases h
    refine ⟨⟨name, source, found, file⟩, rfl, ⟨hopen, hindex, hfile, fun key => ?_⟩, rfl⟩
    simp only [ne_eq, not_or, not_not, List.filter_eq_nil_iff, Bool.not_eq_true', Bool.not_eq_false,
      List.contains_iff_mem, mem_expectedOf] at hkeys
    exact ⟨hkeys.2 key, hkeys.1 key⟩

/-- The whole loop: the shards in turn. -/
theorem foldlM_mergeShard_ok {names : List String} {merged merged' : Merged}
    (h : names.foldlM (mergeShard serde files dir limits weightMap) merged = .ok merged') :
    ∃ shards : List ReadShard, shards.map (·.name) = names ∧
      (∀ shard ∈ shards, shard.Agrees serde files dir limits weightMap) ∧
      merged' = ⟨merged.entries ++ entriesFrom merged.sourceFiles.length shards,
        merged.sourceFiles ++ shards.map (·.file),
        shards.foldl (fun metadata shard => metadata.orInsertAll shard.index.metadata) merged.metadata⟩ := by
  induction names generalizing merged with
  | nil => cases h; exact ⟨[], rfl, by simp, by simp [entriesFrom]⟩
  | cons name names ih =>
    rw [List.foldlM_cons] at h
    obtain ⟨next, hnext, h⟩ := Fallible.bind_ok h
    obtain ⟨shard, hname, hagrees, rfl⟩ := mergeShard_ok hnext
    obtain ⟨shards, hnames, hall, rfl⟩ := ih h
    refine ⟨shard :: shards, by simp [hname, hnames], List.forall_mem_cons.mpr ⟨hagrees, hall⟩, ?_⟩
    simp [entriesFrom, List.zipIdx_cons]

/-- What a successful sharded index is made of. -/
structure ShardedIndexed (serde : Serde) (files : Files) (source : RandomAccessSource) (limits : InspectionLimits)
    (found : RawCheckpointIndex) (dir : String) (parsed : IndexFile) (shards : List ReadShard) : Prop where
  directory : ∃ path, source.path = some path ∧ files.parent path = some dir
  indexFile : serde.indexFile source.bytes = .ok parsed
  size : source.len ≤ limits.maxHeaderBytes
  count : parsed.weightMap.length ≤ limits.maxTensorCount
  keys : ∀ entry ∈ parsed.weightMap, entry.1.utf8ByteSize ≤ limits.maxKeyLen
  names : shards.map (·.name) = shardNames parsed.weightMap
  agrees : ∀ shard ∈ shards, shard.Agrees serde files dir limits parsed.weightMap
  entries : found.entries = Sorting.sortByKey (·.key) (entriesFrom 0 shards)
  sourceFiles : found.sourceFiles = shards.map (·.file)
  metadata : found.metadata =
    shards.foldl (fun metadata shard => metadata.orInsertAll shard.index.metadata) parsed.metadata

theorem shardedIndex_ok {source : RandomAccessSource} {found : RawCheckpointIndex}
    (h : shardedIndex serde files source limits = .ok found) :
    ∃ dir parsed shards, ShardedIndexed serde files source limits found dir parsed shards := by
  obtain ⟨hlen, h⟩ := Fallible.ite_throw_ok h
  split at h
  case h_1 => cases h
  case h_2 path hpath =>
    split at h
    case h_1 => cases h
    case h_2 dir hdir =>
      obtain ⟨bytes, hbytes, h⟩ := Fallible.bind_ok h
      have hall : bytes = source.bytes := by
        rw [(source.readRange_ok hbytes).2]
        simp [RandomAccessSource.len]
      subst hall
      split at h
      case h_1 => cases h
      case h_2 parsed hparsed =>
        obtain ⟨-, h⟩ := Fallible.ite_throw_ok h
        obtain ⟨hcount, h⟩ := Fallible.ite_throw_ok h
        obtain ⟨_, hkeys, h⟩ := Fallible.bind_ok h
        obtain ⟨merged, hmerged, h⟩ := Fallible.bind_ok h
        cases h
        obtain ⟨shards, hnames, hagrees, rfl⟩ := foldlM_mergeShard_ok hmerged
        refine ⟨dir, parsed, shards, ⟨path, hpath, hdir⟩, hparsed, by omega, by omega, fun entry hentry => ?_, hnames,
          hagrees, by simp, by simp, rfl⟩
        obtain ⟨_, hkey, -⟩ := Fallible.bind_ok (Fallible.forM_ok hkeys entry hentry)
        exact InspectionLimits.validateKey_ok_iff.mp hkey

end merge

/-! ## The merge -/

/-- An entry of a sharded index: the shard that the map names for its key is the file its index denotes, and
its shape, type and bytes are those that the shard's own header declares for the key. -/
structure FromShard (serde : Serde) (files : Files) (dir : String) (limits : InspectionLimits)
    (weightMap : AssocMap String String) (found : RawCheckpointIndex) (entry : RawTensorEntry) (shard : String)
    (source : RandomAccessSource) : Prop where
  mapped : (entry.key, shard) ∈ weightMap
  opened : files.openIn dir shard = .ok source
  named : (shardNames weightMap)[entry.sourceFileIndex]? = some shard
  file : ∃ path, source.path = some path ∧ found.sourceFiles[entry.sourceFileIndex]? = some ⟨path, source.len⟩
  declared : ∃ len fields value info ty, headerLen source limits = .ok len ∧
    headerFields serde source len = .ok fields ∧ (entry.key, value) ∈ fields ∧ serde.tensorInfo value = .ok info ∧
    parseDtype info.dtype = .ok ty ∧ entry.shape = info.shape ∧ entry.storageType = .scalar ty ∧
    entry.byteRanges = [⟨8 + len + info.dataStart, info.dataEnd - info.dataStart⟩] ∧
    8 + len + info.dataStart + (info.dataEnd - info.dataStart) ≤ source.len

/-- One entry for every key of the map and no other, each from its shard. -/
structure MergeExact (serde : Serde) (files : Files) (dir : String) (limits : InspectionLimits)
    (weightMap : AssocMap String String) (found : RawCheckpointIndex) : Prop where
  once : (found.entries.map (·.key)).Nodup
  listed : ∀ key, key ∈ found.entries.map (·.key) ↔ key ∈ weightMap.map (·.1)
  entries : ∀ entry ∈ found.entries, ∃ shard source, FromShard serde files dir limits weightMap found entry shard source

section exact

variable {serde : Serde} {files : Files} {dir : String} {limits : InspectionLimits} {weightMap : AssocMap String String}

theorem mem_shardNames {shard : String} : shard ∈ shardNames weightMap ↔ ∃ key, (key, shard) ∈ weightMap := by
  unfold shardNames Sorting.sortByKey
  rw [(List.mergeSort_perm _ _).mem_iff, List.mem_dedup]
  simp

theorem shardNames_nodup : (shardNames weightMap).Nodup :=
  (List.mergeSort_perm _ _).nodup_iff.mpr (List.nodup_dedup _)

theorem mem_entriesFrom {start : Nat} {shards : List ReadShard} {entry : RawTensorEntry} :
    entry ∈ entriesFrom start shards ↔ ∃ (shard : ReadShard) (i : Nat), shards[i]? = some shard ∧
      ∃ own ∈ shard.index.entries, entry = { own with sourceFileIndex := start + i } := by
  unfold entriesFrom ReadShard.entriesAt
  simp only [List.mem_flatMap, List.mem_map, Prod.exists, List.mem_zipIdx_iff_le_and_getElem?_sub]
  constructor
  · rintro ⟨shard, i, ⟨hle, hget⟩, own, hown, rfl⟩
    exact ⟨shard, i - start, hget, own, hown, by rw [Nat.add_sub_cancel' hle]⟩
  · rintro ⟨shard, i, hget, own, hown, rfl⟩
    exact ⟨shard, start + i, ⟨Nat.le_add_right _ _, by rwa [Nat.add_sub_cancel_left]⟩, own, hown, rfl⟩

theorem entriesFrom_keys (start : Nat) (shards : List ReadShard) :
    (entriesFrom start shards).map (·.key) = shards.flatMap fun shard => shard.index.entries.map (·.key) := by
  induction shards generalizing start with
  | nil => rfl
  | cons shard shards ih =>
    have hrest := ih (start + 1)
    unfold entriesFrom at hrest ⊢
    rw [List.zipIdx_cons, List.flatMap_cons, List.flatMap_cons, List.map_append, hrest]
    simp [ReadShard.entriesAt, Function.comp_def]

theorem index_keys_nodup {source : RandomAccessSource} {found : RawCheckpointIndex}
    (h : index serde source limits = .ok found) : (found.entries.map (·.key)).Nodup := by
  obtain ⟨len, fields, entries, hindexed⟩ := index_ok h
  rw [(hindexed.perm.map _).nodup_iff, hindexed.keys]
  exact ((headerFields_nodup hindexed.readFields).sublist (List.filter_sublist.map _))

/-- The keys of shards that agree with one map are distinct. -/
theorem flatMap_keys_nodup (hmap : (weightMap.map (·.1)).Nodup) {shards : List ReadShard}
    (hnames : (shards.map (·.name)).Nodup) (h : ∀ shard ∈ shards, shard.Agrees serde files dir limits weightMap) :
    (shards.flatMap fun shard => shard.index.entries.map (·.key)).Nodup := by
  induction shards with
  | nil => exact List.nodup_nil
  | cons shard shards ih =>
    rw [List.map_cons, List.nodup_cons] at hnames
    rw [List.forall_mem_cons] at h
    rw [List.flatMap_cons, List.nodup_append]
    refine ⟨index_keys_nodup h.1.indexed, ih hnames.2 h.2, ?_⟩
    rintro key hkey _ hother rfl
    obtain ⟨other, hmem, hother⟩ := List.mem_flatMap.mp hother
    have hfirst := (h.1.keys key).mp hkey
    have hsecond := ((h.2 other hmem).keys key).mp hother
    have hname : shard.name = other.name := congrArg Prod.snd (List.inj_on_of_nodup_map hmap hfirst hsecond rfl)
    exact hnames.1 (hname ▸ List.mem_map_of_mem hmem)

/-- An entry of a shard comes from it. -/
theorem ShardedIndexed.fromShard {source : RandomAccessSource} {found : RawCheckpointIndex} {parsed : IndexFile}
    {shards : List ReadShard} (h : ShardedIndexed serde files source limits found dir parsed shards)
    {entry : RawTensorEntry} (hentry : entry ∈ found.entries) :
    ∃ shard source, FromShard serde files dir limits parsed.weightMap found entry shard source := by
  rw [h.entries] at hentry
  obtain ⟨shard, i, hget, own, hown, rfl⟩ := mem_entriesFrom.mp ((List.mergeSort_perm _ _).mem_iff.mp hentry)
  rw [Nat.zero_add]
  have hagrees := h.agrees shard (List.mem_of_getElem? hget)
  obtain ⟨len, fields, entries, hindexed⟩ := index_ok hagrees.indexed
  obtain ⟨field, hfield, hread⟩ := declared_of_forall₂ hindexed.readEntries own (hindexed.perm.mem_iff.mp hown)
  obtain ⟨info, ty, numel, hinfo, hty, -, -, -, -, hshape, htype, hrange, hend⟩ := (readEntry_ok hread).1.info
  have hkey : own.key = field.1 := (readEntry_ok hread).1.key
  refine ⟨shard.name, shard.source, ?_, hagrees.opened, ?_, ?_, ?_⟩
  · exact (hagrees.keys own.key).mp (List.mem_map_of_mem hown)
  · rw [← h.names, List.getElem?_map, hget, Option.map_some]
  · obtain ⟨path, hpath⟩ := Option.isSome_iff_exists.mp (files.openIn_path _ _ _ hagrees.opened)
    have hfile := hagrees.file
    rw [hindexed.indexFiles, RandomAccessSource.sourceFiles, hpath] at hfile
    refine ⟨path, hpath, ?_⟩
    rw [h.sourceFiles, List.getElem?_map, hget, Option.map_some]
    exact hfile.symm
  · refine ⟨len, fields, field.2, info, ty, hindexed.readLen, hindexed.readFields, ?_, hinfo, hty, hshape, htype, hrange,
      hend⟩
    rw [hkey]
    exact List.mem_of_mem_filter hfield

theorem ShardedIndexed.exact {source : RandomAccessSource} {found : RawCheckpointIndex} {parsed : IndexFile}
    {shards : List ReadShard} (h : ShardedIndexed serde files source limits found dir parsed shards) :
    MergeExact serde files dir limits parsed.weightMap found := by
  have hkeys : (found.entries.map (·.key)).Perm (shards.flatMap fun shard => shard.index.entries.map (·.key)) := by
    rw [h.entries, ← entriesFrom_keys 0]
    exact (List.mergeSort_perm _ _).map _
  refine ⟨?_, fun key => ?_, fun entry => h.fromShard⟩
  · rw [hkeys.nodup_iff]
    exact flatMap_keys_nodup (serde.weightMap_keys _ _ h.indexFile) (h.names ▸ shardNames_nodup) h.agrees
  · rw [hkeys.mem_iff, List.mem_flatMap, List.mem_map]
    constructor
    · rintro ⟨shard, hshard, hkey⟩
      exact ⟨_, ((h.agrees shard hshard).keys key).mp hkey, rfl⟩
    · rintro ⟨⟨key, name⟩, hmapped, rfl⟩
      have hname : name ∈ shards.map (·.name) := h.names ▸ mem_shardNames.mpr ⟨key, hmapped⟩
      obtain ⟨shard, hshard, rfl⟩ := List.mem_map.mp hname
      exact ⟨shard, hshard, ((h.agrees shard hshard).keys key).mpr hmapped⟩

/-- The entries of a sharded index have the bytes of their types and shapes. -/
theorem shardedIndex_fills {source : RandomAccessSource} {found : RawCheckpointIndex}
    (h : shardedIndex serde files source limits = .ok found) : ∀ entry ∈ found.entries, entry.Fills := by
  obtain ⟨dir, parsed, shards, hindexed⟩ := shardedIndex_ok h
  intro entry hentry
  rw [hindexed.entries] at hentry
  obtain ⟨shard, i, hget, own, hown, rfl⟩ := mem_entriesFrom.mp ((List.mergeSort_perm _ _).mem_iff.mp hentry)
  exact index_fills (hindexed.agrees shard (List.mem_of_getElem? hget)).indexed own hown

/-- The shard of a file name holds a tensor. -/
def ShardHolds (serde : Serde) (files : Files) (dir : String) (limits : InspectionLimits) (shard key : String) : Prop :=
  ∃ source len fields, files.openIn dir shard = .ok source ∧ headerLen source limits = .ok len ∧
    headerFields serde source len = .ok fields ∧ key ∈ (tensorFields fields).map (·.1)

theorem ReadShard.Agrees.holds {shard : ReadShard} (h : shard.Agrees serde files dir limits weightMap) {key : String}
    (hkey : key ∈ shard.index.entries.map (·.key)) : ShardHolds serde files dir limits shard.name key := by
  obtain ⟨len, fields, entries, hindexed⟩ := index_ok h.indexed
  rw [(hindexed.perm.map _).mem_iff, hindexed.keys] at hkey
  exact ⟨shard.source, len, fields, h.opened, hindexed.readLen, hindexed.readFields, hkey⟩

end exact

/-! ### Two shards -/

/-- The tensor of a shard: that of the first is listed last. -/
def splitKey : Bool → String
  | true => "t"
  | false => "s"

def splitName : Bool → String
  | true => "a.safetensors"
  | false => "b.safetensors"

def splitHeader (first : Bool) : String :=
  "\x7b\"__metadata__\":\x7b\"format\":\"mlx\"\x7d,\"" ++ splitKey first ++
    "\":\x7b\"dtype\":\"U8\",\"shape\":[1],\"data_offsets\":[0,1]\x7d\x7d"

def splitFields (first : Bool) : List (String × Json) :=
  [("__metadata__", .object [("format", .string "mlx")]),
    (splitKey first, .object [("dtype", .string "U8"), ("shape", .array [.ofNat 1]),
      ("data_offsets", .array [.ofNat 0, .ofNat 1])])]

def splitIndex : String :=
  "\x7b\"metadata\":\x7b\"total_size\":2\x7d,\"weight_map\":\x7b\"s\":\"b.safetensors\",\"t\":\"a.safetensors\"\x7d\x7d"

def splitParsed : IndexFile where
  metadata := [("total_size", .ofNat 2)]
  weightMap := [("s", "b.safetensors"), ("t", "a.safetensors")]

/-- Limits without room for metadata. -/
def bareLimits : InspectionLimits := { maxMetadataEntries := 0 }

/-- `serde_json` on the headers and the index file of a checkpoint of two shards. -/
def splitSerde : Serde where
  fromSlice bs :=
    if bs = utf8 (splitHeader true) then .ok (.object (splitFields true))
    else if bs = utf8 (splitHeader false) then .ok (.object (splitFields false))
    else .error "expected value"
  tensorInfo _ := .ok ⟨"U8", [1], 0, 1⟩
  indexFile bs := if bs = utf8 splitIndex then .ok splitParsed else .error "expected value"
  object_keys bs fields h := by
    split at h
    · cases h; decide
    · split at h
      · cases h; decide
      · cases h
  weightMap_keys bs parsed h := by
    split at h
    · cases h; decide
    · cases h

def splitShard (first : Bool) : RandomAccessSource where
  kind := .file
  path := some ("d/" ++ splitName first)
  bytes := toLe 8 (utf8 (splitHeader first)).length ++ utf8 (splitHeader first) ++ [7]
  size := by cases first <;> decide +kernel

def splitSource : RandomAccessSource where
  kind := .file
  path := some "d/model.safetensors.index.json"
  bytes := utf8 splitIndex
  size := by decide +kernel

def splitFiles : Files where
  parent _ := some "d"
  openIn _ name :=
    if name = splitName true then .ok (splitShard true)
    else if name = splitName false then .ok (splitShard false)
    else .error (.io "No such file or directory" none)
  openIn_path dir name source h := by
    split at h
    · cases h; rfl
    · split at h
      · cases h; rfl
      · cases h

theorem splitShard_parsed (first : Bool) :
    splitSerde.fromSlice (utf8 (splitHeader first)) = .ok (.object (splitFields first)) := by
  cases first with
  | true => simp [splitSerde]
  | false =>
    have hother : utf8 (splitHeader false) ≠ utf8 (splitHeader true) := by decide +kernel
    simp [splitSerde, hother]

theorem splitShard_fields (first : Bool) :
    headerFields splitSerde (splitShard first) (utf8 (splitHeader first)).length = .ok (splitFields first) := by
  have hlong : ¬ (splitShard first).len < dataBase (utf8 (splitHeader first)).length := by
    cases first <;> decide +kernel
  have hbytes : (splitShard first).bytes =
      toLe 8 (utf8 (splitHeader first)).length ++ utf8 (splitHeader first) ++ [7] := rfl
  have hread : (splitShard first).readRange 8 (utf8 (splitHeader first)).length = .ok (utf8 (splitHeader first)) :=
    RandomAccessSource.readRange_eq hbytes
  unfold headerFields
  rw [if_neg hlong, hread, Fallible.ok_bind, splitShard_parsed]
  rfl

def splitEntry (first : Bool) : RawTensorEntry where
  key := splitKey first
  sourceFileIndex := 0
  shape := [1]
  storageType := .scalar .u8
  byteRanges := [⟨8 + (utf8 (splitHeader first)).length, 1⟩]
  alignment := 1
  endianness := .little
  metadata := []

theorem splitShard_index (first : Bool) : ∃ found, index splitSerde (splitShard first) bareLimits = .ok found ∧
    found.entries = [splitEntry first] ∧ found.sourceFiles = (splitShard first).sourceFiles ∧
      found.metadata = headerMetadata (splitFields first) := by
  have hlen : headerLen (splitShard first) bareLimits = .ok (utf8 (splitHeader first)).length := by
    cases first <;> decide +kernel
  have htotal : saturatingSum (declaredBytes [splitEntry first]) ≤ 2 ^ 50 := by cases first <;> decide +kernel
  cases first with
  | true => exact index_lone hlen (splitShard_fields true) rfl rfl (by decide) htotal
  | false => exact index_lone hlen (splitShard_fields false) rfl rfl (by decide) htotal

theorem splitSource_parsed : splitSerde.indexFile (utf8 splitIndex) = .ok splitParsed := by
  simp [splitSerde]

/-- One more shard. -/
theorem splitShard_merged (first : Bool) (merged : Merged) (hfiles : merged.sourceFiles.length < 2) :
    ∃ merged', mergeShard splitSerde splitFiles "d" bareLimits splitParsed.weightMap merged (splitName first) = .ok merged' ∧
      merged'.sourceFiles.length = merged.sourceFiles.length + 1 := by
  have hopen : splitFiles.openIn "d" (splitName first) = .ok (splitShard first) := by
    cases first <;> simp [splitFiles, splitName]
  have hexpected : expectedOf splitParsed.weightMap (splitName first) = [splitKey first] := by
    cases first <;> decide
  obtain ⟨found, hfound, hentries, hsources, -⟩ := splitShard_index first
  have hkey : (splitEntry first).key = splitKey first := rfl
  have hlisted : [splitKey first].filter (fun key => !([splitKey first].contains key)) = [] := by simp
  have hindex : ¬ merged.sourceFiles.length ≥ 2 ^ 32 := by omega
  obtain ⟨file, hfile⟩ : ∃ file, (splitShard first).sourceFiles.head? = some file := ⟨_, rfl⟩
  unfold mergeShard
  rw [hopen, Fallible.ok_bind, hfound, Fallible.ok_bind]
  simp only [hentries, hsources, hexpected, List.map_cons, List.map_nil, hkey, hlisted, ne_eq, not_true_eq_false, or_self,
    if_false, if_neg hindex, hfile]
  exact ⟨_, rfl, List.length_append⟩

theorem splitSource_index : ∃ found, shardedIndex splitSerde splitFiles splitSource bareLimits = .ok found := by
  have hbytes : splitSource.bytes = [] ++ utf8 splitIndex ++ [] := (List.append_nil _).symm
  have hread : splitSource.readRange 0 splitSource.len = .ok (utf8 splitIndex) := RandomAccessSource.readRange_eq hbytes
  have hnames : shardNames splitParsed.weightMap = [splitName true, splitName false] := by
    have hsorted : Sorting.sortByKey id [splitName true, splitName false] = [splitName true, splitName false] :=
      List.mergeSort_of_pairwise (by decide)
    rw [← hsorted]
    exact (Sorting.sortByKey_eq_iff (by decide)).mpr (by decide)
  obtain ⟨merged, hfirst, hlength⟩ := splitShard_merged true ⟨[], [], splitParsed.metadata⟩ (by decide)
  obtain ⟨all, hsecond, -⟩ := splitShard_merged false merged (by rw [hlength]; decide)
  have hvalid : splitParsed.weightMap.forM (fun entry => do
      bareLimits.validateKey entry.1
      validateShardName entry.2) = Except.ok () := by decide +kernel
  have hsize : ¬ (splitSource.len = 0 ∨ splitSource.len > bareLimits.maxHeaderBytes) := by decide +kernel
  have hpath : splitSource.path = some "d/model.safetensors.index.json" := rfl
  have hdir : splitFiles.parent "d/model.safetensors.index.json" = some "d" := rfl
  unfold shardedIndex
  rw [if_neg hsize]
  simp only [hpath, hdir, hread, splitSource_parsed, hnames, Fallible.ok_bind, hvalid, List.foldlM_cons, List.foldlM_nil,
    hfirst, hsecond]
  exact ⟨_, rfl⟩

/-- **The merge of a sharded checkpoint is exact.** A sharded index that is read has one entry for every key of the
weight map and no other, each with the shape, type and bytes that the header of its own shard declares; where a shard
lacks a key that the map gives it, nothing is read. -/
theorem shardedIndex_exact (serde : Serde) (files : Files) (source : RandomAccessSource) (limits : InspectionLimits) :
    (∀ found, shardedIndex serde files source limits = .ok found → ∃ path dir parsed, source.path = some path ∧
      files.parent path = some dir ∧ serde.indexFile source.bytes = .ok parsed ∧
      MergeExact serde files dir limits parsed.weightMap found) ∧
    (∀ path dir parsed key shard, source.path = some path → files.parent path = some dir →
      serde.indexFile source.bytes = .ok parsed → (key, shard) ∈ parsed.weightMap →
      ¬ ShardHolds serde files dir limits shard key → ∃ e, shardedIndex serde files source limits = .error e) := by
  constructor
  · intro found h
    obtain ⟨dir, parsed, shards, hindexed⟩ := shardedIndex_ok h
    obtain ⟨path, hpath, hdir⟩ := hindexed.directory
    exact ⟨path, dir, parsed, hpath, hdir, hindexed.indexFile, hindexed.exact⟩
  · intro path dir parsed key shard hpath hdir hparsed hmapped hlacks
    by_cases hread : ∃ found, shardedIndex serde files source limits = .ok found
    · obtain ⟨found, h⟩ := hread
      obtain ⟨dir', parsed', shards, hindexed⟩ := shardedIndex_ok h
      obtain ⟨path', hpath', hdir'⟩ := hindexed.directory
      rw [hpath, Option.some_inj] at hpath'
      subst hpath'
      rw [hdir, Option.some_inj] at hdir'
      subst hdir'
      have hsame := hindexed.indexFile
      rw [hparsed, Except.ok.injEq] at hsame
      subst hsame
      have hname : shard ∈ shards.map (·.name) := hindexed.names ▸ mem_shardNames.mpr ⟨key, hmapped⟩
      obtain ⟨found, hfound, rfl⟩ := List.mem_map.mp hname
      have hagrees := hindexed.agrees found hfound
      exact absurd (hagrees.holds ((hagrees.keys key).mpr hmapped)) hlacks
    · cases h : shardedIndex serde files source limits with
      | error e => exact ⟨e, rfl⟩
      | ok found => exact absurd ⟨found, h⟩ hread

theorem shardedIndex_exact_split : ∃ found, shardedIndex splitSerde splitFiles splitSource bareLimits = .ok found ∧
    MergeExact splitSerde splitFiles "d" bareLimits splitParsed.weightMap found := by
  obtain ⟨found, hfound⟩ := splitSource_index
  obtain ⟨path, dir, parsed, hpath, hdir, hparsed, hexact⟩ :=
    (shardedIndex_exact splitSerde splitFiles splitSource bareLimits).1 found hfound
  cases hdir
  rw [show splitSource.bytes = utf8 splitIndex from rfl, splitSource_parsed, Except.ok.injEq] at hparsed
  subst hparsed
  exact ⟨found, hfound, hexact⟩

end Dyninfer.SafeTensors
