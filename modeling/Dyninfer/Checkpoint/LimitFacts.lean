/-
What the inspection limits bind. Every reader checks the names and shapes of
tensors and their number. The GGUF reader looks at neither the size of its
header nor the bytes that its tensors declare, the SafeTensors reader takes
metadata as it is, and the sharded reader adds the tensors of all shards up
without a limit for the sum.
-/
import Dyninfer.Checkpoint.GgufFacts
import Dyninfer.Checkpoint.ShardedFacts
import Mathlib.Data.List.Perm.Subperm

namespace Dyninfer

open Bytes SafeTensors

/-- Metadata keys within the limits, of which each counts once. -/
structure MetadataFits (limits : InspectionLimits) (keys : List String) : Prop where
  count : keys.dedup.length ≤ limits.maxMetadataEntries
  lengths : ∀ key ∈ keys, key.utf8ByteSize ≤ limits.maxKeyLen

/-- A tensor of an index within the limits. -/
structure RawTensorEntry.Within (limits : InspectionLimits) (entry : RawTensorEntry) : Prop where
  name : entry.key.utf8ByteSize ≤ limits.maxKeyLen
  rank : entry.shape.length ≤ limits.maxShapeRank
  dims : ∀ d ∈ entry.shape, d ≤ limits.maxDim

/-- An index of a whole checkpoint within the limits, where its headers have the given sizes. -/
structure RawCheckpointIndex.Respects (limits : InspectionLimits) (headerSizes : List Nat) (index : RawCheckpointIndex) :
    Prop where
  count : index.entries.length ≤ limits.maxTensorCount
  entries : ∀ entry ∈ index.entries, entry.Within limits
  metadata : MetadataFits limits (index.metadata.map (·.1))
  headers : ∀ size ∈ headerSizes, size ≤ limits.maxHeaderBytes
  total : (declaredBytes index.entries).sum ≤ limits.maxTotalDeclaredBytes

theorem dedup_length_le_of_subset {α : Type} [DecidableEq α] {xs ys : List α} (h : ∀ x ∈ xs, x ∈ ys) :
    xs.dedup.length ≤ ys.dedup.length :=
  (List.subperm_of_subset (List.nodup_dedup xs) fun x hx => List.mem_dedup.mpr (h x (List.mem_dedup.mp hx))).length_le

theorem MetadataFits.subset {limits : InspectionLimits} {keys keys' : List String} (h : MetadataFits limits keys')
    (hsub : ∀ key ∈ keys, key ∈ keys') : MetadataFits limits keys :=
  ⟨Nat.le_trans (dedup_length_le_of_subset hsub) h.count, fun key hkey => h.lengths key (hsub key hkey)⟩

theorem metadataFits_congr {limits : InspectionLimits} {keys keys' : List String}
    (h : ∀ key, key ∈ keys ↔ key ∈ keys') : MetadataFits limits keys ↔ MetadataFits limits keys' :=
  ⟨fun hfits => hfits.subset fun key hkey => (h key).mpr hkey, fun hfits => hfits.subset fun key hkey => (h key).mp hkey⟩

theorem declaredBytes_perm {entries entries' : List RawTensorEntry} (h : entries.Perm entries') :
    (declaredBytes entries).sum = (declaredBytes entries').sum := by
  unfold declaredBytes
  exact (h.flatMap_right _).sum_nat

/-! ## GGUF -/

theorem Gguf.declaredBytes_index {index : RawCheckpointIndex} {dirs : List Gguf.TensorDir} {alignment dataOffset : Nat}
    (h : index.entries = Sorting.sortByKey (·.key) (dirs.map (·.entry alignment dataOffset))) :
    (declaredBytes index.entries).sum = (dirs.map (·.nbytes)).sum := by
  have hperm : index.entries.Perm (dirs.map (·.entry alignment dataOffset)) := h ▸ List.mergeSort_perm _ _
  rw [declaredBytes_perm hperm, declaredBytes, List.flatMap_map, List.map_eq_flatMap]
  rfl

theorem Gguf.respects_iff {source : RandomAccessSource} {limits : InspectionLimits} {index : RawCheckpointIndex}
    (h : Gguf.index source limits = .ok index) :
    ∃ header pos, Gguf.header source limits = .ok (header, pos) ∧
      (index.Respects limits [pos] ↔
        pos ≤ limits.maxHeaderBytes ∧ (header.dirs.map (·.nbytes)).sum ≤ limits.maxTotalDeclaredBytes) := by
  obtain ⟨header, pos, hheader, -, hmetadata, hentries, -⟩ := Gguf.index_ok h
  refine ⟨header, pos, hheader, ?_⟩
  have hwithin := Gguf.header_within hheader
  have hperm : index.entries.Perm (header.dirs.map (·.entry header.alignment index.dataOffset)) := by
    rw [hentries]
    exact List.mergeSort_perm _ _
  have hsum := Gguf.declaredBytes_index hentries
  constructor
  · intro hrespects
    exact ⟨hrespects.headers pos (List.mem_singleton.mpr rfl), hsum ▸ hrespects.total⟩
  · rintro ⟨hpos, htotal⟩
    refine ⟨?_, fun entry hentry => ?_, ?_, by simpa using hpos, hsum ▸ htotal⟩
    · rw [hperm.length_eq, List.length_map]
      exact hwithin.tensorCount
    · obtain ⟨dir, hdir, rfl⟩ := List.mem_map.mp (hperm.mem_iff.mp hentry)
      have hdir := hwithin.dirs dir hdir
      exact ⟨hdir.name, hdir.rank, hdir.dims⟩
    · obtain ⟨pairs, hpairs, hcount, hkeys⟩ := hwithin.metadata
      have hfits : MetadataFits limits (pairs.map Prod.fst) := by
        refine ⟨Nat.le_trans (List.dedup_sublist _).length_le (by rwa [List.length_map]), fun key hkey => ?_⟩
        obtain ⟨pair, hpair, rfl⟩ := List.mem_map.mp hkey
        exact hkeys pair hpair
      rw [hmetadata, hpairs]
      refine hfits.subset fun key hkey => ?_
      simpa using (AssocMap.mem_insertAll_keys _ _ _ _ _).mp hkey

/-! ## SafeTensors -/

namespace SafeTensors

/-- The keys of a header's metadata. -/
def metadataKeys (fields : List (String × Json)) : List String :=
  ((fields.filter (·.1 == "__metadata__")).flatMap fun field => field.2.asObject.getD []).map (·.1)

theorem mem_headerMetadata_keys (fields : List (String × Json)) (key : String) :
    key ∈ (headerMetadata fields).map (·.1) ↔ key ∈ metadataKeys fields := by
  unfold headerMetadata metadataKeys
  rw [AssocMap.mem_insertAll_keys]
  simp

section readers

variable {serde : Serde} {files : Files} {source : RandomAccessSource} {limits : InspectionLimits}

theorem Indexed.within {found : RawCheckpointIndex} {len : Nat} {fields : List (String × Json)}
    {entries : List RawTensorEntry} (h : Indexed serde source limits found len fields entries) :
    ∀ entry ∈ found.entries, entry.Within limits := by
  intro entry hentry
  obtain ⟨field, -, hread⟩ := declared_of_forall₂ h.readEntries entry (h.perm.mem_iff.mp hentry)
  obtain ⟨hdeclares, hname, hrank, hdims⟩ := readEntry_ok hread
  exact ⟨hdeclares.key ▸ hname, hrank, hdims⟩

theorem respects_iff {found : RawCheckpointIndex} (h : index serde source limits = .ok found) :
    ∃ len fields, headerLen source limits = .ok len ∧ headerFields serde source len = .ok fields ∧
      (found.Respects limits [len] ↔ MetadataFits limits (metadataKeys fields)) := by
  obtain ⟨len, fields, entries, hindexed⟩ := index_ok h
  refine ⟨len, fields, hindexed.readLen, hindexed.readFields, ?_⟩
  rw [← metadataFits_congr (mem_headerMetadata_keys fields), ← hindexed.indexMetadata]
  refine ⟨(·.metadata), fun hmetadata => ⟨?_, hindexed.within, hmetadata, ?_, ?_⟩⟩
  · rw [hindexed.perm.length_eq]
    exact hindexed.count
  · simpa using headerLen_ok hindexed.readLen
  · rw [declaredBytes_perm hindexed.perm]
    exact hindexed.total_le

/-! ### Shards -/

/-- The header of a shard: its size and its fields. -/
def shardHeader (serde : Serde) (files : Files) (dir : String) (limits : InspectionLimits) (name : String) :
    Except DynInferError (Nat × List (String × Json)) := do
  let source ← files.openIn dir name
  let len ← headerLen source limits
  let fields ← headerFields serde source len
  return (len, fields)

/-- The bytes that a field of a header declares. -/
def declaredLength (serde : Serde) (field : String × Json) : Nat :=
  ((serde.tensorInfo field.2).toOption.map fun info => info.dataEnd - info.dataStart).getD 0

/-- The headers of all shards fit together: their metadata with that of the index file, and the sum of the bytes that
they declare. -/
structure HeadersFit (serde : Serde) (limits : InspectionLimits) (parsed : IndexFile)
    (headers : List (Nat × List (String × Json))) : Prop where
  metadata : MetadataFits limits
    (parsed.metadata.map (·.1) ++ headers.flatMap fun header => metadataKeys header.2)
  total : (headers.map fun header => ((tensorFields header.2).map (declaredLength serde)).sum).sum ≤
    limits.maxTotalDeclaredBytes

/-- What an agreeing shard adds to the index. -/
structure ShardAdds (serde : Serde) (limits : InspectionLimits) (shard : ReadShard)
    (header : Nat × List (String × Json)) : Prop where
  size : header.1 ≤ limits.maxHeaderBytes
  within : ∀ entry ∈ shard.index.entries, entry.Within limits
  metadata : ∀ key, key ∈ shard.index.metadata.map (·.1) ↔ key ∈ metadataKeys header.2
  total : (declaredBytes shard.index.entries).sum = ((tensorFields header.2).map (declaredLength serde)).sum

theorem declaredBytes_of_forall₂ {base : Nat} {fields : List (String × Json)} {entries : List RawTensorEntry}
    (h : List.Forall₂ (fun field entry => readEntry serde source limits base field.1 field.2 = .ok entry) fields
      entries) : declaredBytes entries = fields.map (declaredLength serde) := by
  unfold declaredBytes
  induction h with
  | nil => rfl
  | cons hread _ ih =>
    obtain ⟨info, ty, numel, hinfo, -, -, -, -, -, -, -, hrange, -⟩ := (readEntry_ok hread).1.info
    rw [List.flatMap_cons, ih, hrange, List.map_cons]
    simp [declaredLength, hinfo, Except.toOption]

theorem ReadShard.Agrees.adds {dir : String} {weightMap : AssocMap String String} {shard : ReadShard}
    (h : shard.Agrees serde files dir limits weightMap) :
    ∃ header, shardHeader serde files dir limits shard.name = .ok header ∧ ShardAdds serde limits shard header := by
  obtain ⟨len, fields, entries, hindexed⟩ := index_ok h.indexed
  refine ⟨(len, fields), ?_, headerLen_ok hindexed.readLen, hindexed.within, fun key => ?_, ?_⟩
  · unfold shardHeader
    rw [h.opened, Fallible.ok_bind, hindexed.readLen, Fallible.ok_bind, hindexed.readFields]
    rfl
  · rw [hindexed.indexMetadata]
    exact mem_headerMetadata_keys fields key
  · rw [declaredBytes_perm hindexed.perm, declaredBytes_of_forall₂ hindexed.readEntries]

/-- The shards in turn, and their headers. -/
theorem shards_add {dir : String} {weightMap : AssocMap String String} {shards : List ReadShard}
    (h : ∀ shard ∈ shards, shard.Agrees serde files dir limits weightMap) :
    ∃ headers, (shards.map (·.name)).mapM (shardHeader serde files dir limits) = .ok headers ∧
      List.Forall₂ (ShardAdds serde limits) shards headers := by
  induction shards with
  | nil => exact ⟨[], rfl, .nil⟩
  | cons shard shards ih =>
    rw [List.forall_mem_cons] at h
    obtain ⟨header, hheader, hadds⟩ := h.1.adds
    obtain ⟨headers, hheaders, hall⟩ := ih h.2
    refine ⟨header :: headers, ?_, .cons hadds hall⟩
    rw [List.map_cons, List.mapM_cons, hheader, Fallible.ok_bind, hheaders]
    rfl

theorem mem_merged_keys {shards : List ReadShard} {headers : List (Nat × List (String × Json))}
    (h : List.Forall₂ (ShardAdds serde limits) shards headers) (metadata : MetadataMap) (key : String) :
    key ∈ (shards.foldl (fun metadata shard => metadata.orInsertAll shard.index.metadata) metadata).map (·.1) ↔
      key ∈ metadata.map (·.1) ++ headers.flatMap fun header => metadataKeys header.2 := by
  induction h generalizing metadata with
  | nil => simp
  | cons hadds _ ih =>
    rw [List.foldl_cons, ih, List.mem_append, AssocMap.mem_orInsertAll_keys, hadds.metadata, List.flatMap_cons,
      List.mem_append, List.mem_append]
    tauto

theorem declaredBytes_entriesFrom {shards : List ReadShard} {headers : List (Nat × List (String × Json))}
    (h : List.Forall₂ (ShardAdds serde limits) shards headers) (start : Nat) :
    (declaredBytes (entriesFrom start shards)).sum =
      (headers.map fun header => ((tensorFields header.2).map (declaredLength serde)).sum).sum := by
  induction h generalizing start with
  | nil => rfl
  | @cons shard header shards headers hadds _ ih =>
    have hrest := ih (start + 1)
    have hown : declaredBytes (shard.entriesAt start) = declaredBytes shard.index.entries := by
      unfold declaredBytes ReadShard.entriesAt
      rw [List.flatMap_map]
    unfold entriesFrom at hrest ⊢
    rw [List.zipIdx_cons, List.flatMap_cons, List.map_cons, List.sum_cons, ← hrest, ← hadds.total, ← hown]
    unfold declaredBytes
    rw [List.flatMap_append, List.sum_append]

theorem sharded_respects_iff {found : RawCheckpointIndex} (h : shardedIndex serde files source limits = .ok found) :
    ∃ path dir parsed headers, source.path = some path ∧ files.parent path = some dir ∧
      serde.indexFile source.bytes = .ok parsed ∧
      (shardNames parsed.weightMap).mapM (shardHeader serde files dir limits) = .ok headers ∧
      (found.Respects limits (source.len :: headers.map (·.1)) ↔ HeadersFit serde limits parsed headers) := by
  obtain ⟨dir, parsed, shards, hindexed⟩ := shardedIndex_ok h
  obtain ⟨path, hpath, hdir⟩ := hindexed.directory
  obtain ⟨headers, hheaders, hadds⟩ := shards_add hindexed.agrees
  rw [hindexed.names] at hheaders
  refine ⟨path, dir, parsed, headers, hpath, hdir, hindexed.indexFile, hheaders, ?_⟩
  have hperm : found.entries.Perm (entriesFrom 0 shards) := by
    rw [hindexed.entries]
    exact List.mergeSort_perm _ _
  have hmetadata : MetadataFits limits _ ↔ MetadataFits limits _ :=
    metadataFits_congr (mem_merged_keys hadds parsed.metadata)
  have htotal := declaredBytes_entriesFrom hadds 0
  rw [← declaredBytes_perm hperm] at htotal
  constructor
  · intro hrespects
    exact ⟨hmetadata.mp (hindexed.metadata ▸ hrespects.metadata), htotal ▸ hrespects.total⟩
  · intro hfits
    have hexact := hindexed.exact
    refine ⟨?_, fun entry hentry => ?_, ?_, ?_, htotal ▸ hfits.total⟩
    · have hsub := List.subperm_of_subset hexact.once fun key hkey => (hexact.listed key).mp hkey
      have hle := hsub.length_le
      rw [List.length_map, List.length_map] at hle
      exact Nat.le_trans hle hindexed.count
    · obtain ⟨shard, i, hget, own, hown, rfl⟩ := mem_entriesFrom.mp (hperm.mem_iff.mp hentry)
      obtain ⟨header, -, hheader⟩ := Fallible.exists_of_forall₂ hadds (List.mem_of_getElem? hget)
      have hwithin := hheader.within own hown
      exact ⟨hwithin.name, hwithin.rank, hwithin.dims⟩
    · rw [hindexed.metadata]
      exact hmetadata.mpr hfits.metadata
    · refine List.forall_mem_cons.mpr ⟨hindexed.size, fun size hsize => ?_⟩
      obtain ⟨header, hheader, rfl⟩ := List.mem_map.mp hsize
      obtain ⟨shard, -, hshard⟩ := Fallible.exists_of_forall₂ hadds.flip hheader
      exact hshard.size

end readers

end SafeTensors

/-! ## All readers -/

/-- **What the limits leave open.** A GGUF index respects the limits just when its header and its tensors have the size
that the limits allow; a SafeTensors index just when its metadata has; a sharded index just when the metadata of all
files and the tensors of all shards have. -/
theorem readers_respect_limits_iff (limits : InspectionLimits) :
    (∀ source index, Gguf.index source limits = .ok index → ∃ header pos,
      Gguf.header source limits = .ok (header, pos) ∧
      (index.Respects limits [pos] ↔
        pos ≤ limits.maxHeaderBytes ∧ (header.dirs.map (·.nbytes)).sum ≤ limits.maxTotalDeclaredBytes)) ∧
    (∀ serde source index, SafeTensors.index serde source limits = .ok index → ∃ len fields,
      headerLen source limits = .ok len ∧ headerFields serde source len = .ok fields ∧
      (index.Respects limits [len] ↔ MetadataFits limits (metadataKeys fields))) ∧
    (∀ serde files source index, shardedIndex serde files source limits = .ok index → ∃ path dir parsed headers,
      source.path = some path ∧ files.parent path = some dir ∧ serde.indexFile source.bytes = .ok parsed ∧
      (shardNames parsed.weightMap).mapM (shardHeader serde files dir limits) = .ok headers ∧
      (index.Respects limits (source.len :: headers.map (·.1)) ↔ HeadersFit serde limits parsed headers)) :=
  ⟨fun _ _ h => Gguf.respects_iff h, fun _ _ _ h => respects_iff h, fun _ _ _ _ h => sharded_respects_iff h⟩

/-- Each reader takes a file that is over a limit: tensors of eight bytes where seven are allowed, or metadata where
there may be none. -/
theorem limit_exceeded :
    (∃ index, Gguf.index (Gguf.twoTensors "b" 4 Gguf.length_twoTensorBytes_lt) { maxTotalDeclaredBytes := 7 } = .ok index ∧
      ∀ sizes, ¬ index.Respects { maxTotalDeclaredBytes := 7 } sizes) ∧
    (∃ index, SafeTensors.index splitSerde (splitShard true) bareLimits = .ok index ∧
      ∀ sizes, ¬ index.Respects bareLimits sizes) ∧
    ∃ index, shardedIndex splitSerde splitFiles splitSource bareLimits = .ok index ∧
      ∀ sizes, ¬ index.Respects bareLimits sizes := by
  refine ⟨?_, ?_, ?_⟩
  · obtain ⟨index, hindex, -⟩ := Fallible.exists_ok
      (x := Gguf.index (Gguf.twoTensors "b" 4 Gguf.length_twoTensorBytes_lt) { maxTotalDeclaredBytes := 7 })
      (p := fun _ => true) (by decide +kernel)
    obtain ⟨listed, hlisted, hsizes⟩ := Fallible.exists_ok
      (x := Gguf.header (Gguf.twoTensors "b" 4 Gguf.length_twoTensorBytes_lt) { maxTotalDeclaredBytes := 7 })
      (p := fun listed => decide ((listed.1.dirs.map (·.nbytes)).sum = 8)) (by decide +kernel)
    obtain ⟨header, pos, hheader, -, -, hentries, -⟩ := Gguf.index_ok hindex
    rw [hlisted, Except.ok.injEq] at hheader
    subst hheader
    refine ⟨index, hindex, fun sizes hrespects => ?_⟩
    have htotal := hrespects.total
    rw [Gguf.declaredBytes_index hentries, of_decide_eq_true hsizes] at htotal
    exact absurd htotal (by decide)
  · obtain ⟨index, hindex, -, -, hmetadata⟩ := splitShard_index true
    refine ⟨index, hindex, fun sizes hrespects => ?_⟩
    have hcount := hrespects.metadata.count
    rw [hmetadata] at hcount
    exact absurd hcount (by decide)
  · obtain ⟨index, hindex⟩ := splitSource_index
    refine ⟨index, hindex, fun sizes hrespects => ?_⟩
    obtain ⟨dir, parsed, shards, hindexed⟩ := shardedIndex_ok hindex
    obtain ⟨headers, -, hadds⟩ := shards_add hindexed.agrees
    have hparsed := hindexed.indexFile
    rw [show splitSource.bytes = utf8 splitIndex from rfl, splitSource_parsed, Except.ok.injEq] at hparsed
    subst hparsed
    have hkey : "total_size" ∈ index.metadata.map (·.1) := by
      rw [hindexed.metadata, mem_merged_keys hadds]
      simp [splitParsed]
    have hpos := List.length_pos_of_mem (List.mem_dedup.mpr hkey)
    have hcount := hrespects.metadata.count
    exact absurd hpos (Nat.not_lt.mpr hcount)

end Dyninfer
