/-
The SafeTensors containers (`dyninfer-checkpoint-safetensors`): one file whose
JSON header places its tensors, and the sharded form, where an index file maps
every tensor to the file that holds it. `serde_json`, which parses the header
and the index file, and the files beside the index are parameters.
-/
import Dyninfer.Checkpoint.Container
import Dyninfer.Lib.Fallible
import Dyninfer.Lib.Sorting
import Mathlib.Data.List.Dedup
import Mathlib.Data.String.Basic

namespace Dyninfer

open Bytes

/-- A header entry: `TensorInfo`. -/
structure TensorInfo where
  dtype : String
  shape : Shape
  dataStart : Nat
  dataEnd : Nat
  deriving DecidableEq, Repr

/-- `IndexFile`: the index of a sharded checkpoint. -/
structure IndexFile where
  metadata : MetadataMap
  weightMap : AssocMap String String

/-- `serde_json`, which fails with a text. A JSON object and a `BTreeMap` hold every key once. -/
structure Serde where
  /-- `from_slice`, to a JSON value. -/
  fromSlice : List UInt8 → Except String Json
  /-- `from_value`, to a header entry. -/
  tensorInfo : Json → Except String TensorInfo
  /-- `from_slice`, to an index file. -/
  indexFile : List UInt8 → Except String IndexFile
  object_keys : ∀ bs fields, fromSlice bs = .ok (.object fields) → (fields.map (·.1)).Nodup
  weightMap_keys : ∀ bs parsed, indexFile bs = .ok parsed → (parsed.weightMap.map (·.1)).Nodup

def Json.asObject : Json → Option (List (String × Json))
  | .object fields => some fields
  | _ => none

namespace SafeTensors

def parseDtype : String → Except DynInferError ScalarType
  | "F32" => .ok .f32
  | "F16" => .ok .f16
  | "BF16" => .ok .bf16
  | "F64" => .ok .f64
  | "I8" => .ok .i8
  | "I16" => .ok .i16
  | "I32" => .ok .i32
  | "I64" => .ok .i64
  | "U8" => .ok .u8
  | "U16" => .ok .u16
  | "U32" => .ok .u32
  | "U64" => .ok .u64
  | "BOOL" => .ok .bool
  | other => .error (invalidCheckpoint s!"unsupported SafeTensors dtype: {other}")

/-! ## One file -/

section file

variable (serde : Serde) (source : RandomAccessSource) (limits : InspectionLimits)

/-- The length that the first eight bytes declare. -/
def headerLen : Except DynInferError Nat := do
  let buf ← source.readRange 0 8
  let len := ofLe buf
  if len = 0 ∨ len > limits.maxHeaderBytes then
    .error (invalidCheckpoint s!"invalid SafeTensors header length: {len}")
  else .ok len

/-- Where the data section starts; the sum is not checked. -/
def dataBase (headerLen : Nat) : Nat := (8 + headerLen) % 2 ^ 64

/-- The fields of the header. -/
def headerFields (headerLen : Nat) : Except DynInferError (List (String × Json)) := do
  if source.len < dataBase headerLen then
    throw (invalidCheckpoint "SafeTensors header extends past end of file")
  let headerBytes ← source.readRange 8 headerLen
  match serde.fromSlice headerBytes with
  | .error e => .error (invalidCheckpoint s!"SafeTensors header JSON invalid: {e}")
  | .ok value =>
    match value.asObject with
    | none => .error (invalidCheckpoint "SafeTensors header must be a JSON object")
    | some fields => .ok fields

/-- The entry of one tensor, whose bytes must have the length of its type and shape and lie in the file. -/
def readEntry (dataBase : Nat) (key : String) (value : Json) : Except DynInferError RawTensorEntry := do
  limits.validateKey key
  match serde.tensorInfo value with
  | .error e => .error (invalidCheckpoint s!"invalid tensor info: {e}" (some key))
  | .ok info =>
    limits.validateShape info.shape
    if info.dataEnd < info.dataStart then
      throw (invalidCheckpoint "data_offsets end < start" (some key))
    let length := info.dataEnd - info.dataStart
    let ty ← parseDtype info.dtype
    let elemSize := ty.sizeBytes
    match info.shape.numel with
    | none => .error (invalidCheckpoint "shape numel overflow" (some key))
    | some numel =>
      if numel * elemSize ≥ 2 ^ 64 then
        throw (invalidCheckpoint "declared tensor byte length overflow" (some key))
      if length ≠ numel * elemSize then
        throw (invalidCheckpoint
          s!"tensor byte length {length} != numel {numel} * elem {elemSize} (= {numel * elemSize})" (some key))
      if dataBase + info.dataStart ≥ 2 ^ 64 then
        throw (invalidCheckpoint "tensor offset overflow" (some key))
      if min (dataBase + info.dataStart + length) (2 ^ 64 - 1) > source.len then
        throw (invalidCheckpoint "tensor data range extends past end of file" (some key))
      return {
        key
        sourceFileIndex := 0
        shape := info.shape
        storageType := .scalar ty
        byteRanges := [⟨dataBase + info.dataStart, length⟩]
        alignment := 1
        endianness := .little
        metadata := [] }

/-- The metadata of the header: its field `__metadata__`, where that is an object. -/
def headerMetadata (fields : List (String × Json)) : MetadataMap :=
  AssocMap.insertAll [] Prod.fst Prod.snd
    ((fields.filter (·.1 == "__metadata__")).flatMap fun field => field.2.asObject.getD [])

/-- Two neighbours in the order of their starts that overlap. -/
def overlapping : List (Nat × Nat × String) → Option (String × String)
  | a :: b :: rest => if b.1 < a.2.1 then some (a.2.2, b.2.2) else overlapping (b :: rest)
  | _ => none

/-- The range of an entry: its start, its end and its key. -/
def entryRange (entry : RawTensorEntry) : Option (Nat × Nat × String) :=
  entry.byteRanges.head?.map fun r => (r.offset, min (r.offset + r.length) (2 ^ 64 - 1), entry.key)

def declaredBytes (entries : List RawTensorEntry) : List Nat :=
  entries.flatMap fun entry => entry.byteRanges.map (·.length)

/-- `SafeTensorsContainer::index`. The loop over the header's fields passes over `__metadata__`. -/
def index : Except DynInferError RawCheckpointIndex := do
  let len ← headerLen source limits
  let fields ← headerFields serde source len
  let entries ← (fields.filter (·.1 != "__metadata__")).mapM fun field =>
    readEntry serde source limits (dataBase len) field.1 field.2
  if entries.length > limits.maxTensorCount then
    throw (invalidCheckpoint s!"tensor count {entries.length} exceeds limit {limits.maxTensorCount}")
  match overlapping (Sorting.sortByKey (·.1) (entries.filterMap entryRange)) with
  | some (a, b) =>
    .error (invalidCheckpoint s!"overlapping tensor byte ranges between `{a}` and `{b}`" (some a) (some b))
  | none =>
    let totalDeclared := saturatingSum (declaredBytes entries)
    if totalDeclared > limits.maxTotalDeclaredBytes then
      throw (invalidCheckpoint
        s!"total declared tensor bytes {totalDeclared} exceeds limit {limits.maxTotalDeclaredBytes}")
    return {
      container := { formatId := "safetensors", version := some 1, magic := some "safetensors" }
      sourceFiles := source.sourceFiles
      metadata := headerMetadata fields
      entries := Sorting.sortByKey (·.key) entries
      dataOffset := dataBase len }

end file

/-! ## Shards -/

/-- The file system around an index file. -/
structure Files where
  /-- `Path::parent`. -/
  parent : String → Option String
  /-- `FileSource::open` of a name joined to a directory. -/
  openIn : String → String → Except DynInferError RandomAccessSource
  openIn_path : ∀ dir name source, openIn dir name = .ok source → source.path.isSome

/-- A path of normal components alone; a dot counts at the front only. -/
def validateShardName (name : String) : Except DynInferError Unit :=
  let components := (name.toList.splitOn '/').filter (· ≠ [])
  if name.toList.head? = some '/' ∨ components.head? = some ['.'] ∨ ['.', '.'] ∈ components then
    .error (invalidCheckpoint s!"unsafe SafeTensors shard path `{name}`")
  else .ok ()

/-- What the shards read so far have given. -/
structure Merged where
  entries : List RawTensorEntry
  sourceFiles : List SourceFile
  metadata : MetadataMap

/-- The names a weight map gives to a shard. -/
def expectedOf (weightMap : AssocMap String String) (shard : String) : List String :=
  (weightMap.filter (·.2 == shard)).map (·.1)

/-- The shards of a weight map, in the order of their names. -/
def shardNames (weightMap : AssocMap String String) : List String :=
  Sorting.sortByKey id (weightMap.map (·.2)).dedup

def quoteAll (names : List String) : String := "[" ++ ", ".intercalate (names.map String.quote) ++ "]"

/-- Add one shard, which must hold exactly the tensors the map gives it. -/
def mergeShard (serde : Serde) (files : Files) (dir : String) (limits : InspectionLimits)
    (weightMap : AssocMap String String) (merged : Merged) (shard : String) : Except DynInferError Merged := do
  let shardSource ← files.openIn dir shard
  let shardIndex ← index serde shardSource limits
  let expected := expectedOf weightMap shard
  let actual := shardIndex.entries.map (·.key)
  let missing := expected.filter fun key => !actual.contains key
  let unlisted := actual.filter fun key => !expected.contains key
  if missing ≠ [] ∨ unlisted ≠ [] then
    throw (invalidCheckpoint s!"shard `{shard}` disagrees with weight_map; missing={quoteAll missing}, unlisted={quoteAll unlisted}")
  let sourceFileIndex := merged.sourceFiles.length
  if sourceFileIndex ≥ 2 ^ 32 then throw (invalidCheckpoint "too many SafeTensors shards")
  match shardIndex.sourceFiles.head? with
  | none => .error (invalidCheckpoint s!"shard `{shard}` has no source file")
  | some sourceFile =>
    return {
      entries := merged.entries ++ shardIndex.entries.map fun entry => { entry with sourceFileIndex }
      sourceFiles := merged.sourceFiles ++ [sourceFile]
      metadata := merged.metadata.orInsertAll shardIndex.metadata }

/-- `ShardedSafeTensorsContainer::index`. -/
def shardedIndex (serde : Serde) (files : Files) (source : RandomAccessSource) (limits : InspectionLimits) :
    Except DynInferError RawCheckpointIndex := do
  if source.len = 0 ∨ source.len > limits.maxHeaderBytes then
    throw (invalidCheckpoint s!"invalid sharded SafeTensors index length {source.len}")
  match source.path with
  | none => .error (invalidCheckpoint "sharded SafeTensors index requires a filesystem path")
  | some indexPath =>
    match files.parent indexPath with
    | none => .error (invalidCheckpoint "sharded SafeTensors index has no parent directory")
    | some dir =>
      let bytes ← source.readRange 0 source.len
      match serde.indexFile bytes with
      | .error e => .error (invalidCheckpoint s!"invalid sharded SafeTensors index JSON: {e}")
      | .ok parsed =>
        if parsed.weightMap = [] then throw (invalidCheckpoint "sharded SafeTensors weight_map is empty")
        if parsed.weightMap.length > limits.maxTensorCount then
          throw (invalidCheckpoint
            s!"sharded tensor count {parsed.weightMap.length} exceeds limit {limits.maxTensorCount}")
        parsed.weightMap.forM fun entry => do
          limits.validateKey entry.1
          validateShardName entry.2
        let merged ← (shardNames parsed.weightMap).foldlM (mergeShard serde files dir limits parsed.weightMap)
          ⟨[], [], parsed.metadata⟩
        return {
          container := { formatId := "safetensors.sharded", version := some 1, magic := some "safetensors.index.json" }
          sourceFiles := merged.sourceFiles
          metadata := merged.metadata
          entries := Sorting.sortByKey (·.key) merged.entries
          dataOffset := 0 }

end SafeTensors

end Dyninfer
