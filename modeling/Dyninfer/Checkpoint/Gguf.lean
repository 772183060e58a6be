/-
The GGUF container (`dyninfer-checkpoint-gguf/src/container.rs`): a cursor
over the source reads the header, the metadata and the tensor directory, and
the index places each tensor in the data section after them. Arithmetic on
`u64` that is not checked stops the model as an overflow. What a UTF-8 error
reports beyond its kind, and the capacity hints of the vectors, are not
modelled.
-/
import Dyninfer.Checkpoint.GgufTypes
import Dyninfer.Lib.Effect
import Dyninfer.Lib.Sorting
import Mathlib.Data.String.Basic

namespace Dyninfer

open Bytes Effect

/-- A reading ends in an error of the program, or in arithmetic that leaves `u64`. -/
inductive ReadStop where
  | overflow
  | failed (e : DynInferError)
  deriving DecidableEq, Repr

/-- What a JSON number of an `i64` is. -/
def Json.ofInt (n : Int) : Json := if n < 0 then .number (.negInt n) else .ofNat n.toNat

namespace Gguf

def magic : List UInt8 := utf8 "GGUF"

def alignmentDefault : Nat := 32

/-! ## The cursor -/

/-- A reading from the cursor's position. -/
abbrev CursorM := EStateM DynInferError Nat

def lift {α : Type} (x : Except DynInferError α) : CursorM α :=
  match x with
  | .ok a => pure a
  | .error e => throw e

section cursor

variable (source : RandomAccessSource) (limits : InspectionLimits)

def readExact (len : Nat) : CursorM (List UInt8) := do
  let pos ← get
  let buf ← lift (source.readRange pos len)
  require (pos + len < 2 ^ 64) (.io "GGUF cursor overflow" none)
  set (pos + len)
  return buf

/-- The unsigned integers: `read_u8`, `read_u16`, `read_u32`, `read_u64`. -/
def readUint (width : Nat) : CursorM Nat := do
  let b ← readExact source width
  return ofLe b

def readU32 : CursorM Nat := readUint source 4

def readU64 : CursorM Nat := readUint source 8

/-- The signed integers, as JSON numbers. -/
def readInt (width : Nat) : CursorM Json := do
  let n ← readUint source width
  return .ofInt (signed width n)

/-- An `f32` by its bits; `Number::from_f64` has no infinities and no NaN. -/
def jsonOfF32 (bits : Nat) : Json :=
  if bits / 2 ^ 23 % 2 ^ 8 = 2 ^ 8 - 1 then .null
  else .number (.float (Float32.ofBits (UInt32.ofNat bits)).toFloat)

/-- An `f64` by its bits. -/
def jsonOfF64 (bits : Nat) : Json :=
  if bits / 2 ^ 52 % 2 ^ 11 = 2 ^ 11 - 1 then .null
  else .number (.float (Float.ofBits (UInt64.ofNat bits)))

def readString : CursorM String := do
  let len ← readU64 source
  require (len ≤ limits.maxKeyLen) (invalidCheckpoint s!"GGUF string length {len} exceeds limit")
  let bytes ← readExact source len
  match fromUtf8 bytes with
  | some s => return s
  | none => throw (invalidCheckpoint "GGUF string is not UTF-8")

/-- `read_value`. An array takes twelve bytes before its elements, so the source bounds the depth. -/
def readValue : Nat → Nat → CursorM Json
  | 0, _ => throw (.internal "deeper than the source is long")
  | _ + 1, 0 => do return .ofNat (← readUint source 1)
  | _ + 1, 1 => readInt source 1
  | _ + 1, 2 => do return .ofNat (← readUint source 2)
  | _ + 1, 3 => readInt source 2
  | _ + 1, 4 => do return .ofNat (← readU32 source)
  | _ + 1, 5 => readInt source 4
  | _ + 1, 6 => do return jsonOfF32 (← readU32 source)
  | _ + 1, 7 => do return .bool ((← readUint source 1) != 0)
  | _ + 1, 8 => do return .string (← readString source limits)
  | depth + 1, 9 => do
    let elemType ← readU32 source
    let count ← readU64 source
    require (count ≤ limits.maxMetadataEntries) (invalidCheckpoint s!"GGUF array length {count} exceeds limit")
    let arr ← readTimes (readValue depth elemType) count
    return .array arr
  | _ + 1, 10 => do return .ofNat (← readU64 source)
  | _ + 1, 11 => readInt source 8
  | _ + 1, 12 => do return jsonOfF64 (← readU64 source)
  | _ + 1, other => throw (invalidCheckpoint s!"unsupported GGUF metadata value type {other}")

/-- One key and its value. -/
def readPair : CursorM (String × Json) := do
  let key ← readString source limits
  lift (limits.validateKey key)
  let valueType ← readU32 source
  let value ← readValue source limits (source.len + 1) valueType
  return (key, value)

structure TensorDir where
  name : String
  shape : Shape
  ggufType : GgufType
  offset : Nat

/-- One entry of the tensor directory; the dimensions are stored in reverse. -/
def readTensorDir : CursorM TensorDir := do
  let name ← readString source limits
  lift (limits.validateKey name)
  let nDims ← readU32 source
  require (nDims ≤ limits.maxShapeRank)
    (invalidCheckpoint s!"GGUF tensor rank {nDims} exceeds limit" (some name))
  let dims ← readTimes (readU64 source) nDims
  let shape := dims.reverse
  lift (limits.validateShape shape)
  let typeCode ← readU32 source
  let ggufType ← lift (GgufType.fromU32 typeCode)
  let offset ← readU64 source
  return { name, shape, ggufType, offset }

/-- What comes before the data section. -/
structure Header where
  version : Nat
  metadata : MetadataMap
  dirs : List TensorDir

def readHeader : CursorM Header := do
  let found ← readExact source 4
  require (found == magic) (invalidCheckpoint "not a GGUF file")
  let version ← readU32 source
  require (2 ≤ version ∧ version ≤ 3)
    (invalidCheckpoint s!"unsupported GGUF version {version}" none (some "supported: 2, 3"))
  let tensorCount ← readU64 source
  let kvCount ← readU64 source
  require (tensorCount ≤ limits.maxTensorCount ∧ kvCount ≤ limits.maxMetadataEntries)
    (invalidCheckpoint s!"GGUF counts exceed limits: tensors={tensorCount} kv={kvCount}")
  let pairs ← readTimes (readPair source limits) kvCount
  let metadata := AssocMap.insertAll [] Prod.fst Prod.snd pairs
  let dirs ← readTimes (readTensorDir source limits) tensorCount
  return { version, metadata, dirs }

end cursor

/-! ## The index -/

/-- `align_up`: rounding up divides without overflow, and the product is not checked. -/
def alignUp (value align : Nat) : Except ReadStop Nat :=
  if align = 0 then .ok value
  else if (value + align - 1) / align * align < 2 ^ 64 then .ok ((value + align - 1) / align * align)
  else .error .overflow

def Header.alignment (header : Header) : Nat :=
  ((header.metadata.get "general.alignment").bind Json.asU64).getD alignmentDefault

/-- The entry of a tensor, whose bytes must lie in the source. -/
def placeTensor (source : RandomAccessSource) (alignment dataOffset : Nat) (dir : TensorDir) :
    Except DynInferError RawTensorEntry := do
  let nbytes ← dir.ggufType.nbytesForShape dir.shape
  let abs := dataOffset + dir.offset
  if abs ≥ 2 ^ 64 then .error (invalidCheckpoint "tensor absolute offset overflow" (some dir.name))
  -- an end that leaves `u64` counts as `u64::MAX`
  else if min (abs + nbytes) (2 ^ 64 - 1) > source.len then
    .error (invalidCheckpoint "tensor data extends past end of file" (some dir.name))
  else .ok {
    key := dir.name
    sourceFileIndex := 0
    shape := dir.shape
    storageType := dir.ggufType.storageElementType
    byteRanges := [⟨abs, nbytes⟩]
    alignment
    endianness := .little
    metadata := [("gguf.type_code", .ofNat dir.ggufType.code), ("gguf.type", .string dir.ggufType.name)] }

/-- The header of a source and the position after it. -/
def header (source : RandomAccessSource) (limits : InspectionLimits) : Except DynInferError (Header × Nat) :=
  match (readHeader source limits).run 0 with
  | .ok header pos => .ok (header, pos)
  | .error e _ => .error e

/-- `GgufContainer::index`. -/
def index (source : RandomAccessSource) (limits : InspectionLimits) : Except ReadStop RawCheckpointIndex := do
  let (header, pos) ← (header source limits).mapError .failed
  let dataOffset ← alignUp pos header.alignment
  let entries ← (header.dirs.mapM (placeTensor source header.alignment dataOffset)).mapError .failed
  return {
    container := { formatId := "gguf", version := some header.version, magic := some "GGUF" }
    sourceFiles := source.sourceFiles
    metadata := header.metadata
    entries := Sorting.sortByKey (·.key) entries
    dataOffset }

end Gguf

end Dyninfer
