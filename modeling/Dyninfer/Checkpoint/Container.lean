/-
What the container readers share (`dyninfer-checkpoint`): the byte source they
read, the limits of an inspection, and the index they return. A source holds
fewer than `2^63` bytes, as a file or a buffer does. The digest that a source
file may carry is set by no reader.
-/
import Dyninfer.Checkpoint.Catalog
import Dyninfer.Core.Error
import Dyninfer.Lib.Bytes

namespace Dyninfer

/-! ## Sources -/

/-- The implementations of `RandomAccessSource`, which fail with different texts. -/
inductive SourceKind where
  | file | memory
  deriving DecidableEq, Repr

structure RandomAccessSource where
  kind : SourceKind
  path : Option String
  bytes : List UInt8
  size : bytes.length < 2 ^ 63

namespace RandomAccessSource

def len (source : RandomAccessSource) : Nat := source.bytes.length

def readPastEnd (source : RandomAccessSource) (offset len : Nat) : DynInferError :=
  match source.kind with
  | .file => .io s!"read past end: offset={offset} len={len} file_len={source.len}" source.path
  | .memory => .io s!"read past end: offset={offset} len={len} source_len={source.len}" none

/-- `read_range`: the bytes from `offset` on, all or none. -/
def readRange (source : RandomAccessSource) (offset len : Nat) : Except DynInferError (List UInt8) :=
  if offset + len ≥ 2 ^ 64 then .error (.io "byte range overflow" none)
  else if offset + len > source.len then .error (source.readPastEnd offset len)
  else .ok ((source.bytes.drop offset).take len)

theorem readRange_ok {source : RandomAccessSource} {offset len : Nat} {bs : List UInt8}
    (h : source.readRange offset len = .ok bs) :
    offset + len ≤ source.len ∧ bs = (source.bytes.drop offset).take len := by
  unfold readRange at h
  split at h
  · cases h
  · split at h
    · cases h
    · cases h
      exact ⟨by omega, rfl⟩

theorem length_readRange {source : RandomAccessSource} {offset len : Nat} {bs : List UInt8}
    (h : source.readRange offset len = .ok bs) : bs.length = len := by
  obtain ⟨hle, rfl⟩ := readRange_ok h
  unfold RandomAccessSource.len at hle
  simp only [List.length_take, List.length_drop]
  omega

theorem readRange_eq {source : RandomAccessSource} {before bs after : List UInt8}
    (h : source.bytes = before ++ bs ++ after) : source.readRange before.length bs.length = .ok bs := by
  have hlen : source.len = before.length + bs.length + after.length := by
    simp [RandomAccessSource.len, h, Nat.add_assoc]
  have hsize : source.len < 2 ^ 63 := source.size
  unfold readRange
  rw [if_neg (by omega), if_neg (by omega), h]
  simp

end RandomAccessSource

/-! ## Limits -/

/-- `InspectionLimits`. -/
structure InspectionLimits where
  maxHeaderBytes : Nat := 64 * 1024 * 1024
  maxTensorCount : Nat := 1000000
  maxMetadataEntries : Nat := 1000000
  maxKeyLen : Nat := 16 * 1024
  maxShapeRank : Nat := 16
  maxDim : Nat := 2 ^ 40
  maxTotalDeclaredBytes : Nat := 2 ^ 50
  deriving DecidableEq, Repr

/-- An `InvalidCheckpoint` error of a message and the key it concerns. -/
def invalidCheckpoint (message : String) (key : Option String := none) (detail : Option String := none) :
    DynInferError := .invalidCheckpoint { message, key, detail }

namespace InspectionLimits

def validateKey (limits : InspectionLimits) (key : String) : Except DynInferError Unit :=
  if key.utf8ByteSize > limits.maxKeyLen then
    .error (invalidCheckpoint s!"tensor key length {key.utf8ByteSize} exceeds limit {limits.maxKeyLen}"
      (some (String.ofList (key.toList.take 64))))
  else .ok ()

def validateShape (limits : InspectionLimits) (shape : Shape) : Except DynInferError Unit :=
  if shape.length > limits.maxShapeRank then
    .error (invalidCheckpoint s!"shape rank {shape.length} exceeds limit {limits.maxShapeRank}")
  else
    match shape.find? fun d => decide (d > limits.maxDim) with
    | some d => .error (invalidCheckpoint s!"dimension {d} exceeds limit {limits.maxDim}")
    | none => .ok ()

theorem validateKey_ok_iff {limits : InspectionLimits} {key : String} :
    limits.validateKey key = .ok () ↔ key.utf8ByteSize ≤ limits.maxKeyLen := by
  unfold validateKey
  by_cases h : key.utf8ByteSize > limits.maxKeyLen
  · rw [if_pos h]
    exact ⟨nofun, fun hle => absurd hle (by omega)⟩
  · rw [if_neg h]
    exact ⟨fun _ => by omega, fun _ => rfl⟩

theorem validateShape_ok_iff {limits : InspectionLimits} {shape : Shape} :
    limits.validateShape shape = .ok () ↔ shape.length ≤ limits.maxShapeRank ∧ ∀ d ∈ shape, d ≤ limits.maxDim := by
  unfold validateShape
  by_cases h : shape.length > limits.maxShapeRank
  · rw [if_pos h]
    exact ⟨nofun, fun hle => absurd hle.1 (by omega)⟩
  · rw [if_neg h]
    cases hfind : shape.find? fun d => decide (d > limits.maxDim) with
    | some d =>
      have hd := List.find?_some hfind
      have hmem := List.mem_of_find?_eq_some hfind
      exact ⟨nofun, fun hle => absurd (hle.2 d hmem) (by simpa using hd)⟩
    | none =>
      simp only [List.find?_eq_none, decide_eq_true_eq, not_lt] at hfind
      exact ⟨fun _ => ⟨by omega, hfind⟩, fun _ => rfl⟩

end InspectionLimits

/-! ## Indices -/

structure ContainerIdentity where
  formatId : String
  version : Option Nat
  magic : Option String
  deriving DecidableEq, Repr

structure RawTensorEntry where
  key : String
  sourceFileIndex : Nat
  shape : Shape
  storageType : StorageElementType
  byteRanges : List ByteRange
  alignment : Nat
  endianness : Endianness
  metadata : MetadataMap

structure RawCheckpointIndex where
  container : ContainerIdentity
  sourceFiles : List SourceFile
  metadata : MetadataMap
  entries : List RawTensorEntry
  dataOffset : Nat

/-- The one source file of an index, where the source has a path. -/
def RandomAccessSource.sourceFiles (source : RandomAccessSource) : List SourceFile :=
  source.path.toList.map fun path => { path, sizeBytes := source.len }

end Dyninfer
