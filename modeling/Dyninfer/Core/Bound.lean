/-
What the compiler receives (`dyninfer-core/src/types.rs` and `ir.rs`): the
logical parameters of a checkpoint, the binding of an architecture's slots to
their storage, the kernels selected for the operations, and the bound model
that holds them all.
-/
import Dyninfer.Core.Graph
import Dyninfer.Core.Json

namespace Dyninfer

/-- `Shape`: the dimensions of a tensor. -/
abbrev Shape := List Nat

/-- `Shape::numel`, which is `None` where the product leaves `u64`. -/
def Shape.numel (shape : Shape) : Option Nat :=
  shape.foldlM (fun acc d => if acc * d < 2 ^ 64 then some (acc * d) else none) 1

/-- The number of elements, unbounded. -/
def Shape.size (shape : Shape) : Nat := shape.prod

inductive StorageElementType where
  | scalar (ty : ScalarType)
  | packedBits (bits : Nat) (signed : Bool)
  | opaqueCodec (codec : String)
  deriving DecidableEq, Repr

inductive TensorOrder where
  | rowMajor | columnMajor
  deriving DecidableEq, Repr

inductive Endianness where
  | little | big | native
  deriving DecidableEq, Repr

inductive ZeroPointMode where
  | none | symmetric
  | asymmetric (zeroPointType : ScalarType)
  | constant (v : Int)
  deriving DecidableEq, Repr

structure BlockLayoutField where
  name : String
  byteOffset : Nat
  byteLength : Nat
  storageType : StorageElementType
  deriving DecidableEq, Repr

/-- The fields of `PhysicalEncoding::GroupQuantized`. -/
structure GroupQuantization where
  logicalType : ScalarType
  storageBits : Nat
  storageContainer : ScalarType
  signed : Bool
  axis : Int
  groupSize : Nat
  scaleType : ScalarType
  biasType : Option ScalarType
  zeroPoint : ZeroPointMode
  packing : String
  order : TensorOrder
  components : List String
  deriving DecidableEq, Repr

/-- The fields of `PhysicalEncoding::BlockQuantized`. -/
structure BlockQuantization where
  logicalType : ScalarType
  blockShape : List Nat
  bytesPerBlock : Nat
  codec : String
  codecVersion : Nat
  components : List String
  layout : List BlockLayoutField
  order : TensorOrder
  endianness : Endianness
  deriving DecidableEq, Repr

/-- `PhysicalEncoding`; the JSON descriptor of an opaque codec is its text, which only the digest of a schema takes in. -/
inductive PhysicalEncoding where
  | plain (storageType : ScalarType) (order : TensorOrder := .rowMajor)
  | groupQuantized (quantization : GroupQuantization)
  | blockQuantized (quantization : BlockQuantization)
  | sparse (logicalType : ScalarType) (format : String) (blockShape : List Nat)
  | opaqueCodec (codec : String) (codecVersion : Nat) (descriptor : String)
  deriving DecidableEq, Repr

def PhysicalEncoding.isPlain : PhysicalEncoding → Bool
  | .plain .. => true
  | _ => false

structure ByteRange where
  offset : Nat
  length : Nat
  deriving DecidableEq, Repr

structure StorageComponent where
  name : String
  key : String
  sourceFileIndex : Nat
  shape : Shape
  storageType : StorageElementType
  byteRanges : List ByteRange
  alignment : Nat
  endianness : Endianness := .little
  deriving DecidableEq, Repr

structure LogicalTensorType where
  shape : Shape
  elementType : ScalarType
  deriving DecidableEq, Repr

structure LogicalParameter where
  canonicalName : String
  role : ParameterRole
  logicalType : LogicalTensorType
  encoding : PhysicalEncoding
  components : List StorageComponent
  aliases : List String
  deriving DecidableEq, Repr

structure ParameterComponentBinding where
  componentName : String
  externalKey : String
  checkpointKey : String
  sourceFileIndex : Nat
  shape : Shape
  storageType : StorageElementType
  byteLengths : List Nat
  alignment : Nat
  endianness : Endianness := .little
  deriving DecidableEq, Repr

inductive BindingTransform where
  | identity | rename
  | reshape (shape : List Nat)
  | logicalTranspose (permutation : List Nat)
  | slice (ranges : List (Nat × Nat))
  | concatenate (axis : Nat)
  | split (axis : Nat) (segments : List Nat)
  | permute (permutation : List Nat)
  | alias
  deriving DecidableEq, Repr

structure ParameterBinding where
  slotId : String
  canonicalName : String
  checkpointKeys : List String
  encoding : PhysicalEncoding
  logicalShape : Shape
  logicalType : ScalarType
  components : List ParameterComponentBinding
  transform : BindingTransform
  scope : String
  parameterKey : String
  storageBytes : Nat
  alignment : Nat
  deriving DecidableEq, Repr

/-- `SchemaFingerprint`: the digest of a checkpoint's schema and its totals. -/
structure SchemaFingerprint where
  digest : String
  entryCount : Nat
  totalBytes : Nat
  deriving DecidableEq, Repr

structure BindingPlan where
  architectureId : String
  checkpointSchema : SchemaFingerprint
  bindings : List ParameterBinding
  unresolvedOptionalSlots : List String
  deriving DecidableEq, Repr

structure SpecializedExecutionShape where
  mode : ExecutionMode
  batchSize : Nat
  sequenceLength : Nat
  maxKvLength : Nat
  deriving DecidableEq, Repr

structure SelectedKernel where
  operationId : String
  mode : ExecutionMode
  kernelId : String
  loweringId : String
  parameterSlots : List String
  inputType : ScalarType
  outputType : ScalarType
  activationType : ScalarType
  accumulatorType : ScalarType
  deriving DecidableEq, Repr

structure TargetProfile where
  driver : String
  deviceId : Option Nat := none
  triple : Option String := none
  architecture : Option String := none
  features : List String := []
  capabilityFingerprint : String := ""
  deviceUri : Option String := none
  deviceName : Option String := none
  subgroupSize : Option Nat := none
  maxWorkgroupInvocations : Option Nat := none
  executableTargetFlags : List String := []
  verified : Bool := false
  deriving DecidableEq, Repr

def TargetProfile.isCompileReady (target : TargetProfile) : Bool :=
  target.verified && (!(["cuda", "hip", "rocm"].contains target.driver) || target.architecture.isSome)

structure PrecisionPolicy where
  id : String := "conservative_sensitive_ops"
  version : Nat := 1
  sensitiveInternalType : ScalarType := .f32
  deriving DecidableEq, Repr

structure ShapeProfile where
  batchSizes : List Nat
  sequenceBuckets : List Nat
  maxSequenceLength : Nat
  deriving DecidableEq, Repr

structure BoundModel where
  architecture : ArchitectureGraph
  resolvedConfig : MetadataMap
  binding : BindingPlan
  executionShapes : List SpecializedExecutionShape
  target : TargetProfile
  precisionPolicy : PrecisionPolicy
  selectedKernels : List SelectedKernel

end Dyninfer
