/-
The shared types of `dyninfer-core` that the runtime and the compiler exchange:
scalar element types, the KV cache descriptor of the manifest, and the session
configuration. Unsigned fields are natural numbers.
-/
import Mathlib.Algebra.Order.Ring.Int

namespace Dyninfer

/-- `u32::MAX`, where saturating arithmetic stops. -/
def u32Max : Nat := 2 ^ 32 - 1

/-- `as u32`. -/
def asU32 (n : Nat) : Nat := n % 2 ^ 32

/-- The product of two `u32`, which wraps in a release build. -/
def u32Mul (a b : Nat) : Nat := asU32 (a * b)

/-- `TokenId` (`u32`). -/
abbrev TokenId := UInt32

inductive ScalarType where
  | f32 | f16 | bf16 | f64 | i8 | i16 | i32 | i64 | u8 | u16 | u32 | u64 | bool
  deriving DecidableEq, Repr

/-- `ScalarType::size_bytes`, which answers for every element type. -/
def ScalarType.sizeBytes : ScalarType → Nat
  | .f32 | .i32 | .u32 => 4
  | .f16 | .bf16 | .i16 | .u16 => 2
  | .f64 | .i64 | .u64 => 8
  | .i8 | .u8 | .bool => 1

/-- The text of a scalar type. -/
def ScalarType.text : ScalarType → String
  | .f32 => "f32" | .f16 => "f16" | .bf16 => "bf16" | .f64 => "f64"
  | .i8 => "i8" | .i16 => "i16" | .i32 => "i32" | .i64 => "i64"
  | .u8 => "u8" | .u16 => "u16" | .u32 => "u32" | .u64 => "u64" | .bool => "bool"

/-- The name of its variant, as a derived `Debug` prints it. -/
def ScalarType.debug : ScalarType → String
  | .f32 => "F32" | .f16 => "F16" | .bf16 => "Bf16" | .f64 => "F64"
  | .i8 => "I8" | .i16 => "I16" | .i32 => "I32" | .i64 => "I64"
  | .u8 => "U8" | .u16 => "U16" | .u32 => "U32" | .u64 => "U64" | .bool => "Bool"

/-- Who owns the KV state of an executable: mutable VM globals, or a packed pool of the runtime. -/
inductive KvCacheStorage where
  | staticGlobals
  | paged (pageSize chunkSize : Nat)
  deriving DecidableEq, Repr

structure KvCacheDescriptor where
  layerCount : Nat
  maxBatchSize : Nat
  maxSequenceLength : Nat
  kvHeadCount : Nat
  headDimension : Nat
  elementType : ScalarType
  storage : KvCacheStorage
  deriving DecidableEq, Repr

structure SessionConfig where
  maxSequenceLength : Nat := 2048
  batchSize : Nat := 1
  deriving DecidableEq, Repr

end Dyninfer
