/-
The tensor types of GGUF (`dyninfer-checkpoint-gguf/src/types.rs`): their codes,
their blocks, and the bytes a shape takes.
-/
import Dyninfer.Checkpoint.Container
import Dyninfer.Lib.Fallible

namespace Dyninfer

inductive GgufType where
  | f32 | f16 | q4_0 | q4_1 | q5_0 | q5_1 | q8_0 | q8_1
  | q2_k | q3_k | q4_k | q5_k | q6_k | q8_k
  | iq2_xxs | iq2_xs | iq3_xxs | iq1_s | iq4_nl | iq3_s | iq2_s | iq4_xs
  | i8 | i16 | i32 | i64 | f64 | iq1_m | bf16 | tq1_0 | tq2_0 | mxfp4
  deriving DecidableEq, Repr

namespace GgufType

/-- The discriminant, `as u32`. -/
def code : GgufType → Nat
  | f32 => 0 | f16 => 1 | q4_0 => 2 | q4_1 => 3 | q5_0 => 6 | q5_1 => 7 | q8_0 => 8 | q8_1 => 9
  | q2_k => 10 | q3_k => 11 | q4_k => 12 | q5_k => 13 | q6_k => 14 | q8_k => 15
  | iq2_xxs => 16 | iq2_xs => 17 | iq3_xxs => 18 | iq1_s => 19 | iq4_nl => 20 | iq3_s => 21 | iq2_s => 22
  | iq4_xs => 23 | i8 => 24 | i16 => 25 | i32 => 26 | i64 => 27 | f64 => 28 | iq1_m => 29 | bf16 => 30
  | tq1_0 => 34 | tq2_0 => 35 | mxfp4 => 39

def fromU32 : Nat → Except DynInferError GgufType
  | 0 => .ok f32
  | 1 => .ok f16
  | 2 => .ok q4_0
  | 3 => .ok q4_1
  | 6 => .ok q5_0
  | 7 => .ok q5_1
  | 8 => .ok q8_0
  | 9 => .ok q8_1
  | 10 => .ok q2_k
  | 11 => .ok q3_k
  | 12 => .ok q4_k
  | 13 => .ok q5_k
  | 14 => .ok q6_k
  | 15 => .ok q8_k
  | 16 => .ok iq2_xxs
  | 17 => .ok iq2_xs
  | 18 => .ok iq3_xxs
  | 19 => .ok iq1_s
  | 20 => .ok iq4_nl
  | 21 => .ok iq3_s
  | 22 => .ok iq2_s
  | 23 => .ok iq4_xs
  | 24 => .ok i8
  | 25 => .ok i16
  | 26 => .ok i32
  | 27 => .ok i64
  | 28 => .ok f64
  | 29 => .ok iq1_m
  | 30 => .ok bf16
  | 34 => .ok tq1_0
  | 35 => .ok tq2_0
  | 39 => .ok mxfp4
  | other => .error (invalidCheckpoint s!"unknown GGUF tensor type code {other}")

def name : GgufType → String
  | f32 => "f32" | f16 => "f16" | q4_0 => "q4_0" | q4_1 => "q4_1" | q5_0 => "q5_0" | q5_1 => "q5_1"
  | q8_0 => "q8_0" | q8_1 => "q8_1" | q2_k => "q2_k" | q3_k => "q3_k" | q4_k => "q4_k" | q5_k => "q5_k"
  | q6_k => "q6_k" | q8_k => "q8_k" | iq2_xxs => "iq2_xxs" | iq2_xs => "iq2_xs" | iq3_xxs => "iq3_xxs"
  | iq1_s => "iq1_s" | iq4_nl => "iq4_nl" | iq3_s => "iq3_s" | iq2_s => "iq2_s" | iq4_xs => "iq4_xs"
  | i8 => "i8" | i16 => "i16" | i32 => "i32" | i64 => "i64" | f64 => "f64" | iq1_m => "iq1_m"
  | bf16 => "bf16" | tq1_0 => "tq1_0" | tq2_0 => "tq2_0" | mxfp4 => "mxfp4"

def blockSize : GgufType → Option Nat
  | q4_0 | q4_1 | q5_0 | q5_1 | q8_0 | q8_1 | iq4_nl | mxfp4 => some 32
  | q2_k | q3_k | q4_k | q5_k | q6_k | q8_k | iq2_xxs | iq2_xs | iq3_xxs | iq1_s | iq3_s | iq2_s | iq4_xs
  | iq1_m | tq1_0 | tq2_0 => some 256
  | _ => none

/-- The bytes of a block, or of an element of a type without blocks. -/
def typeSize : GgufType → Option Nat
  | q4_0 => some 18 | q4_1 => some 20 | q5_0 => some 22 | q5_1 => some 24 | q8_0 => some 34 | q8_1 => some 36
  | q2_k => some 84 | q3_k => some 110 | q4_k => some 144 | q5_k => some 176 | q6_k => some 210
  | q8_k => some 292 | iq2_xxs => some 66 | iq2_xs => some 74 | iq3_xxs => some 98 | iq1_s => some 50
  | iq4_nl => some 18 | iq3_s => some 110 | iq2_s => some 82 | iq4_xs => some 136 | iq1_m => some 56
  | tq1_0 => some 54 | tq2_0 => some 66 | mxfp4 => some 17
  | f32 => some 4
  | f16 | bf16 => some 2
  | f64 | i64 => some 8
  | i32 => some 4
  | i16 => some 2
  | i8 => some 1

def storageElementType : GgufType → StorageElementType
  | f32 => .scalar .f32
  | f16 => .scalar .f16
  | bf16 => .scalar .bf16
  | f64 => .scalar .f64
  | i8 => .scalar .i8
  | i16 => .scalar .i16
  | i32 => .scalar .i32
  | i64 => .scalar .i64
  | other => .opaqueCodec s!"gguf.{other.name}"

/-- `checked_mul` of two `u64`. -/
def checkedMul (a b : Nat) (e : DynInferError) : Except DynInferError Nat :=
  if a * b < 2 ^ 64 then .ok (a * b) else .error e

def cannotSize (type : GgufType) : DynInferError := invalidCheckpoint s!"cannot size GGUF type {type.name}"

/-- `nbytes_for_shape`. -/
def nbytesForShape (type : GgufType) (shape : Shape) : Except DynInferError Nat :=
  match shape.numel with
  | none => .error (invalidCheckpoint "shape numel overflow")
  | some numel =>
    match type.blockSize with
    | some block =>
      match type.typeSize with
      | none => .error type.cannotSize
      | some typeSize =>
        if numel % block ≠ 0 then
          .error (invalidCheckpoint s!"GGUF {type.name} numel {numel} not divisible by block {block}")
        else checkedMul (numel / block) typeSize (invalidCheckpoint "tensor byte size overflow")
    | none =>
      match type.typeSize with
      | none => .error type.cannotSize
      | some size => checkedMul numel size (invalidCheckpoint "tensor byte size overflow")

theorem fromU32_code (type : GgufType) : fromU32 type.code = .ok type := by cases type <;> rfl

theorem code_of_fromU32 {n : Nat} {type : GgufType} (h : fromU32 n = .ok type) : type.code = n := by
  unfold fromU32 at h
  split at h <;> cases h <;> rfl

end GgufType

end Dyninfer
