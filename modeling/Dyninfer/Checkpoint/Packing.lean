/-
The packers of the fixtures (`q4.rs`, and `quantize_affine_u4` of
`fixture.rs`): weights in row-major order, quantised block by block. The
arithmetic on `f32` is a parameter; that a value clamped to the range from
zero to fifteen converts to such an integer is all that is known of it.
-/
import Dyninfer.Core.Error
import Dyninfer.Lib.Rows

namespace Dyninfer

/-- The operations on `f32` in the packers. -/
structure F32Host (F : Type) where
  /-- A literal. -/
  lit : Nat → F
  infinity : F
  negInfinity : F
  /-- `1.0e-7`. -/
  tiny : F
  abs : F → F
  round : F → F
  max : F → F → F
  min : F → F → F
  sub : F → F → F
  mul : F → F → F
  div : F → F → F
  lt : F → F → Bool
  clamp : F → F → F → F
  /-- `as i32`, which saturates. -/
  toI32 : F → Int
  /-- `as u8` and `as u32`. -/
  toUnsigned : F → Nat
  /-- `f16::from_f32`, as its bits. -/
  toF16 : F → BitVec 16
  toUnsigned_clamp : ∀ x, toUnsigned (clamp x (lit 0) (lit 15)) ≤ 15

namespace F32Host

variable {F : Type} (host : F32Host F)

/-- `i32::clamp`. -/
def clampI32 (low high x : Int) : Int := Max.max low (Min.min high x)

/-- `to_le_bytes` of an `f16`. -/
def leBytes (v : BitVec 16) : List (BitVec 8) := [v.extractLsb' 0 8, v.extractLsb' 8 8]

/-- Two lanes in a byte. -/
def nibbles (low high : Nat) : BitVec 8 := BitVec.ofNat 8 low ||| BitVec.ofNat 8 high <<< 4

/-- The divisor of a scale, or zero. -/
def inverse (scale : F) : F := if host.lt (host.lit 0) scale then host.div (host.lit 1) scale else host.lit 0

/-- The largest absolute value, over `steps`. -/
def scaleBy (steps : Nat) (block : List F) : F :=
  let amax := block.foldl (fun amax w => host.max amax (host.abs w)) (host.lit 0)
  if host.lt (host.lit 0) amax then host.div amax (host.lit steps) else host.lit 0

/-! ## Q4_0 -/

/-- The quantised value of an element of a block, from -8 to 7. -/
def quantQ40 (block : List F) (i : Nat) : Int :=
  clampI32 (-8) 7
    (host.toI32 (host.round (host.mul (block.getD i (host.lit 0)) (host.inverse (host.scaleBy 7 block)))))

def packBlockQ40 (block : List F) : List (BitVec 8) :=
  leBytes (host.toF16 (host.scaleBy 7 block)) ++ (List.range 16).map fun i =>
    nibbles (host.quantQ40 block i + 8).toNat (host.quantQ40 block (i + 16) + 8).toNat

/-- `pack_q4_0`. -/
def packQ40 (weights : List F) : Except DynInferError (List (BitVec 8)) :=
  if weights.length % 32 ≠ 0 then .error (.io s!"Q4_0 pack: numel {weights.length} not divisible by 32" none)
  else .ok ((Rows.chunksExact 32 weights).flatMap host.packBlockQ40)

/-! ## Q4_1 -/

def minimum (block : List F) : F := block.foldl host.min host.infinity

/-- The range of a block over fifteen steps. -/
def scaleQ41 (block : List F) : F :=
  let maximum := block.foldl host.max host.negInfinity
  if host.lt (host.minimum block) maximum then host.div (host.sub maximum (host.minimum block)) (host.lit 15)
  else host.lit 0

/-- The quantised value of an element of a block, from 0 to 15. -/
def quantQ41 (block : List F) (i : Nat) : Nat :=
  host.toUnsigned (host.clamp (host.round (host.mul (host.sub (block.getD i (host.lit 0)) (host.minimum block))
    (host.inverse (host.scaleQ41 block)))) (host.lit 0) (host.lit 15))

def packBlockQ41 (block : List F) : List (BitVec 8) :=
  leBytes (host.toF16 (host.scaleQ41 block)) ++ leBytes (host.toF16 (host.minimum block)) ++
    (List.range 16).map fun i => nibbles (host.quantQ41 block i) (host.quantQ41 block (i + 16))

/-- `pack_q4_1`. -/
def packQ41 (weights : List F) : Except DynInferError (List (BitVec 8)) :=
  if weights.length % 32 ≠ 0 then .error (.io s!"Q4_1 pack: numel {weights.length} not divisible by 32" none)
  else .ok ((Rows.chunksExact 32 weights).flatMap host.packBlockQ41)

/-! ## Q8_0 -/

/-- The quantised value of an element of a block, from -127 to 127. -/
def quantQ80 (scale : F) (value : F) : Int :=
  clampI32 (-127) 127 (host.toI32 (host.round (host.mul value (host.inverse scale))))

def packBlockQ80 (block : List F) : List (BitVec 8) :=
  leBytes (host.toF16 (host.scaleBy 127 block)) ++
    block.map fun value => BitVec.ofInt 8 (host.quantQ80 (host.scaleBy 127 block) value)

/-- `pack_q8_0`. -/
def packQ80 (weights : List F) : Except DynInferError (List (BitVec 8)) :=
  if weights.length % 32 ≠ 0 then .error (.io s!"Q8_0 pack: numel {weights.length} not divisible by 32" none)
  else .ok ((Rows.chunksExact 32 weights).flatMap host.packBlockQ80)

/-! ## MLX groups -/

/-- The range of a group over fifteen steps, and not zero. -/
def scaleU4 (group : List F) : F :=
  let max := group.foldl host.max host.negInfinity
  host.max (host.div (host.sub max (host.minimum group)) (host.lit 15)) host.tiny

/-- The quantised value of an element of a group, from 0 to 15. -/
def quantU4 (group : List F) (value : F) : Nat :=
  host.toUnsigned (host.clamp (host.round (host.div (host.sub value (host.minimum group)) (host.scaleU4 group)))
    (host.lit 0) (host.lit 15))

/-- Eight lanes in a word, the first one lowest. -/
def packWord (lanes : List Nat) : BitVec 32 :=
  lanes.zipIdx.foldl (fun word lane => word ||| BitVec.ofNat 32 lane.1 <<< (lane.2 * 4)) 0

/-- The words of a group, eight lanes each. -/
def packWords (group : List F) : List (BitVec 32) :=
  (Rows.chunksExact 8 group).map fun lanes => packWord (lanes.map (host.quantU4 group))

/-- `quantize_affine_u4`: the words, the scales and the biases, where its assertions hold. -/
def quantizeAffineU4 (values : List F) (rows columns groupSize : Nat) : Option (List (BitVec 32) × List F × List F) :=
  if values.length = rows * columns ∧ columns ≠ 0 ∧ columns % groupSize = 0 ∧ groupSize % 8 = 0 then
    let groups := (Rows.chunksExact columns values).flatMap (Rows.chunksExact groupSize)
    some (groups.flatMap host.packWords, groups.map host.scaleU4, groups.map host.minimum)
  else none

end F32Host

end Dyninfer
