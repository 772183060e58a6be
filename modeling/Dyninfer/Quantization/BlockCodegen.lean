/-
The dequantising programs (`gguf_codegen.rs`, and the four-bit groups of
`mlx_affine.rs`): the helpers for linear layers and for gathering a row, as
the tensor programs that are emitted. The arithmetic on `f32` is a parameter.
Of a reduction the order is that of its iterators; the optimization barrier
that a GPU gets changes no value. A scale of an MLX group comes as `f32`, cast
or extended where it is loaded.
-/
import Dyninfer.Lib.Tensor
import Dyninfer.Quantization.Definitions

namespace Dyninfer

open Linalg

/-- The operations on `f32` in the emitted programs. -/
structure F32Arith (F : Type) where
  /-- `arith.sitofp`, of an `i32`. -/
  sitofp : BitVec 32 → F
  /-- `arith.uitofp`, of an `i32`. -/
  uitofp : BitVec 32 → F
  /-- `arith.extf`, of the bits of an `f16`. -/
  extf : BitVec 16 → F
  mulf : F → F → F
  addf : F → F → F
  zero : F

def BlockLayout.bytesPerBlock : BlockLayout → Nat
  | .q40 => 18
  | .q41 => 20
  | .q80 => 34
  | .q6k => 210

variable {F : Type} (arith : F32Arith F)

/-! ## Blocks -/

namespace GgufCodegen

/-- `emit_q8_linalg`. -/
def emitQ8Linalg (bytes : Tensor (BitVec 8)) (words : Tensor (BitVec 16)) (output blocks : Nat) : Tensor F :=
  let quants := bytes.extractSlice [0, 0, 2] [output, blocks, 32]
  Tensor.generic [output, blocks, 32] fun
    | [o, b, k] =>
      let q := quants.get [o, b, k]
      let scale := words.get [o, b, 0]
      arith.mulf (arith.sitofp (q.signExtend 32)) (arith.extf scale)
    | _ => arith.zero

/-- `emit_q4_linalg`. -/
def emitQ4Linalg (bytes : Tensor (BitVec 8)) (words : Tensor (BitVec 16)) (output blocks quantOffset : Nat)
    (hasMinimum : Bool) : Tensor F :=
  let qbytes := bytes.extractSlice [0, 0, quantOffset] [output, blocks, 16]
  let qlanes := qbytes.bitcast 4 [output, blocks, 16, 2]
  let result4 := Tensor.generic [output, blocks, 2, 16] fun
    | [o, b, h, l] =>
      let q := qlanes.get [o, b, l, h]
      let scale := words.get [o, b, 0]
      let qi := q.setWidth 32 - (if hasMinimum then 0 else 8)
      let scaled := arith.mulf (arith.sitofp qi) (arith.extf scale)
      let bias := if hasMinimum then arith.extf (words.get [o, b, 1]) else arith.zero
      arith.addf scaled bias
    | _ => arith.zero
  result4.reshape [output, blocks, 32]

/-- `emit_q6k_linalg`. -/
def emitQ6kLinalg (bytes : Tensor (BitVec 8)) (words : Tensor (BitVec 16)) (output blocks : Nat) : Tensor F :=
  let qlBytes := bytes.extractSlice [0, 0, 0] [output, blocks, 128]
  let qhBytes := bytes.extractSlice [0, 0, 128] [output, blocks, 64]
  let scaleBytes := bytes.extractSlice [0, 0, 192] [output, blocks, 16]
  let ql := qlBytes.bitcast 4 [output, blocks, 2, 2, 32, 2]
  let qh := qhBytes.bitcast 2 [output, blocks, 2, 32, 2, 2]
  let scales := scaleBytes.reshape [output, blocks, 2, 2, 2, 2]
  let result7 := Tensor.generic [output, blocks, 2, 2, 2, 2, 16] fun
    | [o, b, n, h, p, s, l] =>
      let low := ql.get [o, b, n, p, s * 16 + l, h]
      let high2 := qh.get [o, b, n, s * 16 + l, h, p]
      let scaleByte := scales.get [o, b, n, h, p, s]
      let superScale := words.get [o, b, 104]
      let q := low.setWidth 32 + high2.setWidth 32 * 16 - 32
      let localScaled := arith.mulf (arith.sitofp q) (arith.sitofp (scaleByte.signExtend 32))
      arith.mulf localScaled (arith.extf superScale)
    | _ => arith.zero
  result7.reshape [output, blocks, 256]

/-- `emit_dequant`: the weights of all blocks. -/
def emitDequant (layout : BlockLayout) (data : Tensor (BitVec 8)) (output blocks : Nat) : Tensor F :=
  let blockBytes := layout.bytesPerBlock
  let bytes := data.reshape [output, blocks, blockBytes]
  let words := data.bitcast 16 [output, blocks, blockBytes / 2]
  match layout with
  | .q40 => emitQ4Linalg arith bytes words output blocks 2 false
  | .q41 => emitQ4Linalg arith bytes words output blocks 4 true
  | .q80 => emitQ8Linalg arith bytes words output blocks
  | .q6k => emitQ6kLinalg arith bytes words output blocks

end GgufCodegen

/-- The contraction of rows with the weights of groups: every group and every place in it, in turn. -/
def contract (x w : Tensor F) (rows output groups group : Nat) : Tensor F :=
  Tensor.generic [rows, output] fun
    | [b, o] =>
      ((List.range groups).flatMap fun g => (List.range group).map fun k => (g, k)).foldl
        (fun acc place => arith.addf acc (arith.mulf (x.get [b, place.1, place.2]) (w.get [o, place.1, place.2])))
        arith.zero
    | _ => arith.zero

namespace GgufCodegen

/-- `emit_linear`. -/
def emitLinear (layout : BlockLayout) (rows input output : Nat) (x : Tensor F) (data : Tensor (BitVec 8)) : Tensor F :=
  let block := layout.blockSize
  let blocks := input / block
  let xg := x.reshape [rows, blocks, block]
  let w := emitDequant arith layout data output blocks
  contract arith xg w rows output blocks block

/-- `emit_gather`. -/
def emitGather (layout : BlockLayout) (width : Nat) (data : Tensor (BitVec 8)) (index : Nat) : Tensor F :=
  let blocks := width / layout.blockSize
  let rowBytes := blocks * layout.bytesPerBlock
  let rowData := data.extractSlice [index * rowBytes] [rowBytes]
  let row3 := emitDequant arith layout rowData 1 blocks
  row3.reshape [1, width]

end GgufCodegen

/-! ## Groups -/

namespace MlxAffineDefinition

/-- The lanes of the packed words, as `emit_parameter_load` takes them. -/
def packedLanes (words : Tensor (BitVec 32)) (output groups group : Nat) : Tensor (BitVec 4) :=
  words.bitcast 4 [output, groups, group]

/-- The weights in `emit_linear_u4`, and the row in `emit_gather_u4`. -/
def dequantU4 (q : Tensor (BitVec 4)) (scales biases : Tensor F) (output groups group : Nat) : Tensor F :=
  Tensor.generic [output, groups, group] fun
    | [o, g, k] =>
      let qi := (q.get [o, g, k]).setWidth 32
      let scaled := arith.mulf (arith.uitofp qi) (scales.get [o, g])
      arith.addf scaled (biases.get [o, g])
    | _ => arith.zero

/-- `emit_linear_u4`. -/
def emitLinearU4 (rows input output group : Nat) (x : Tensor F) (q : Tensor (BitVec 4)) (scales biases : Tensor F) :
    Tensor F :=
  let groups := input / group
  let xg := x.reshape [rows, groups, group]
  let w := dequantU4 arith q scales biases output groups group
  contract arith xg w rows output groups group

/-- `emit_gather_u4`. -/
def emitGatherU4 (width group : Nat) (q : Tensor (BitVec 4)) (scales biases : Tensor F) (index : Nat) : Tensor F :=
  let groups := width / group
  let qrow := q.extractSlice [index, 0, 0] [1, groups, group]
  let srow := scales.extractSlice [index, 0] [1, groups]
  let brow := biases.extractSlice [index, 0] [1, groups]
  let row3 := dequantU4 arith qrow srow brow 1 groups group
  row3.reshape [1, width]

end MlxAffineDefinition

end Dyninfer
