/-
The emitted programs give back what the packers wrote. A tensor operation is
an equation between indices, so what a helper reads at an element is found by
following the element's coordinates back to the bytes or words of the block;
what stands there is found from the packer. The layout of a block, on which
both agree, is a definition of its own.
-/
import Dyninfer.Checkpoint.Packing
import Dyninfer.Quantization.BlockCodegen
import Mathlib.Tactic.Ring

namespace Dyninfer

open Linalg

/-! ## Bytes and words -/

section reading

variable {data : Tensor (BitVec 8)} {output blocks o b : Nat}

theorem bytes_get {size r : Nat} (hshape : data.shape = [output * blocks * size]) (ho : o < output) (hb : b < blocks)
    (hr : r < size) :
    (data.reshape [output, blocks, size]).get [o, b, r] = data.get [(o * blocks + b) * size + r] := by
  have hvalid : Valid [output, blocks, size] [o, b, r] := .cons ho (.cons hb (.cons hr .nil))
  have hlt := flatten_lt hvalid
  have hflat : flatten [output, blocks, size] [o, b, r] = (o * blocks + b) * size + r := by
    simp [flatten]
    ring
  refine data.reshape_get [(o * blocks + b) * size + r] ?_ ?_
  · rw [hshape]
    refine .cons ?_ .nil
    rw [← hflat]
    simpa [Nat.mul_assoc] using hlt
  · rw [hshape, hflat]
    simp [flatten]

theorem words_get (words w : Nat) (hshape : data.shape = [output * blocks * (2 * words)]) (ho : o < output)
    (hb : b < blocks) (hw : w < words) :
    (data.bitcast 16 [output, blocks, words]).get [o, b, w] =
      data.get [(o * blocks + b) * (2 * words) + (2 * w + 1)] ++ data.get [(o * blocks + b) * (2 * words) + 2 * w] := by
  have hflat : flatten [output, blocks, words] [o, b, w] = (o * blocks + b) * words + w := by
    simp [flatten]
    ring
  have hlt : (o * blocks + b) * words + w < output * blocks * words := by
    have hvalid : Valid [output, blocks, words] [o, b, w] := .cons ho (.cons hb (.cons hw .nil))
    have hlt := flatten_lt hvalid
    rw [hflat] at hlt
    simpa [Nat.mul_assoc] using hlt
  have hdouble : output * blocks * (2 * words) = 2 * (output * blocks * words) := by ring
  have hposition : (o * blocks + b) * (2 * words) + 2 * w = 2 * ((o * blocks + b) * words + w) := by ring
  refine data.bitcast_get_pair [(o * blocks + b) * (2 * words) + 2 * w] [(o * blocks + b) * (2 * words) + (2 * w + 1)]
    ?_ ?_ ?_ ?_
  · rw [hshape, hdouble]
    exact .cons (by omega) .nil
  · rw [hshape, hdouble]
    exact .cons (by omega) .nil
  · rw [hshape, hflat, hposition]
    simp [flatten]
  · rw [hshape, hflat, ← Nat.add_assoc, hposition]
    simp [flatten]

end reading

/-! ## One block -/

section blocks

variable {F : Type} (arith : F32Arith F)

/-- An `f16` of a block. -/
def wordAt (byte : Nat → BitVec 8) (w : Nat) : BitVec 16 := byte (2 * w + 1) ++ byte (2 * w)

/-- The value of an element of a block by its layout, where the block's bytes are given. -/
def dequantBlock : BlockLayout → (Nat → BitVec 8) → Nat → F
  | .q40, byte, k =>
    let q := (byte (2 + k % 16)).extractLsb' (4 * (k / 16)) 4
    arith.addf (arith.mulf (arith.sitofp (q.setWidth 32 - 8)) (arith.extf (wordAt byte 0))) arith.zero
  | .q41, byte, k =>
    let q := (byte (4 + k % 16)).extractLsb' (4 * (k / 16)) 4
    arith.addf (arith.mulf (arith.sitofp (q.setWidth 32)) (arith.extf (wordAt byte 0))) (arith.extf (wordAt byte 1))
  | .q80, byte, k => arith.mulf (arith.sitofp ((byte (2 + k)).signExtend 32)) (arith.extf (wordAt byte 0))
  | .q6k, byte, k =>
    -- two halves of 128 elements, each of four quadrants of 32 that share bytes
    let half := k / 128
    let quadrant := k % 128 / 32
    let l := k % 32
    let low := (byte (64 * half + 32 * (quadrant % 2) + l)).extractLsb' (4 * (quadrant / 2)) 4
    let high := (byte (128 + 32 * half + l)).extractLsb' (2 * quadrant) 2
    let scale := byte (192 + 8 * half + 2 * quadrant + l / 16)
    arith.mulf (arith.mulf (arith.sitofp (low.setWidth 32 + high.setWidth 32 * 16 - 32))
      (arith.sitofp (scale.signExtend 32))) (arith.extf (wordAt byte 104))

variable {data : Tensor (BitVec 8)} {output blocks o b : Nat}

/-- The bytes of a block. -/
def blockByte (data : Tensor (BitVec 8)) (size blocks o b r : Nat) : BitVec 8 := data.get [(o * blocks + b) * size + r]

/-- The bytes from an offset on. -/
theorem slice_get {offset count r : Nat} {size : Nat} (hshape : data.shape = [output * blocks * size]) (ho : o < output)
    (hb : b < blocks) (hr : r < count) (hcount : offset + count ≤ size) :
    ((data.reshape [output, blocks, size]).extractSlice [0, 0, offset] [output, blocks, count]).get [o, b, r] =
      blockByte data size blocks o b (offset + r) := by
  simp only [Tensor.extractSlice, List.zipWith_cons_cons, List.zipWith_nil_right, Nat.zero_add]
  rw [bytes_get hshape ho hb (by omega)]
  rfl

theorem emitQ4Linalg_get {size offset k : Nat} {hasMinimum : Bool} {words : Tensor (BitVec 16)}
    (hshape : data.shape = [output * blocks * size]) (ho : o < output) (hb : b < blocks) (hk : k < 32)
    (hoffset : offset + 16 ≤ size) :
    (GgufCodegen.emitQ4Linalg arith (data.reshape [output, blocks, size]) words output blocks offset hasMinimum).get
        [o, b, k] =
      arith.addf (arith.mulf (arith.sitofp
          (((blockByte data size blocks o b (offset + k % 16)).extractLsb' (4 * (k / 16)) 4).setWidth 32 -
            (if hasMinimum then 0 else 8))) (arith.extf (words.get [o, b, 0])))
        (if hasMinimum then arith.extf (words.get [o, b, 1]) else arith.zero) := by
  have hh : k / 16 < 2 := by omega
  have hl : k % 16 < 16 := by omega
  have hlane : (((data.reshape [output, blocks, size]).extractSlice [0, 0, offset] [output, blocks, 16]).bitcast 4
      [output, blocks, 16, 2]).get [o, b, k % 16, k / 16] =
      (blockByte data size blocks o b (offset + k % 16)).extractLsb' (4 * (k / 16)) 4 := by
    refine (Tensor.bitcast_get_lane _ 2 (k / 16) [o, b, k % 16] rfl ?_ hh ?_).trans ?_
    · exact .cons ho (.cons hb (.cons hl .nil))
    · simp [flatten, Tensor.extractSlice]
      ring
    · rw [slice_get hshape ho hb hl hoffset]
  unfold GgufCodegen.emitQ4Linalg
  refine (Tensor.reshape_get _ [o, b, k / 16, k % 16] ?_ ?_).trans ?_
  · exact .cons ho (.cons hb (.cons hh (.cons hl .nil)))
  · simp [flatten, Tensor.generic]
    omega
  · simp only [Tensor.generic, hlane]

theorem emitQ8Linalg_get {k : Nat} {words : Tensor (BitVec 16)} (hshape : data.shape = [output * blocks * 34])
    (ho : o < output) (hb : b < blocks) (hk : k < 32) :
    (GgufCodegen.emitQ8Linalg arith (data.reshape [output, blocks, 34]) words output blocks).get [o, b, k] =
      arith.mulf (arith.sitofp ((blockByte data 34 blocks o b (2 + k)).signExtend 32))
        (arith.extf (words.get [o, b, 0])) := by
  simp only [GgufCodegen.emitQ8Linalg, Tensor.generic, Tensor.extractSlice, List.zipWith_cons_cons,
    List.zipWith_nil_right, Nat.zero_add]
  rw [bytes_get hshape ho hb (by omega)]
  rfl

theorem emitQ6kLinalg_get {k : Nat} {words : Tensor (BitVec 16)} (hshape : data.shape = [output * blocks * 210])
    (ho : o < output) (hb : b < blocks) (hk : k < 256)
    (hword : words.get [o, b, 104] = wordAt (blockByte data 210 blocks o b) 104) :
    (GgufCodegen.emitQ6kLinalg arith (data.reshape [output, blocks, 210]) words output blocks).get [o, b, k] =
      dequantBlock arith .q6k (blockByte data 210 blocks o b) k := by
  -- the coordinates of the element: half, the two bits of the quadrant, the sub-block and the place in it
  have hn : k / 128 < 2 := by omega
  have hh : k % 128 / 32 / 2 < 2 := by omega
  have hp : k % 128 / 32 % 2 < 2 := by omega
  have hs : k % 32 / 16 < 2 := by omega
  have hl : k % 16 < 16 := by omega
  have hll : k % 32 / 16 * 16 + k % 16 = k % 32 := by omega
  have hlow : (((data.reshape [output, blocks, 210]).extractSlice [0, 0, 0] [output, blocks, 128]).bitcast 4
      [output, blocks, 2, 2, 32, 2]).get [o, b, k / 128, k % 128 / 32 % 2, k % 32, k % 128 / 32 / 2] =
      (blockByte data 210 blocks o b (64 * (k / 128) + 32 * (k % 128 / 32 % 2) + k % 32)).extractLsb'
        (4 * (k % 128 / 32 / 2)) 4 := by
    refine (Tensor.bitcast_get_lane _ 2 (k % 128 / 32 / 2) [o, b, 64 * (k / 128) + 32 * (k % 128 / 32 % 2) + k % 32] rfl
      ?_ hh ?_).trans ?_
    · exact .cons ho (.cons hb (.cons (by omega) .nil))
    · simp [flatten, Tensor.extractSlice]
      ring
    · rw [slice_get hshape ho hb (by omega) (by decide), Nat.zero_add]
  have hhigh : (((data.reshape [output, blocks, 210]).extractSlice [0, 0, 128] [output, blocks, 64]).bitcast 2
      [output, blocks, 2, 32, 2, 2]).get [o, b, k / 128, k % 32, k % 128 / 32 / 2, k % 128 / 32 % 2] =
      (blockByte data 210 blocks o b (128 + 32 * (k / 128) + k % 32)).extractLsb' (2 * (k % 128 / 32)) 2 := by
    refine (Tensor.bitcast_get_lane _ 4 (k % 128 / 32) [o, b, 32 * (k / 128) + k % 32] rfl ?_ (by omega) ?_).trans ?_
    · exact .cons ho (.cons hb (.cons (by omega) .nil))
    · have hrows : o * (blocks * 256) = o * (blocks * 64) * 4 := by ring
      simp [flatten, Tensor.extractSlice]
      omega
    · rw [slice_get hshape ho hb (by omega) (by decide), ← Nat.add_assoc]
  have hscale : (((data.reshape [output, blocks, 210]).extractSlice [0, 0, 192] [output, blocks, 16]).reshape
      [output, blocks, 2, 2, 2, 2]).get
        [o, b, k / 128, k % 128 / 32 / 2, k % 128 / 32 % 2, k % 32 / 16] =
      blockByte data 210 blocks o b (192 + 8 * (k / 128) + 2 * (k % 128 / 32) + k % 32 / 16) := by
    refine (Tensor.reshape_get _ [o, b, 8 * (k / 128) + 2 * (k % 128 / 32) + k % 32 / 16] ?_ ?_).trans ?_
    · exact .cons ho (.cons hb (.cons (by omega) .nil))
    · simp [flatten, Tensor.extractSlice]
      omega
    · rw [slice_get hshape ho hb (by omega) (by decide)]
      congr 1
      omega
  unfold GgufCodegen.emitQ6kLinalg
  refine (Tensor.reshape_get _ [o, b, k / 128, k % 128 / 32 / 2, k % 128 / 32 % 2, k % 32 / 16, k % 16] ?_ ?_).trans ?_
  · exact .cons ho (.cons hb (.cons hn (.cons hh (.cons hp (.cons hs (.cons hl .nil))))))
  · simp [flatten, Tensor.generic]
    omega
  · simp only [Tensor.generic, hll, hlow, hhigh, hscale, hword, dequantBlock]

/-- Every element of the weights is that of its block. -/
theorem emitDequant_get {layout : BlockLayout} {k : Nat}
    (hshape : data.shape = [output * blocks * layout.bytesPerBlock]) (ho : o < output) (hb : b < blocks)
    (hk : k < layout.blockSize) :
    (GgufCodegen.emitDequant arith layout data output blocks).get [o, b, k] =
      dequantBlock arith layout (blockByte data layout.bytesPerBlock blocks o b) k := by
  cases layout with
  | q40 =>
    have hscale := words_get 9 0 hshape ho hb (by decide)
    unfold GgufCodegen.emitDequant
    simp only [BlockLayout.bytesPerBlock] at hshape ⊢
    rw [emitQ4Linalg_get arith hshape ho hb hk (by decide), hscale]
    rfl
  | q41 =>
    have hscale := words_get 10 0 hshape ho hb (by decide)
    have hminimum := words_get 10 1 hshape ho hb (by decide)
    unfold GgufCodegen.emitDequant
    simp only [BlockLayout.bytesPerBlock] at hshape ⊢
    rw [emitQ4Linalg_get arith hshape ho hb hk (by decide), hscale, hminimum]
    simp [dequantBlock, wordAt, blockByte]
  | q80 =>
    have hscale := words_get 17 0 hshape ho hb (by decide)
    unfold GgufCodegen.emitDequant
    simp only [BlockLayout.bytesPerBlock] at hshape ⊢
    rw [emitQ8Linalg_get arith hshape ho hb hk, hscale]
    rfl
  | q6k =>
    have hscale := words_get 105 104 hshape ho hb (by decide)
    unfold GgufCodegen.emitDequant
    simp only [BlockLayout.bytesPerBlock] at hshape ⊢
    exact emitQ6kLinalg_get arith hshape ho hb hk hscale

theorem emitDequant_shape (layout : BlockLayout) (data : Tensor (BitVec 8)) (output blocks : Nat) :
    (GgufCodegen.emitDequant arith layout data output blocks).shape = [output, blocks, layout.blockSize] := by
  cases layout <;> rfl

theorem blockSize_pos (layout : BlockLayout) : 0 < layout.blockSize := by cases layout <;> decide

/-- A row that is gathered has the elements of its blocks. -/
theorem emitGather_get {layout : BlockLayout} {vocab index k : Nat}
    (hshape : data.shape = [vocab * blocks * layout.bytesPerBlock]) (hindex : index < vocab) (hb : b < blocks)
    (hk : k < layout.blockSize) :
    (GgufCodegen.emitGather arith layout (blocks * layout.blockSize) data index).get [0, b * layout.blockSize + k] =
      (GgufCodegen.emitDequant arith layout data vocab blocks).get [index, b, k] := by
  have hblocks : blocks * layout.blockSize / layout.blockSize = blocks := Nat.mul_div_cancel _ (blockSize_pos layout)
  have hbytes : blockByte (data.extractSlice [index * (blocks * layout.bytesPerBlock)] [blocks * layout.bytesPerBlock])
      layout.bytesPerBlock blocks 0 b = blockByte data layout.bytesPerBlock blocks index b := by
    funext r
    simp only [blockByte, Tensor.extractSlice, List.zipWith_cons_cons, List.zipWith_nil_right]
    congr 2
    ring
  have hrow : (data.extractSlice [index * (blocks * layout.bytesPerBlock)] [blocks * layout.bytesPerBlock]).shape =
      [1 * blocks * layout.bytesPerBlock] := by
    rw [Nat.one_mul]
    rfl
  rw [emitDequant_get arith hshape hindex hb hk, ← hbytes, ← emitDequant_get arith hrow Nat.one_pos hb hk]
  unfold GgufCodegen.emitGather
  simp only [hblocks]
  refine Tensor.reshape_get _ [0, b, k] ?_ ?_
  · rw [emitDequant_shape]
    exact .cons Nat.one_pos (.cons hb (.cons hk .nil))
  · rw [emitDequant_shape]
    simp [flatten]

/-- A row times a row of weights, group by group. -/
def weightedSum (groups group : Nat) (x : Nat → F) (weight : Nat → Nat → F) : F :=
  ((List.range groups).flatMap fun g => (List.range group).map fun k => (g, k)).foldl
    (fun acc place => arith.addf acc (arith.mulf (x (place.1 * group + place.2)) (weight place.1 place.2))) arith.zero

/-- A linear layer multiplies each column with the weight of its group and place. -/
theorem contract_get {x w : Tensor F} {weight : Nat → Nat → F} {rows output groups group r o : Nat}
    (hx : x.shape = [rows, groups * group]) (hr : r < rows)
    (hw : ∀ g < groups, ∀ k < group, w.get [o, g, k] = weight g k) :
    (contract arith (x.reshape [rows, groups, group]) w rows output groups group).get [r, o] =
      weightedSum arith groups group (fun column => x.get [r, column]) weight := by
  have hread : ∀ g < groups, ∀ k < group, (x.reshape [rows, groups, group]).get [r, g, k] = x.get [r, g * group + k] := by
    intro g hg k hk
    have hlt : g * group + k < groups * group := place_lt hg hk
    refine x.reshape_get [r, g * group + k] ?_ ?_
    · rw [hx]
      exact .cons hr (.cons hlt .nil)
    · rw [hx]
      simp [flatten]
  unfold contract weightedSum
  simp only [Tensor.generic]
  refine List.foldl_ext _ _ _ fun acc place hplace => ?_
  obtain ⟨g, hg, hplace⟩ := List.mem_flatMap.mp hplace
  obtain ⟨k, hk, rfl⟩ := List.mem_map.mp hplace
  rw [hread g (List.mem_range.mp hg) k (List.mem_range.mp hk), hw g (List.mem_range.mp hg) k (List.mem_range.mp hk)]

end blocks

/-! ## What was packed -/

section packed

variable {F : Type} (arith : F32Arith F) (host : F32Host F)

theorem leBytes_append (v : BitVec 16) : (v.extractLsb' 8 8 : BitVec 8) ++ (v.extractLsb' 0 8 : BitVec 8) = v := by
  refine BitVec.eq_of_getLsbD_eq fun i hi => ?_
  rw [BitVec.getLsbD_append, BitVec.getLsbD_extractLsb', BitVec.getLsbD_extractLsb']
  by_cases h : i < 8
  · simp [h]
  · have hi' : i - 8 < 8 := by omega
    simp [h, hi', show 8 + (i - 8) = i by omega]

theorem nibbles_lane {low high h : Nat} (hlow : low < 16) (hhigh : high < 16) (hh : h < 2) :
    (F32Host.nibbles low high).extractLsb' (4 * h) 4 = BitVec.ofNat 4 (if h = 0 then low else high) := by
  have hall : ∀ low < 16, ∀ high < 16, ∀ h < 2, (F32Host.nibbles low high).extractLsb' (4 * h) 4 =
      BitVec.ofNat 4 (if h = 0 then low else high) := by decide +kernel
  exact hall low hlow high hhigh h hh

/-- The block of the weights at a row and a place in it. -/
def blockOf (weights : List F) (blocks o b : Nat) : List F := (weights.drop ((o * blocks + b) * 32)).take 32

theorem getElem?_blockOf {weights : List F} {blocks o b k : Nat} (hk : k < 32) :
    (blockOf weights blocks o b)[k]? = weights[o * (blocks * 32) + (32 * b + k)]? := by
  unfold blockOf
  rw [List.getElem?_take_of_lt hk, List.getElem?_drop]
  congr 1
  ring

theorem length_blockOf {weights : List F} {output blocks o b : Nat} (hlength : weights.length = output * (blocks * 32))
    (ho : o < output) (hb : b < blocks) : (blockOf weights blocks o b).length = 32 := by
  have hlt : o * blocks + b < output * blocks := place_lt ho hb
  have hle : (o * blocks + b + 1) * 32 ≤ output * blocks * 32 := Nat.mul_le_mul_right _ hlt
  rw [Nat.succ_mul, Nat.mul_assoc output] at hle
  rw [blockOf, List.length_take, List.length_drop]
  omega

theorem packed_get {pack : List F → List (BitVec 8)} {weights : List F} {output blocks size o b r : Nat}
    (hlength : weights.length = output * (blocks * 32))
    (hpack : ∀ block : List F, block.length = 32 → (pack block).length = size)
    (ho : o < output) (hb : b < blocks) (hr : r < size) :
    blockByte (Tensor.ofList ((Rows.chunksExact 32 weights).flatMap pack) 0) size blocks o b r =
      (pack (blockOf weights blocks o b)).getD r 0 := by
  have hcount : weights.length / 32 = output * blocks := by
    rw [hlength, ← Nat.mul_assoc, Nat.mul_div_cancel _ (by decide)]
  have hlt : o * blocks + b < output * blocks := place_lt ho hb
  have hchunk : (Rows.chunksExact 32 weights)[o * blocks + b]? = some (blockOf weights blocks o b) :=
    Rows.getElem?_chunksExact (hcount ▸ hlt)
  have hall : ∀ block ∈ Rows.chunksExact 32 weights, (pack block).length = size := by
    intro block hblock
    exact hpack block (Rows.length_of_mem_chunksExact (by decide) hblock)
  unfold blockByte Tensor.ofList
  simp only [List.headD_cons]
  rw [List.getD_eq_getElem?_getD, Rows.getElem?_flatMap_of_length hall hchunk hr, List.getD_eq_getElem?_getD]

theorem packed_shape {pack : List F → List (BitVec 8)} {weights : List F} {output blocks size : Nat}
    (hlength : weights.length = output * (blocks * 32))
    (hpack : ∀ block : List F, block.length = 32 → (pack block).length = size) :
    (Tensor.ofList ((Rows.chunksExact 32 weights).flatMap pack) 0).shape = [output * blocks * size] := by
  have hall : ∀ block ∈ Rows.chunksExact 32 weights, (pack block).length = size :=
    fun block hblock => hpack block (Rows.length_of_mem_chunksExact (by decide) hblock)
  have hcount : (Rows.chunksExact 32 weights).length = output * blocks := by
    rw [Rows.chunksExact, List.length_map, List.length_range, hlength, ← Nat.mul_assoc,
      Nat.mul_div_cancel _ (by decide)]
  unfold Tensor.ofList
  rw [Rows.length_flatMap_of_length hall, hcount]

theorem clampI32_mem {low high x : Int} (h : low ≤ high) :
    low ≤ F32Host.clampI32 low high x ∧ F32Host.clampI32 low high x ≤ high := by
  unfold F32Host.clampI32
  omega

theorem length_packBlockQ40 (block : List F) : (host.packBlockQ40 block).length = 18 := by
  simp [F32Host.packBlockQ40, F32Host.leBytes]

theorem length_packBlockQ41 (block : List F) : (host.packBlockQ41 block).length = 20 := by
  simp [F32Host.packBlockQ41, F32Host.leBytes]

theorem length_packBlockQ80 {block : List F} (h : block.length = 32) : (host.packBlockQ80 block).length = 34 := by
  simp [F32Host.packBlockQ80, F32Host.leBytes, h]

/-- The quantised value of an element, from its nibble. -/
theorem nibbleQ40 (block : List F) {k : Nat} (hk : k < 32) :
    ((((host.packBlockQ40 block).getD (2 + k % 16) 0).extractLsb' (4 * (k / 16)) 4).setWidth 32 : BitVec 32) - 8 =
      BitVec.ofInt 32 (host.quantQ40 block k) := by
  have hbyte : (host.packBlockQ40 block).getD (2 + k % 16) 0 =
      F32Host.nibbles (host.quantQ40 block (k % 16) + 8).toNat (host.quantQ40 block (k % 16 + 16) + 8).toNat := by
    have hl : k % 16 < 16 := by omega
    rw [List.getD_eq_getElem?_getD, F32Host.packBlockQ40, List.getElem?_append_right (by simp [F32Host.leBytes])]
    simp [F32Host.leBytes, List.getElem?_range hl]
  have hrange : ∀ i, 0 ≤ host.quantQ40 block i + 8 ∧ host.quantQ40 block i + 8 < 16 := by
    intro i
    have hclamp : -8 ≤ host.quantQ40 block i ∧ host.quantQ40 block i ≤ 7 := clampI32_mem (by decide)
    omega
  have hvalue : ∀ n < 16, (BitVec.ofNat 4 n).setWidth 32 - 8 = BitVec.ofInt 32 ((n : Int) - 8) := by decide
  have hlow := hrange (k % 16)
  have hhigh := hrange (k % 16 + 16)
  rw [hbyte, nibbles_lane (by omega) (by omega) (by omega)]
  by_cases hhalf : k / 16 = 0
  · have hi : k % 16 = k := by omega
    rw [if_pos hhalf, hvalue _ (by omega), Int.toNat_of_nonneg hlow.1, hi]
    congr 1
    omega
  · have hi : k % 16 + 16 = k := by omega
    rw [if_neg hhalf, hvalue _ (by omega), Int.toNat_of_nonneg hhigh.1, hi]
    congr 1
    omega

theorem nibbleQ41 (block : List F) {k : Nat} (hk : k < 32) :
    (((host.packBlockQ41 block).getD (4 + k % 16) 0).extractLsb' (4 * (k / 16)) 4).setWidth 32 =
      BitVec.ofNat 32 (host.quantQ41 block k) := by
  have hbyte : (host.packBlockQ41 block).getD (4 + k % 16) 0 =
      F32Host.nibbles (host.quantQ41 block (k % 16)) (host.quantQ41 block (k % 16 + 16)) := by
    have hl : k % 16 < 16 := by omega
    rw [List.getD_eq_getElem?_getD, F32Host.packBlockQ41, List.getElem?_append_right (by simp [F32Host.leBytes])]
    simp [F32Host.leBytes, List.getElem?_range hl]
  have hrange : ∀ i, host.quantQ41 block i ≤ 15 := fun i => host.toUnsigned_clamp _
  have hvalue : ∀ n < 16, (BitVec.ofNat 4 n).setWidth 32 = BitVec.ofNat 32 n := by decide
  have hlow := hrange (k % 16)
  have hhigh := hrange (k % 16 + 16)
  rw [hbyte, nibbles_lane (by omega) (by omega) (by omega)]
  by_cases hhalf : k / 16 = 0
  · have hi : k % 16 = k := by omega
    rw [if_pos hhalf, hvalue _ (by omega), hi]
  · have hi : k % 16 + 16 = k := by omega
    rw [if_neg hhalf, hvalue _ (by omega), hi]

theorem byteQ80 {block : List F} (hblock : block.length = 32) {k : Nat} (hk : k < 32) :
    ((host.packBlockQ80 block).getD (2 + k) 0).signExtend 32 =
      BitVec.ofInt 32 (host.quantQ80 (host.scaleBy 127 block) (block.getD k (host.lit 0))) := by
  have hbyte : (host.packBlockQ80 block).getD (2 + k) 0 =
      BitVec.ofInt 8 (host.quantQ80 (host.scaleBy 127 block) (block.getD k (host.lit 0))) := by
    have hmem : block[k]? = some (block.getD k (host.lit 0)) := by
      rw [List.getD_eq_getElem?_getD, List.getElem?_eq_getElem (by omega)]
      rfl
    rw [List.getD_eq_getElem?_getD, F32Host.packBlockQ80, List.getElem?_append_right (by simp [F32Host.leBytes]),
      F32Host.leBytes, List.length_cons, List.length_singleton, Nat.add_sub_cancel_left, List.getElem?_map, hmem]
    rfl
  have hrange : -127 ≤ host.quantQ80 (host.scaleBy 127 block) (block.getD k (host.lit 0)) ∧
      host.quantQ80 (host.scaleBy 127 block) (block.getD k (host.lit 0)) ≤ 127 := clampI32_mem (by decide)
  rw [hbyte, BitVec.signExtend, BitVec.toInt_ofInt, Int.bmod_eq_of_le (by omega) (by omega)]

/-- The weight that a packed element of a block stands for. -/
def weightQ40 (block : List F) (k : Nat) : F :=
  arith.addf (arith.mulf (arith.sitofp (BitVec.ofInt 32 (host.quantQ40 block k)))
    (arith.extf (host.toF16 (host.scaleBy 7 block)))) arith.zero

@[inherit_doc weightQ40] def weightQ41 (block : List F) (k : Nat) : F :=
  arith.addf (arith.mulf (arith.sitofp (BitVec.ofNat 32 (host.quantQ41 block k)))
    (arith.extf (host.toF16 (host.scaleQ41 block)))) (arith.extf (host.toF16 (host.minimum block)))

@[inherit_doc weightQ40] def weightQ80 (block : List F) (k : Nat) : F :=
  arith.mulf (arith.sitofp (BitVec.ofInt 32 (host.quantQ80 (host.scaleBy 127 block) (block.getD k (host.lit 0)))))
    (arith.extf (host.toF16 (host.scaleBy 127 block)))

theorem dequantBlock_q40 (block : List F) {k : Nat} (hk : k < 32) :
    dequantBlock arith .q40 (fun r => (host.packBlockQ40 block).getD r 0) k = weightQ40 arith host block k := by
  have hscale : wordAt (fun r => (host.packBlockQ40 block).getD r 0) 0 = host.toF16 (host.scaleBy 7 block) :=
    leBytes_append _
  simp only [dequantBlock, nibbleQ40 host block hk, hscale, weightQ40]

theorem dequantBlock_q41 (block : List F) {k : Nat} (hk : k < 32) :
    dequantBlock arith .q41 (fun r => (host.packBlockQ41 block).getD r 0) k = weightQ41 arith host block k := by
  have hscale : wordAt (fun r => (host.packBlockQ41 block).getD r 0) 0 = host.toF16 (host.scaleQ41 block) :=
    leBytes_append _
  have hminimum : wordAt (fun r => (host.packBlockQ41 block).getD r 0) 1 = host.toF16 (host.minimum block) :=
    leBytes_append _
  simp only [dequantBlock, nibbleQ41 host block hk, hscale, hminimum, weightQ41]

theorem dequantBlock_q80 {block : List F} (hblock : block.length = 32) {k : Nat} (hk : k < 32) :
    dequantBlock arith .q80 (fun r => (host.packBlockQ80 block).getD r 0) k = weightQ80 arith host block k := by
  have hscale : wordAt (fun r => (host.packBlockQ80 block).getD r 0) 0 = host.toF16 (host.scaleBy 127 block) :=
    leBytes_append _
  simp only [dequantBlock, byteQ80 host hblock hk, hscale, weightQ80]

end packed

/-! ## Packed words -/

section words

/-- The bits of words that are built lane by lane. -/
theorem getLsbD_packWord {lanes : List Nat} (hlanes : ∀ lane ∈ lanes, lane < 16) (start : Nat) (word : BitVec 32)
    {lane i : Nat} (hi : i < 4) (hlane : 4 * lane + i < 32) :
    ((lanes.zipIdx start).foldl (fun word lane => word ||| BitVec.ofNat 32 lane.1 <<< (lane.2 * 4)) word).getLsbD
        (4 * lane + i) =
      (word.getLsbD (4 * lane + i) || (decide (start ≤ lane) && (lanes.getD (lane - start) 0).testBit i)) := by
  induction lanes generalizing start word with
  | nil => simp
  | cons x lanes ih =>
    have hx : x < 16 := hlanes x List.mem_cons_self
    rw [List.zipIdx_cons, List.foldl_cons, ih (fun lane h => hlanes lane (List.mem_cons_of_mem _ h))]
    rw [BitVec.getLsbD_or, BitVec.getLsbD_shiftLeft, BitVec.getLsbD_ofNat]
    rcases Nat.lt_trichotomy lane start with h | h | h
    · simp [show 4 * lane + i < start * 4 by omega, show ¬ start ≤ lane by omega, show ¬ start + 1 ≤ lane by omega]
    · subst h
      simp [hlane, show ¬ 4 * lane + i < lane * 4 by omega, show ¬ lane + 1 ≤ lane by omega,
        show 4 * lane + i - lane * 4 = i by omega, show i < 32 by omega]
    · have hbit : x.testBit (4 * lane + i - start * 4) = false := by
        refine Nat.testBit_lt_two_pow (lt_of_lt_of_le hx ?_)
        exact Nat.pow_le_pow_right (show 0 < 2 by decide) (show 4 ≤ 4 * lane + i - start * 4 by omega)
      have hrest : (x :: lanes)[lane - start]? = lanes[lane - (start + 1)]? := by
        rw [show lane - start = (lane - (start + 1)) + 1 by omega]
        rfl
      simp [hbit, hrest, show start ≤ lane by omega, show start + 1 ≤ lane by omega]

theorem packWord_lane {lanes : List Nat} (hlanes : ∀ lane ∈ lanes, lane < 16) {lane : Nat} (hlane : lane < 8) :
    (F32Host.packWord lanes).extractLsb' (4 * lane) 4 = BitVec.ofNat 4 (lanes.getD lane 0) := by
  refine BitVec.eq_of_getLsbD_eq fun i hi => ?_
  rw [BitVec.getLsbD_extractLsb', F32Host.packWord, getLsbD_packWord hlanes 0 0 hi (by omega), BitVec.getLsbD_ofNat]
  simp [hi]

variable {F : Type} (arith : F32Arith F) (host : F32Host F)

/-- The group of the values at a row and a place in it. -/
def groupOf (values : List F) (groups group o g : Nat) : List F := (values.drop ((o * groups + g) * group)).take group

theorem getElem?_groupOf {values : List F} {groups group o g k : Nat} (hk : k < group) :
    (groupOf values groups group o g)[k]? = values[o * (groups * group) + (g * group + k)]? := by
  unfold groupOf
  rw [List.getElem?_take_of_lt hk, List.getElem?_drop]
  congr 1
  ring

/-- The groups of all rows, in order. -/
theorem groups_get {values : List F} {rows groups group o g : Nat} (hlength : values.length = rows * (groups * group))
    (hgroup : 0 < group) (ho : o < rows) (hg : g < groups) :
    ((Rows.chunksExact (groups * group) values).flatMap (Rows.chunksExact group))[o * groups + g]? =
      some (groupOf values groups group o g) := by
  have hcolumns : 0 < groups * group := Nat.mul_pos (by omega) hgroup
  have hrow : (Rows.chunksExact (groups * group) values)[o]? =
      some ((values.drop (o * (groups * group))).take (groups * group)) := by
    refine Rows.getElem?_chunksExact ?_
    rwa [hlength, Nat.mul_div_cancel _ hcolumns]
  have hlengths : ∀ row ∈ Rows.chunksExact (groups * group) values, (Rows.chunksExact group row).length = groups := by
    intro row hmem
    rw [Rows.chunksExact, List.length_map, List.length_range, Rows.length_of_mem_chunksExact hcolumns hmem,
      Nat.mul_div_cancel _ hgroup]
  have hrowlength : ((values.drop (o * (groups * group))).take (groups * group)).length = groups * group :=
    Rows.length_of_mem_chunksExact hcolumns (List.mem_of_getElem? hrow)
  have hlt : (g + 1) * group ≤ groups * group := Nat.mul_le_mul_right _ hg
  rw [Nat.succ_mul] at hlt
  rw [Rows.getElem?_flatMap_of_length hlengths hrow hg, Rows.getElem?_chunksExact (by
    rwa [hrowlength, Nat.mul_div_cancel _ hgroup]), List.drop_take, List.take_take, List.drop_drop, groupOf]
  congr 3
  · omega
  · ring

/-- One value for each group. -/
theorem aux_get {values : List F} {rows groups group o g : Nat} (f : List F → F) (default : F)
    (hlength : values.length = rows * (groups * group)) (hgroup : 0 < group) (ho : o < rows) (hg : g < groups) :
    ((Tensor.ofList (((Rows.chunksExact (groups * group) values).flatMap (Rows.chunksExact group)).map f)
      default).reshape [rows, groups]).get [o, g] = f (groupOf values groups group o g) := by
  have hflat : flatten [rows, groups] [o, g] = o * groups + g := by simp [flatten]
  rw [Tensor.ofList_reshape_get, hflat, List.getD_eq_getElem?_getD, List.getElem?_map, groups_get hlength hgroup ho hg]
  rfl

theorem quantU4_lt (group : List F) (value : F) : host.quantU4 group value < 16 :=
  Nat.lt_succ_of_le (host.toUnsigned_clamp _)

/-- The lane of an element. -/
theorem packedLanes_get {values : List F} {rows groups m o g k : Nat}
    (hlength : values.length = rows * (groups * (8 * m))) (ho : o < rows) (hg : g < groups) (hk : k < 8 * m) :
    (MlxAffineDefinition.packedLanes ((Tensor.ofList (((Rows.chunksExact (groups * (8 * m)) values).flatMap
        (Rows.chunksExact (8 * m))).flatMap host.packWords) 0).reshape [rows, groups * m]) rows groups (8 * m)).get
        [o, g, k] =
      BitVec.ofNat 4 (host.quantU4 (groupOf values groups (8 * m) o g)
        ((groupOf values groups (8 * m) o g).getD k (host.lit 0))) := by
  have hgroup : 0 < 8 * m := by omega
  have hcolumns : 0 < groups * (8 * m) := Nat.mul_pos (by omega) hgroup
  have hlengths : ∀ group ∈ (Rows.chunksExact (groups * (8 * m)) values).flatMap (Rows.chunksExact (8 * m)),
      group.length = 8 * m := by
    intro group hmem
    obtain ⟨row, -, hmem⟩ := List.mem_flatMap.mp hmem
    exact Rows.length_of_mem_chunksExact hgroup hmem
  have hwords : ∀ group ∈ (Rows.chunksExact (groups * (8 * m)) values).flatMap (Rows.chunksExact (8 * m)),
      (host.packWords group).length = m := by
    intro group hmem
    rw [F32Host.packWords, List.length_map, Rows.chunksExact, List.length_map, List.length_range, hlengths group hmem,
      Nat.mul_div_cancel_left _ (by decide)]
  have hget := groups_get hlength hgroup ho hg
  have hgrouplength := hlengths _ (List.mem_of_getElem? hget)
  have hw : k / 8 < m := by omega
  have hl : k % 8 < 8 := by omega
  have hk8 : k / 8 * 8 + k % 8 = k := by omega
  refine (Tensor.bitcast_get_lane _ 8 (k % 8) [o, g * m + k / 8] rfl ?_ hl ?_).trans ?_
  · exact .cons ho (.cons (place_lt hg hw) .nil)
  · simp only [flatten, Tensor.reshape, List.prod_cons, List.prod_nil, Nat.mul_one, Nat.add_zero]
    calc o * (groups * (8 * m)) + (g * (8 * m) + k)
        = o * (groups * (8 * m)) + (g * (8 * m) + (k / 8 * 8 + k % 8)) := by rw [hk8]
      _ = (o * (groups * m) + (g * m + k / 8)) * 8 + k % 8 := by ring
  have hflat : flatten [rows, groups * m] [o, g * m + k / 8] = (o * groups + g) * m + k / 8 := by
    simp [flatten]
    ring
  have hword : (host.packWords (groupOf values groups (8 * m) o g))[k / 8]? =
      some (F32Host.packWord ((((groupOf values groups (8 * m) o g).drop (k / 8 * 8)).take 8).map
        (host.quantU4 (groupOf values groups (8 * m) o g)))) := by
    rw [F32Host.packWords, List.getElem?_map, Rows.getElem?_chunksExact (by omega)]
    rfl
  rw [Tensor.ofList_reshape_get, hflat, List.getD_eq_getElem?_getD, Rows.getElem?_flatMap_of_length hwords hget hw, hword,
    Option.getD_some, packWord_lane ?_ hl]
  · congr 1
    rw [List.getD_eq_getElem?_getD, List.getElem?_map, List.getElem?_take_of_lt hl, List.getElem?_drop, hk8,
      List.getD_eq_getElem?_getD, List.getElem?_eq_getElem (by omega)]
    rfl
  · intro lane hlane
    obtain ⟨value, -, rfl⟩ := List.mem_map.mp hlane
    exact quantU4_lt host _ _

end words

/-! ## The helpers -/

section helpers

variable {F : Type} (arith : F32Arith F) (host : F32Host F)

/-- The helpers of a parameter compute with the given weights: that of row `o`, group `b` and place `k` in the group
stands at column `b * group + k`. -/
structure Computes (linear : Nat → Tensor F → Tensor F) (gather : Nat → Tensor F) (w : Tensor F)
    (output groups group : Nat) (weight : Nat → Nat → Nat → F) : Prop where
  weights : ∀ o < output, ∀ b < groups, ∀ k < group, w.get [o, b, k] = weight o b k
  linear : ∀ rows x, x.shape = [rows, groups * group] → ∀ r < rows, ∀ o < output,
    (linear rows x).get [r, o] = weightedSum arith groups group (fun column => x.get [r, column]) (weight o)
  gather : ∀ index < output, ∀ b < groups, ∀ k < group,
    (gather index).get [0, b * group + k] = w.get [index, b, k]

/-- The helpers of a block format over its bytes. -/
def ComputesBlocks (layout : BlockLayout) (data : Tensor (BitVec 8)) (output blocks : Nat)
    (weight : Nat → Nat → Nat → F) : Prop :=
  Computes arith (fun rows x => GgufCodegen.emitLinear arith layout rows (blocks * layout.blockSize) output x data)
    (GgufCodegen.emitGather arith layout (blocks * layout.blockSize) data)
    (GgufCodegen.emitDequant arith layout data output blocks) output blocks layout.blockSize weight

theorem dequantBlock_congr {layout : BlockLayout} {byte byte' : Nat → BitVec 8}
    (h : ∀ r < layout.bytesPerBlock, byte r = byte' r) {k : Nat} (hk : k < layout.blockSize) :
    dequantBlock arith layout byte k = dequantBlock arith layout byte' k := by
  cases layout <;> simp only [BlockLayout.bytesPerBlock, BlockLayout.blockSize] at h hk <;>
    simp only [dequantBlock, wordAt]
  case q40 => rw [h (2 + k % 16) (by omega), h 1 (by omega), h 0 (by omega)]
  case q41 => rw [h (4 + k % 16) (by omega), h 1 (by omega), h 0 (by omega), h 3 (by omega), h 2 (by omega)]
  case q80 => rw [h (2 + k) (by omega), h 1 (by omega), h 0 (by omega)]
  case q6k =>
    rw [h (64 * (k / 128) + 32 * (k % 128 / 32 % 2) + k % 32) (by omega), h (128 + 32 * (k / 128) + k % 32) (by omega),
      h (192 + 8 * (k / 128) + 2 * (k % 128 / 32) + k % 32 / 16) (by omega), h 209 (by omega), h 208 (by omega)]

theorem computesBlocks {layout : BlockLayout} {data : Tensor (BitVec 8)} {output blocks : Nat}
    {weight : Nat → Nat → Nat → F} (hshape : data.shape = [output * blocks * layout.bytesPerBlock])
    (hweight : ∀ o < output, ∀ b < blocks, ∀ k < layout.blockSize,
      dequantBlock arith layout (blockByte data layout.bytesPerBlock blocks o b) k = weight o b k) :
    ComputesBlocks arith layout data output blocks weight := by
  have hblocks : blocks * layout.blockSize / layout.blockSize = blocks := Nat.mul_div_cancel _ (blockSize_pos layout)
  have hget : ∀ o < output, ∀ b < blocks, ∀ k < layout.blockSize,
      (GgufCodegen.emitDequant arith layout data output blocks).get [o, b, k] = weight o b k := by
    intro o ho b hb k hk
    rw [emitDequant_get arith hshape ho hb hk, hweight o ho b hb k hk]
  constructor
  case weights => exact hget
  case linear =>
    intro rows x hx r hr o ho
    unfold GgufCodegen.emitLinear
    simp only [hblocks]
    exact contract_get arith hx hr (hget o ho)
  case gather =>
    intro index hindex b hb k hk
    exact emitGather_get arith hshape hindex hb hk

theorem computesBlocks_packed {layout : BlockLayout} {pack : List F → List (BitVec 8)} {weight : List F → Nat → F}
    {weights : List F} {output blocks : Nat} (hlength : weights.length = output * (blocks * 32))
    (hsize : layout.blockSize = 32)
    (hpack : ∀ block : List F, block.length = 32 → (pack block).length = layout.bytesPerBlock)
    (hweight : ∀ block : List F, block.length = 32 → ∀ k < 32,
      dequantBlock arith layout (fun r => (pack block).getD r 0) k = weight block k) :
    ComputesBlocks arith layout (Tensor.ofList ((Rows.chunksExact 32 weights).flatMap pack) 0) output blocks
      fun o b => weight (blockOf weights blocks o b) := by
  refine computesBlocks arith (packed_shape hlength hpack) fun o ho b hb k hk => ?_
  rw [dequantBlock_congr arith (fun r hr => packed_get hlength hpack ho hb hr) hk]
  exact hweight _ (length_blockOf hlength ho hb) k (hsize ▸ hk)

/-- The helpers of a parameter in MLX groups over its words, scales and biases. -/
def ComputesGroups (words : Tensor (BitVec 32)) (scales biases : Tensor F) (output groups group : Nat)
    (weight : Nat → Nat → Nat → F) : Prop :=
  let q := MlxAffineDefinition.packedLanes words output groups group
  Computes arith
    (fun rows x => MlxAffineDefinition.emitLinearU4 arith rows (groups * group) output group x q scales biases)
    (MlxAffineDefinition.emitGatherU4 arith (groups * group) group q scales biases)
    (MlxAffineDefinition.dequantU4 arith q scales biases output groups group) output groups group weight

/-- The weight that an element of a group stands for. -/
def weightU4 (group : List F) (k : Nat) : F :=
  arith.addf (arith.mulf (arith.uitofp (BitVec.ofNat 32 (host.quantU4 group (group.getD k (host.lit 0)))))
    (host.scaleU4 group)) (host.minimum group)

theorem computesGroups {words : Tensor (BitVec 32)} {scales biases : Tensor F} {output groups group : Nat}
    {weight : Nat → Nat → Nat → F} (hgroup : 0 < group)
    (hweight : ∀ o < output, ∀ g < groups, ∀ k < group,
      arith.addf (arith.mulf (arith.uitofp
          (((MlxAffineDefinition.packedLanes words output groups group).get [o, g, k]).setWidth 32))
        (scales.get [o, g])) (biases.get [o, g]) = weight o g k) :
    ComputesGroups arith words scales biases output groups group weight := by
  have hgroups : groups * group / group = groups := Nat.mul_div_cancel _ hgroup
  constructor
  case weights => exact hweight
  case linear =>
    intro rows x hx r hr o ho
    unfold MlxAffineDefinition.emitLinearU4
    simp only [hgroups]
    exact contract_get arith hx hr (hweight o ho)
  case gather =>
    intro index hindex g hg k hk
    unfold MlxAffineDefinition.emitGatherU4
    simp only [hgroups]
    refine (Tensor.reshape_get _ [0, g, k] ?_ ?_).trans ?_
    · exact .cons Nat.one_pos (.cons hg (.cons hk .nil))
    · simp [flatten, MlxAffineDefinition.dequantU4, Tensor.generic]
    · simp [MlxAffineDefinition.dequantU4, Tensor.generic, Tensor.extractSlice]

theorem computesGroups_quantized {values : List F} {rows columns group : Nat} {packed : List (BitVec 32)}
    {scales biases : List F} (h : host.quantizeAffineU4 values rows columns group = some (packed, scales, biases)) :
    ComputesGroups arith ((Tensor.ofList packed 0).reshape [rows, columns / 8])
      ((Tensor.ofList scales (host.lit 0)).reshape [rows, columns / group])
      ((Tensor.ofList biases (host.lit 0)).reshape [rows, columns / group]) rows (columns / group) group
      fun o g => weightU4 arith host (groupOf values (columns / group) group o g) := by
  unfold F32Host.quantizeAffineU4 at h
  split at h
  case isFalse => cases h
  case isTrue hassert =>
    obtain ⟨hlength, hcolumns, hgroup, height⟩ := hassert
    simp only [Option.some.injEq, Prod.mk.injEq] at h
    obtain ⟨rfl, rfl, rfl⟩ := h
    obtain ⟨groups, rfl⟩ := Nat.dvd_of_mod_eq_zero hgroup
    obtain ⟨m, rfl⟩ := Nat.dvd_of_mod_eq_zero height
    have hpos : 0 < 8 * m := Nat.pos_of_ne_zero fun hzero => hcolumns (by rw [hzero, Nat.zero_mul])
    have hgroups : 8 * m * groups / (8 * m) = groups := Nat.mul_div_cancel_left _ hpos
    have hwords : 8 * m * groups / 8 = groups * m := by
      rw [Nat.mul_assoc, Nat.mul_div_cancel_left _ (by decide), Nat.mul_comm]
    have hvalue : ∀ n < 16, (BitVec.ofNat 4 n).setWidth 32 = BitVec.ofNat 32 n := by decide
    rw [hgroups, hwords]
    rw [Nat.mul_comm (8 * m)] at hlength ⊢
    refine computesGroups arith hpos fun o ho g hg k hk => ?_
    rw [packedLanes_get host hlength ho hg hk, aux_get host.scaleU4 _ hlength hpos ho hg,
      aux_get host.minimum _ hlength hpos ho hg, hvalue _ (quantU4_lt host _ _), weightU4]

/-- **Dequantisation.** The emitted helpers compute with the weights that the packers wrote: of each element the
quantised value in its own lane, with the scale and the minimum of its own block or group; and a block of `Q6_K` is
read by its layout. The block or group of an element is the one at its place in the row-major weights. -/
theorem helpers_compute :
    (∀ weights output blocks, weights.length = output * (blocks * 32) →
      (∃ data, host.packQ40 weights = .ok data ∧ ComputesBlocks arith .q40 (Tensor.ofList data 0) output blocks
        fun o b => weightQ40 arith host (blockOf weights blocks o b)) ∧
      (∃ data, host.packQ41 weights = .ok data ∧ ComputesBlocks arith .q41 (Tensor.ofList data 0) output blocks
        fun o b => weightQ41 arith host (blockOf weights blocks o b)) ∧
      ∃ data, host.packQ80 weights = .ok data ∧ ComputesBlocks arith .q80 (Tensor.ofList data 0) output blocks
        fun o b => weightQ80 arith host (blockOf weights blocks o b)) ∧
    (∀ data output blocks, data.shape = [output * blocks * 210] → ComputesBlocks arith .q6k data output blocks
      fun o b => dequantBlock arith .q6k (blockByte data 210 blocks o b)) ∧
    (∀ values rows columns group packed scales biases,
      host.quantizeAffineU4 values rows columns group = some (packed, scales, biases) →
      ComputesGroups arith ((Tensor.ofList packed 0).reshape [rows, columns / 8])
        ((Tensor.ofList scales (host.lit 0)).reshape [rows, columns / group])
        ((Tensor.ofList biases (host.lit 0)).reshape [rows, columns / group]) rows (columns / group) group
        fun o g => weightU4 arith host (groupOf values (columns / group) group o g)) ∧
    (∀ (weights : List F) blocks o b, ∀ k < 32,
      (blockOf weights blocks o b)[k]? = weights[o * (blocks * 32) + (32 * b + k)]?) ∧
    ∀ (values : List F) groups group o g, ∀ k < group,
      (groupOf values groups group o g)[k]? = values[o * (groups * group) + (g * group + k)]? := by
  refine ⟨fun weights output blocks hlength => ?_, fun data output blocks hshape => ?_, ?_, ?_, ?_⟩
  · have hwhole : ¬ weights.length % 32 ≠ 0 := by
      rw [hlength, ← Nat.mul_assoc, Nat.mul_mod_left]
      simp
    refine ⟨⟨_, if_neg hwhole, ?_⟩, ⟨_, if_neg hwhole, ?_⟩, ⟨_, if_neg hwhole, ?_⟩⟩
    · exact computesBlocks_packed arith hlength rfl (fun block _ => length_packBlockQ40 host block)
        fun block _ k hk => dequantBlock_q40 arith host block hk
    · exact computesBlocks_packed arith hlength rfl (fun block _ => length_packBlockQ41 host block)
        fun block _ k hk => dequantBlock_q41 arith host block hk
    · exact computesBlocks_packed arith hlength rfl (fun block h => length_packBlockQ80 host h)
        fun block h k hk => dequantBlock_q80 arith host h hk
  · exact computesBlocks arith hshape fun _ _ _ _ _ _ => rfl
  · intro values rows columns group packed scales biases h
    exact computesGroups_quantized arith host h
  · intro weights blocks o b k hk
    exact getElem?_blockOf hk
  · intro values groups group o g k hk
    exact getElem?_groupOf hk

/-- Integers of a few bits, which `f32` has exactly. -/
def smallArith : F32Arith Int where
  sitofp x := x.toInt
  uitofp x := x.toNat
  extf x := if x = 0x3c00 then 1 else 0
  mulf := (· * ·)
  addf := (· + ·)
  zero := 0

@[inherit_doc smallArith] def smallHost : F32Host Int where
  lit n := n
  infinity := 2 ^ 128
  negInfinity := -2 ^ 128
  tiny := 0
  abs x := x.natAbs
  round x := x
  max := Max.max
  min := Min.min
  sub := (· - ·)
  mul := (· * ·)
  div := (· / ·)
  lt x y := x < y
  clamp x low high := Max.max low (Min.min high x)
  toI32 x := x
  toUnsigned := Int.toNat
  toF16 x := if x = 1 then 0x3c00 else 0
  toUnsigned_clamp x := by omega

/-- A block of scale one. -/
def smallBlock : List Int := (List.range 32).map fun (k : Nat) => (k : Int) % 15 - 7

/-- A group of scale one. -/
def smallGroup : List Int := (List.range 16).map fun (k : Nat) => (k : Int)

theorem helpers_compute_small :
    (∃ data, smallHost.packQ40 smallBlock = .ok data ∧ ∀ k < 32,
      (GgufCodegen.emitGather smallArith .q40 32 (Tensor.ofList data 0) 0).get [0, 0 * 32 + k] = smallBlock.getD k 0) ∧
    ComputesBlocks smallArith .q6k (Tensor.ofList (List.replicate 210 0) 0) 1 1
      (fun o b => dequantBlock smallArith .q6k (blockByte (Tensor.ofList (List.replicate 210 0) 0) 210 1 o b)) ∧
    ∃ packed scales biases, smallHost.quantizeAffineU4 smallGroup 1 16 16 = some (packed, scales, biases) ∧
      ComputesGroups smallArith ((Tensor.ofList packed 0).reshape [1, 2]) ((Tensor.ofList scales 0).reshape [1, 1])
        ((Tensor.ofList biases 0).reshape [1, 1]) 1 1 16
        fun o g => weightU4 smallArith smallHost (groupOf smallGroup 1 16 o g) := by
  obtain ⟨hblocks, hq6k, hgroups, -, -⟩ := helpers_compute smallArith smallHost
  refine ⟨?_, hq6k _ 1 1 rfl, ?_⟩
  · obtain ⟨data, hpack, hcomputes⟩ := (hblocks smallBlock 1 1 rfl).1
    have hweight : ∀ k < 32, weightQ40 smallArith smallHost (blockOf smallBlock 1 0 0) k = smallBlock.getD k 0 := by
      decide +kernel
    refine ⟨data, hpack, fun k hk => ?_⟩
    exact (hcomputes.gather 0 (by decide) 0 (by decide) k hk).trans
      ((hcomputes.weights 0 (by decide) 0 (by decide) k hk).trans (hweight k hk))
  · exact ⟨_, _, _, rfl, hgroups smallGroup 1 16 16 _ _ _ rfl⟩

end helpers

end Dyninfer
