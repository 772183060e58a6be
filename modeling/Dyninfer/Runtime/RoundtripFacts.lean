/-
The round trips of the host's forward pass against the packers and the emitted
helpers, in exact arithmetic: quantising on the host restores, element for
element, what a helper makes of the packed bytes.
-/
import Dyninfer.Quantization.ExactPacking
import Dyninfer.Runtime.Reference

namespace Dyninfer

open Linalg Quantizer

namespace Reference

section roundtrip

variable (infinity : ℝ) (toF16 : ℝ → BitVec 16) (extf : BitVec 16 → ℝ)

/-- The elements of a round trip are the weights of a helper. -/
def Restores (restored : List ℝ) (w : Tensor ℝ) (output groups group : ℕ) : Prop :=
  ∀ o < output, ∀ b < groups, ∀ k < group,
    restored[o * (groups * group) + (b * group + k)]? = some (w.get [o, b, k])

/-- A round trip block by block restores the weights of a helper where it does so in each block. -/
theorem restores_of_computes {linear : ℕ → Tensor ℝ → Tensor ℝ} {gather : ℕ → Tensor ℝ} {w : Tensor ℝ} {weights : List ℝ}
    {output groups group : ℕ} {weight : List ℝ → ℕ → ℝ} {blocks : List (List ℝ)} {restore : List ℝ → ℝ → ℝ}
    (hlength : weights.length = output * (groups * group))
    (hcomputes : Computes (exactArith extf) linear gather w output groups group
      fun o b => weight (groupOf weights groups group o b))
    (hblocks : ∀ block ∈ blocks, block.length = group)
    (hblock : ∀ o < output, ∀ b < groups, blocks[o * groups + b]? = some (groupOf weights groups group o b))
    (hrestore : ∀ (block : List ℝ) k x, block[k]? = some x → weight block k = restore block x) :
    Restores (blocks.flatMap fun block => block.map (restore block)) w output groups group := by
  intro o ho b hb k hk
  have hplace : o * (groups * group) + (b * group + k) < weights.length := by
    rw [hlength]
    exact place_lt ho (place_lt hb hk)
  have hx : (groupOf weights groups group o b)[k]? = some weights[o * (groups * group) + (b * group + k)] :=
    (getElem?_groupOf hk).trans (List.getElem?_eq_getElem hplace)
  have hindex : o * (groups * group) + (b * group + k) = (o * groups + b) * group + k := by ring
  have hlengths : ∀ block ∈ blocks, (block.map (restore block)).length = group := by
    intro block hmem
    rw [List.length_map, hblocks block hmem]
  rw [hindex, Rows.getElem?_flatMap_of_length hlengths (hblock o ho b hb) hk, List.getElem?_map, hx, Option.map_some,
    hcomputes.weights o ho b hb k hk, hrestore _ k _ hx]

/-- A negative literal. -/
theorem sub_lit (low : ℕ) :
    (exactHost infinity toF16).sub ((exactHost infinity toF16).lit 0) ((exactHost infinity toF16).lit low) = -(low : ℝ) := by
  show ((0 : ℕ) : ℝ) - low = -low
  rw [Nat.cast_zero, zero_sub]

theorem clamp_symmetric {q : ℤ} {low steps : ℕ} (hlow : -(low : ℤ) ≤ q) (hhigh : q ≤ steps) :
    (exactHost infinity toF16).clamp q (-(low : ℝ)) ((exactHost infinity toF16).lit steps) = q := by
  have hlow' : -(low : ℝ) ≤ q := by exact_mod_cast hlow
  have hhigh' : (q : ℝ) ≤ steps := by exact_mod_cast hhigh
  show max (-(low : ℝ)) (min (steps : ℝ) q) = q
  rw [min_eq_right hhigh', max_eq_right hlow']

theorem restore_q40 {block : List ℝ} {k : ℕ} {x : ℝ} (hx : block[k]? = some x) :
    weightQ40 (exactArith extf) (exactHost infinity toF16) block k =
      (exactArith extf).mulf ((exactHost infinity toF16).clamp ((exactHost infinity toF16).round
          ((exactHost infinity toF16).mul x ((exactHost infinity toF16).inverse ((exactHost infinity toF16).scaleBy 7 block))))
          ((exactHost infinity toF16).sub ((exactHost infinity toF16).lit 0) ((exactHost infinity toF16).lit 8))
          ((exactHost infinity toF16).lit 7))
        ((exactArith extf).extf ((exactHost infinity toF16).toF16 ((exactHost infinity toF16).scaleBy 7 block))) := by
  obtain ⟨q, hround, hweight, hge, hle, -⟩ := weightQ40_quant infinity toF16 extf hx
  rw [hround, sub_lit, clamp_symmetric infinity toF16 (by omega) hle, hweight]
  rfl

theorem restore_q80 {block : List ℝ} {k : ℕ} {x : ℝ} (hx : block[k]? = some x) :
    weightQ80 (exactArith extf) (exactHost infinity toF16) block k =
      (exactArith extf).mulf ((exactHost infinity toF16).clamp ((exactHost infinity toF16).round
          ((exactHost infinity toF16).mul x ((exactHost infinity toF16).inverse ((exactHost infinity toF16).scaleBy 127 block))))
          ((exactHost infinity toF16).sub ((exactHost infinity toF16).lit 0) ((exactHost infinity toF16).lit 127))
          ((exactHost infinity toF16).lit 127))
        ((exactArith extf).extf ((exactHost infinity toF16).toF16 ((exactHost infinity toF16).scaleBy 127 block))) := by
  obtain ⟨q, hround, hweight, hge, hle, -⟩ := weightQ80_quant infinity toF16 extf hx
  rw [hround, sub_lit, clamp_symmetric infinity toF16 hge hle, hweight]
  rfl

theorem restore_q41 {block : List ℝ} {k : ℕ} {x : ℝ} (hx : block[k]? = some x) :
    weightQ41 (exactArith extf) (exactHost infinity toF16) block k =
      (exactArith extf).addf ((exactArith extf).mulf ((exactHost infinity toF16).clamp ((exactHost infinity toF16).round
          ((exactHost infinity toF16).mul ((exactHost infinity toF16).sub x ((exactHost infinity toF16).minimum block))
            ((exactHost infinity toF16).inverse ((exactHost infinity toF16).scaleQ41 block))))
          ((exactHost infinity toF16).lit 0) ((exactHost infinity toF16).lit 15))
        ((exactArith extf).extf ((exactHost infinity toF16).toF16 ((exactHost infinity toF16).scaleQ41 block))))
        ((exactArith extf).extf ((exactHost infinity toF16).toF16 ((exactHost infinity toF16).minimum block))) := by
  obtain ⟨q, hround, hweight, hle, -⟩ := weightQ41_quant infinity toF16 extf hx
  rw [hround, clamp_eq infinity toF16 q.zero_le hle, hweight]
  rfl

theorem restore_u4 {group : List ℝ} {k : ℕ} {x : ℝ} (hx : group[k]? = some x) :
    weightU4 (exactArith extf) (exactHost infinity toF16) group k =
      (exactArith extf).addf ((exactArith extf).mulf ((exactHost infinity toF16).clamp ((exactHost infinity toF16).round
          ((exactHost infinity toF16).div ((exactHost infinity toF16).sub x ((exactHost infinity toF16).minimum group))
            ((exactHost infinity toF16).scaleU4 group)))
          ((exactHost infinity toF16).lit 0) ((exactHost infinity toF16).lit 15))
        ((exactHost infinity toF16).scaleU4 group)) ((exactHost infinity toF16).minimum group) := by
  obtain ⟨q, hround, hweight, hle, -⟩ := weightU4_quant infinity toF16 extf hx
  rw [hround, clamp_eq infinity toF16 q.zero_le hle, hweight]
  rfl

/-- A round trip in a block format. -/
theorem restores_packed {layout : BlockLayout} {pack : List ℝ → List (BitVec 8)} {weight : List ℝ → ℕ → ℝ}
    {restore : List ℝ → ℝ → ℝ} {weights : List ℝ} {output blocks : ℕ} (hlength : weights.length = output * (blocks * 32))
    (hsize : layout.blockSize = 32)
    (hpack : ∀ block : List ℝ, block.length = 32 → (pack block).length = layout.bytesPerBlock)
    (hweight : ∀ block : List ℝ, block.length = 32 → ∀ k < 32,
      dequantBlock (exactArith extf) layout (fun r => (pack block).getD r 0) k = weight block k)
    (hrestore : ∀ (block : List ℝ) k x, block[k]? = some x → weight block k = restore block x) :
    Restores ((Rows.chunksExact 32 weights).flatMap fun block => block.map (restore block))
      (GgufCodegen.emitDequant (exactArith extf) layout (Tensor.ofList ((Rows.chunksExact 32 weights).flatMap pack) 0)
        output blocks) output blocks 32 := by
  have hcomputes := computesBlocks_packed (exactArith extf) hlength hsize hpack hweight
  unfold ComputesBlocks at hcomputes
  rw [hsize] at hcomputes
  have hcount : weights.length / 32 = output * blocks := by
    rw [hlength, ← Nat.mul_assoc, Nat.mul_div_cancel _ (by decide)]
  refine restores_of_computes extf hlength hcomputes (fun block => Rows.length_of_mem_chunksExact (by decide)) ?_ hrestore
  intro o ho b hb
  exact Rows.getElem?_chunksExact (hcount ▸ place_lt ho hb)

/-- **A round trip on the host restores what the helpers compute with**, in exact arithmetic, for all values and
whatever half precision makes of the scales: element for element, `gguf_q4_0_roundtrip` and its siblings give the
weights that `emit_dequant` reads from the bytes of the packers, and `affine_u4_roundtrip` those of an MLX group. -/
theorem roundtrip_restores :
    (∀ weights output blocks, weights.length = output * (blocks * 32) →
      (∃ data restored, (exactHost infinity toF16).packQ40 weights = .ok data ∧
        ggufQ40Roundtrip (exactHost infinity toF16) (exactArith extf) weights = some restored ∧
        Restores restored (GgufCodegen.emitDequant (exactArith extf) .q40 (Tensor.ofList data 0) output blocks)
          output blocks 32) ∧
      (∃ data restored, (exactHost infinity toF16).packQ41 weights = .ok data ∧
        ggufQ41Roundtrip (exactHost infinity toF16) (exactArith extf) weights = some restored ∧
        Restores restored (GgufCodegen.emitDequant (exactArith extf) .q41 (Tensor.ofList data 0) output blocks)
          output blocks 32) ∧
      ∃ data restored, (exactHost infinity toF16).packQ80 weights = .ok data ∧
        ggufQ80Roundtrip (exactHost infinity toF16) (exactArith extf) weights = some restored ∧
        Restores restored (GgufCodegen.emitDequant (exactArith extf) .q80 (Tensor.ofList data 0) output blocks)
          output blocks 32) ∧
    ∀ values rows columns group packed scales biases,
      (exactHost infinity toF16).quantizeAffineU4 values rows columns group = some (packed, scales, biases) →
      ∃ restored, affineU4Roundtrip (exactHost infinity toF16) (exactArith extf) group values columns = some restored ∧
        Restores restored
          (MlxAffineDefinition.dequantU4 (exactArith extf)
            (MlxAffineDefinition.packedLanes ((Tensor.ofList packed 0).reshape [rows, columns / 8]) rows (columns / group) group)
            ((Tensor.ofList scales ((exactHost infinity toF16).lit 0)).reshape [rows, columns / group])
            ((Tensor.ofList biases ((exactHost infinity toF16).lit 0)).reshape [rows, columns / group])
            rows (columns / group) group) rows (columns / group) group := by
  refine ⟨fun weights output blocks hlength => ?_, fun values rows columns group packed scales biases h => ?_⟩
  · have hwhole : weights.length % 32 = 0 := by rw [hlength, ← Nat.mul_assoc, Nat.mul_mod_left]
    refine ⟨⟨_, _, if_neg (not_not_intro hwhole), if_pos hwhole, ?_⟩, ⟨_, _, if_neg (not_not_intro hwhole), if_pos hwhole, ?_⟩,
      ⟨_, _, if_neg (not_not_intro hwhole), if_pos hwhole, ?_⟩⟩
    · exact restores_packed extf hlength rfl (fun block _ => length_packBlockQ40 (exactHost infinity toF16) block)
        (fun block _ k hk => dequantBlock_q40 (exactArith extf) (exactHost infinity toF16) block hk)
        fun block k x hx => restore_q40 infinity toF16 extf hx
    · exact restores_packed extf hlength rfl (fun block _ => length_packBlockQ41 (exactHost infinity toF16) block)
        (fun block _ k hk => dequantBlock_q41 (exactArith extf) (exactHost infinity toF16) block hk)
        fun block k x hx => restore_q41 infinity toF16 extf hx
    · exact restores_packed extf hlength rfl (fun block h => length_packBlockQ80 (exactHost infinity toF16) h)
        (fun block h k hk => dequantBlock_q80 (exactArith extf) (exactHost infinity toF16) h hk)
        fun block k x hx => restore_q80 infinity toF16 extf hx
  · have hcomputes := computesGroups_quantized (exactArith extf) (exactHost infinity toF16) h
    unfold F32Host.quantizeAffineU4 at h
    split at h
    case isFalse => cases h
    case isTrue hassert =>
      obtain ⟨hlength, hcolumns, hgroup, -⟩ := hassert
      have hsplit : columns / group * group = columns := Nat.div_mul_cancel (Nat.dvd_of_mod_eq_zero hgroup)
      have hpos : 0 < group := Nat.pos_of_ne_zero fun hzero => hcolumns (by rw [← hsplit, hzero, Nat.mul_zero])
      refine ⟨_, if_pos ⟨hcolumns, hgroup⟩, ?_⟩
      have hlength' : values.length = rows * (columns / group * group) := by rw [hsplit, hlength]
      refine restores_of_computes extf hlength' hcomputes (fun block hmem => ?_) (fun o ho b hb => ?_)
        fun block k x hx => restore_u4 infinity toF16 extf hx
      · obtain ⟨row, -, hrow⟩ := List.mem_flatMap.mp hmem
        exact Rows.length_of_mem_chunksExact hpos hrow
      · have hget := groups_get hlength' hpos ho hb
        rwa [hsplit] at hget

theorem roundtrip_restores_two_rows :
    (∃ data restored, (exactHost 128 toWhole).packQ40 twoRows = .ok data ∧
      ggufQ40Roundtrip (exactHost 128 toWhole) (exactArith ofWhole) twoRows = some restored ∧
      Restores restored (GgufCodegen.emitDequant (exactArith ofWhole) .q40 (Tensor.ofList data 0) 2 2) 2 2 32) ∧
    (∃ data restored, (exactHost 128 toWhole).packQ41 twoRows = .ok data ∧
      ggufQ41Roundtrip (exactHost 128 toWhole) (exactArith ofWhole) twoRows = some restored ∧
      Restores restored (GgufCodegen.emitDequant (exactArith ofWhole) .q41 (Tensor.ofList data 0) 2 2) 2 2 32) ∧
    (∃ data restored, (exactHost 128 toWhole).packQ80 twoRows = .ok data ∧
      ggufQ80Roundtrip (exactHost 128 toWhole) (exactArith ofWhole) twoRows = some restored ∧
      Restores restored (GgufCodegen.emitDequant (exactArith ofWhole) .q80 (Tensor.ofList data 0) 2 2) 2 2 32) ∧
    ∃ packed scales biases restored,
      (exactHost 128 toWhole).quantizeAffineU4 twoRows 2 64 32 = some (packed, scales, biases) ∧
      affineU4Roundtrip (exactHost 128 toWhole) (exactArith ofWhole) 32 twoRows 64 = some restored ∧
      Restores restored
        (MlxAffineDefinition.dequantU4 (exactArith ofWhole)
          (MlxAffineDefinition.packedLanes ((Tensor.ofList packed 0).reshape [2, 8]) 2 2 32)
          ((Tensor.ofList scales ((exactHost 128 toWhole).lit 0)).reshape [2, 2])
          ((Tensor.ofList biases ((exactHost 128 toWhole).lit 0)).reshape [2, 2]) 2 2 32) 2 2 32 := by
  obtain ⟨hblocks, hgroups⟩ := roundtrip_restores 128 toWhole ofWhole
  obtain ⟨hq40, hq41, hq80⟩ := hblocks twoRows 2 2 length_twoRows
  obtain ⟨packed, scales, biases, hquantized⟩ := twoRows_quantized
  obtain ⟨restored, hrestored, hrestores⟩ := hgroups twoRows 2 64 32 packed scales biases hquantized
  exact ⟨hq40, hq41, hq80, packed, scales, biases, restored, hquantized, hrestored, hrestores⟩

end roundtrip

end Reference

end Dyninfer
