/-
The GGUF convention (`dyninfer-checkpoint-gguf/src/convention.rs`): each tensor
of an index is one parameter of its own name, whose encoding is that of its
type. A block type is described by its components and by the layout of a block,
field after field.
-/
import Dyninfer.Checkpoint.GgufTypes
import Dyninfer.Lib.AssocMap

namespace Dyninfer

namespace GgufType

def isDenseV1 : GgufType → Bool
  | f32 | f16 | bf16 => true
  | _ => false

end GgufType

namespace GgufMixedConvention

/-- `entry_gguf_type`: the code is taken `as u32`. -/
def entryGgufType (entry : RawTensorEntry) : Except DynInferError GgufType :=
  match (entry.metadata.get "gguf.type_code").bind Json.asU64 with
  | none => .error (.unsupportedEncoding {
      message := "missing gguf.type_code on tensor entry", key := some entry.key
      expected := some "known GGUF ggml_type" })
  | some code => GgufType.fromU32 (asU32 code)

/-! ## Block layouts -/

def layoutComponents : GgufType → List String
  | .q4_0 => ["scale_f16", "quants_u4"]
  | .q4_1 => ["scale_f16", "minimum_f16", "quants_u4"]
  | .q5_0 => ["scale_f16", "high_bits", "quants_u4"]
  | .q5_1 => ["scale_f16", "minimum_f16", "high_bits", "quants_u4"]
  | .q8_0 => ["scale_f16", "quants_i8"]
  | .q8_1 => ["scale_f16", "sum_f16", "quants_i8"]
  | .q2_k => ["scales_and_mins_u4", "quants_u2", "scale_min_f16"]
  | .q3_k => ["high_bits", "quants_u2", "scales_u6", "scale_f16"]
  | .q4_k => ["scale_min_f16", "scales_and_mins_u6", "quants_u4"]
  | .q5_k => ["scale_min_f16", "scales_and_mins_u6", "high_bits", "quants_u4"]
  | .q6_k => ["quants_low_u4", "quants_high_u2", "scales_i8", "scale_f16"]
  | .q8_k => ["scale_f32", "quants_i8", "block_sums_i16"]
  | .iq2_xxs => ["scale_f16", "grid_indices_and_signs_u16"]
  | .iq2_xs => ["scale_f16", "grid_indices_and_signs_u16", "scales_u8"]
  | .iq3_xxs => ["scale_f16", "grid_indices_and_signs_u8"]
  | .iq1_s => ["scale_f16", "grid_indices_u8", "high_bits_and_delta_u16"]
  | .iq4_nl => ["scale_f16", "nonlinear_quants_u4"]
  | .iq3_s => ["scale_f16", "grid_indices_low_u8", "grid_indices_high_u8", "signs_u8", "scales_u8"]
  | .iq2_s => ["scale_f16", "grid_indices_low_u8", "grid_indices_high_u8", "scales_u8"]
  | .iq4_xs => ["scale_f16", "scales_high_u16", "scales_low_u8", "nonlinear_quants_u4"]
  | .iq1_m => ["grid_indices_u8", "high_bits_and_delta_u8", "scales_u8"]
  | .tq1_0 => ["scale_f16", "block_scales_u8", "ternary_quants_base3"]
  | .tq2_0 => ["scale_f16", "ternary_quants_u2"]
  | .mxfp4 => ["e8m0_scale_u8", "mxfp4_quants_u4"]
  | _ => []

def layoutByteLengths : GgufType → List Nat
  | .q4_0 => [2, 16]
  | .q4_1 => [2, 2, 16]
  | .q5_0 => [2, 4, 16]
  | .q5_1 => [2, 2, 4, 16]
  | .q8_0 => [2, 32]
  | .q8_1 => [2, 2, 32]
  | .q2_k => [16, 64, 4]
  | .q3_k => [32, 64, 12, 2]
  | .q4_k => [4, 12, 128]
  | .q5_k => [4, 12, 32, 128]
  | .q6_k => [128, 64, 16, 2]
  | .q8_k => [4, 256, 32]
  | .iq2_xxs => [2, 64]
  | .iq2_xs => [2, 64, 8]
  | .iq3_xxs => [2, 96]
  | .iq1_s => [2, 32, 16]
  | .iq4_nl => [2, 16]
  | .iq3_s => [2, 64, 8, 32, 4]
  | .iq2_s => [2, 64, 8, 8]
  | .iq4_xs => [2, 2, 4, 128]
  | .iq1_m => [32, 16, 8]
  | .tq1_0 => [2, 4, 48]
  | .tq2_0 => [2, 64]
  | .mxfp4 => [1, 16]
  | _ => []

def layoutStorageType (name : String) : StorageElementType :=
  if Text.endsWith name "f16" then .scalar .f16
  else if Text.endsWith name "f32" then .scalar .f32
  else if Text.endsWith name "i8" then .scalar .i8
  else if Text.endsWith name "i16" then .scalar .i16
  else if Text.endsWith name "u8" then .scalar .u8
  else if Text.endsWith name "u16" then .scalar .u16
  else .opaqueCodec s!"packed.{name}"

/-- The fields from an offset on, and where they end. -/
def layoutFields (offset : Nat) : List (String × Nat) → List BlockLayoutField × Nat
  | [] => ([], offset)
  | (name, byteLength) :: rest =>
    let (fields, total) := layoutFields (offset + byteLength) rest
    ({ name, byteOffset := offset, byteLength, storageType := layoutStorageType name } :: fields, total)

def blockLayout (type : GgufType) : Except DynInferError (List BlockLayoutField) :=
  let names := layoutComponents type
  let lengths := layoutByteLengths type
  if names.length ≠ lengths.length then
    .error (.internal s!"GGUF {type.name} layout name/length count mismatch")
  else
    let (layout, offset) := layoutFields 0 (names.zip lengths)
    if some offset ≠ type.typeSize then
      let expected := match type.typeSize with
        | some size => s!"Some({size})"
        | none => "None"
      .error (.internal s!"GGUF {type.name} layout totals {offset} bytes, expected {expected}")
    else .ok layout

/-! ## Decoding -/

/-- The scalar of a type that is stored plain. -/
def plainScalar : GgufType → Option ScalarType
  | .f32 => some .f32
  | .f16 => some .f16
  | .bf16 => some .bf16
  | .f64 => some .f64
  | .i8 => some .i8
  | .i16 => some .i16
  | .i32 => some .i32
  | .i64 => some .i64
  | _ => none

def encodingError (type : GgufType) (message expected : String) (actual : Option String) : DynInferError :=
  .unsupportedEncoding {
    message, codec := some s!"gguf.{type.name}", codecVersion := some 1, expected := some expected, actual }

def physicalEncoding (type : GgufType) : Except DynInferError (PhysicalEncoding × ScalarType) :=
  match plainScalar type with
  | some scalar => .ok (.plain scalar, scalar)
  | none =>
    match type.blockSize with
    | none => .error (encodingError type s!"GGUF type {type.name} has no block layout"
        "registered scalar or block layout" (some type.name))
    | some block =>
      match type.typeSize with
      | none => .error (encodingError type s!"GGUF type {type.name} has no byte size" "registered block byte size" none)
      | some bytesPerBlock => do
        let layout ← blockLayout type
        return (.blockQuantized {
          logicalType := .f16
          blockShape := [asU32 block]
          bytesPerBlock := asU32 bytesPerBlock
          codec := s!"gguf.{type.name}"
          codecVersion := 1
          components := layoutComponents type
          layout
          order := .rowMajor
          endianness := .little }, .f16)

def decodeEntry (entry : RawTensorEntry) : Except DynInferError LogicalParameter := do
  let type ← entryGgufType entry
  let (encoding, logicalType) ← physicalEncoding type
  return {
    canonicalName := entry.key
    role := inferRole entry.key
    logicalType := { shape := entry.shape, elementType := logicalType }
    encoding
    components := [{
      name := "data"
      key := entry.key
      sourceFileIndex := entry.sourceFileIndex
      shape := entry.shape
      storageType := entry.storageType
      byteRanges := entry.byteRanges
      alignment := entry.alignment
      endianness := .little }]
    aliases := [entry.key] }

/-- The names that `normalized_metadata` gives the keys of an architecture. -/
def normalizedKeys : List (String × String) :=
  [("block_count", "num_layers"), ("embedding_length", "hidden_size"), ("feed_forward_length", "intermediate_size"),
    ("attention.head_count", "num_heads"), ("attention.head_count_kv", "num_kv_heads"),
    ("attention.key_length", "head_dim"), ("context_length", "context_length"),
    ("attention.layer_norm_rms_epsilon", "rms_norm_eps"), ("rope.freq_base", "rope_theta")]

/-- The metadata with an architecture's keys under their common names. -/
def architectureMetadata (metadata : MetadataMap) (architecture : String) : MetadataMap :=
  let named := normalizedKeys.foldl (fun normalized (suffix, destination) =>
    match metadata.get s!"{architecture}.{suffix}" with
    | some v => normalized.insert destination v
    | none => normalized) (metadata.insert "model_type" (.string architecture))
  if (named.get "head_dim").isSome then named
  else
    match metadata.get s!"{architecture}.rope.dimension_count" with
    | some v => named.insert "head_dim" v
    | none => named

def normalizedMetadata (metadata : MetadataMap) : MetadataMap :=
  let normalized := match (metadata.get "general.architecture").bind Json.asStr with
    | some architecture => architectureMetadata metadata architecture
    | none => metadata
  match (metadata.get "tokenizer.ggml.tokens").bind Json.asArray with
  | some tokens => normalized.insert "vocab_size" (.ofNat tokens.length)
  | none => normalized

/-- `GgufMixedConvention::decode`. -/
def decode (index : RawCheckpointIndex) : Except DynInferError ParameterCatalog := do
  let parameters ← index.entries.mapM decodeEntry
  return { parameters, metadata := normalizedMetadata index.metadata }

end GgufMixedConvention

end Dyninfer
