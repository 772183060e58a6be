/-
The MLX SafeTensors convention (`mlx.rs`), which groups a packed weight with
the scales and biases of the same name into one parameter, takes every other
tensor as plain storage, and passes over rotary caches. The `config.json` next
to the checkpoint is a parameter.
-/
import Dyninfer.Checkpoint.Container
import Dyninfer.Lib.Fallible

namespace Dyninfer

/-- `Display` of a storage type. -/
def StorageElementType.text : StorageElementType → String
  | .scalar ty => ty.text
  | .packedBits bits signed => (if signed then "s" else "u") ++ s!"i{bits}"
  | .opaqueCodec codec => s!"opaque({codec})"

namespace MlxConvention

def unsupported (key : Option String) (message : String) (expected : Option String := none)
    (actual : Option String := none) : DynInferError :=
  .unsupportedEncoding { message, key, codec := some "mlx.affine", codecVersion := some 1, expected, actual }

def requiredU32 (metadata : MetadataMap) (key : String) : Except DynInferError Nat :=
  match ((metadata.get key).bind Json.asU64).filter fun n => decide (n < 2 ^ 32) with
  | some n => .ok n
  | none => .error (unsupported none s!"missing required MLX metadata `{key}`"
      (some "explicit config.json quantization metadata"))

def component (name : String) (entry : RawTensorEntry) : StorageComponent where
  name
  key := entry.key
  sourceFileIndex := entry.sourceFileIndex
  shape := entry.shape
  storageType := entry.storageType
  byteRanges := entry.byteRanges
  alignment := entry.alignment
  endianness := entry.endianness

def scalarType (entry : RawTensorEntry) : Except DynInferError ScalarType :=
  match entry.storageType with
  | .scalar ty => .ok ty
  | other => .error (unsupported (some entry.key) "MLX SafeTensors component must use scalar storage" none
      (some other.text))

def isFloat (ty : ScalarType) : Bool := [ScalarType.bf16, .f16, .f32].contains ty

def decodePlain (entry : RawTensorEntry) : Except DynInferError LogicalParameter := do
  let ty ← scalarType entry
  if !isFloat ty then
    throw (unsupported (some entry.key) "unpaired MLX tensor is not a supported dense float" (some "bf16|f16|f32")
      (some ty.text))
  return {
    canonicalName := entry.key
    role := inferRole entry.key
    logicalType := { shape := entry.shape, elementType := ty }
    encoding := .plain ty
    components := [component "data" entry]
    aliases := [entry.key] }

def debugShape (shape : Shape) : String := Text.bracketed (shape.map toString)

def decodeAffineWeight (weight scales biases : RawTensorEntry) (bits groupSize : Nat) :
    Except DynInferError LogicalParameter := do
  if weight.shape.isEmpty then throw (unsupported (some weight.key) "MLX packed weight must have rank >= 1")
  if weight.storageType ≠ .scalar .u32 then
    throw (unsupported (some weight.key) "MLX packed weight storage must be u32" (some "u32")
      (some weight.storageType.text))
  let scaleType ← scalarType scales
  let biasType ← scalarType biases
  if scaleType ≠ biasType ∨ !isFloat scaleType then
    throw (unsupported (some weight.key) "MLX scales and biases must use the same floating-point type"
      (some "matching f16|bf16|f32") (some s!"scales={scaleType.text}, biases={biasType.text}"))
  let packedLast := weight.shape.getLastD 0
  if packedLast * 32 ≥ 2 ^ 64 then throw (.internal "MLX logical shape overflow")
  if packedLast * 32 % bits ≠ 0 then
    throw (unsupported (some weight.key) "MLX packed axis cannot be expanded exactly"
      (some s!"packed_last * 32 divisible by {bits}") (some (toString packedLast)))
  let logicalLast := packedLast * 32 / bits
  if logicalLast % groupSize ≠ 0 then
    throw (unsupported (some weight.key) "MLX logical quantization axis is not group divisible"
      (some s!"multiple of {groupSize}") (some (toString logicalLast)))
  let expectedGroupShape := weight.shape.dropLast ++ [logicalLast / groupSize]
  if scales.shape ≠ expectedGroupShape ∨ biases.shape ≠ expectedGroupShape then
    throw (unsupported (some weight.key) "MLX scales/biases shape does not match logical groups"
      (some (debugShape expectedGroupShape))
      (some s!"scales={debugShape scales.shape}, biases={debugShape biases.shape}"))
  return {
    canonicalName := weight.key
    role := inferRole weight.key
    logicalType := { shape := weight.shape.dropLast ++ [logicalLast], elementType := scaleType }
    encoding := .groupQuantized {
      logicalType := scaleType
      storageBits := bits % 2 ^ 8
      storageContainer := .u32
      signed := false
      axis := -1
      groupSize
      scaleType
      biasType := some biasType
      zeroPoint := .none
      packing := s!"mlx.affine.u{bits}"
      order := .rowMajor
      components := ["packed", "scales", "biases"] }
    components := [component "packed" weight, component "scales" scales, component "biases" biases]
    aliases := [weight.key] }

/-- The scales or the biases of a weight. -/
def isCompanion (key : String) : Bool := Text.endsWith key ".scales" || Text.endsWith key ".biases"

def isRotaryCache (key : String) : Bool := Text.contains key "rotary_emb" || Text.endsWith key ".inv_freq"

/-- The parameters so far, and the keys of the scales and biases they took. -/
structure Decoded where
  parameters : List LogicalParameter
  consumedComponents : List String

/-- One pass of the loop over the entries. -/
def decodeEntry (byKey : AssocMap String RawTensorEntry) (bits groupSize : Nat) (decoded : Decoded)
    (entry : RawTensorEntry) : Except DynInferError Decoded :=
  if isCompanion entry.key then .ok decoded
  else if isRotaryCache entry.key then .ok decoded
  else
    let base := Text.stripEnd entry.key ".weight"
    let scale := base.bind fun base => byKey.get (base ++ ".scales")
    let bias := base.bind fun base => byKey.get (base ++ ".biases")
    match scale, bias with
    | some scale, some bias => do
      let parameter ← decodeAffineWeight entry scale bias bits groupSize
      return ⟨decoded.parameters ++ [parameter], decoded.consumedComponents ++ [scale.key, bias.key]⟩
    | none, none => do
      let parameter ← decodePlain entry
      return ⟨decoded.parameters ++ [parameter], decoded.consumedComponents⟩
    | scale, bias =>
      .error (unsupported (some entry.key) "MLX quantized weight must have both .scales and .biases components"
        (some "weight + scales + biases") (some s!"scales={scale.isSome}, biases={bias.isSome}"))

/-- `BTreeMap::from_iter`, where the last entry of a key stays. -/
def byKey (entries : List RawTensorEntry) : AssocMap String RawTensorEntry :=
  AssocMap.insertAll [] (·.key) id entries

/-- `MlxSafeTensorsConvention::decode`. -/
def decode (loadHfConfigMetadata : String → MetadataMap) (index : RawCheckpointIndex) :
    Except DynInferError ParameterCatalog := do
  let metadata :=
    match index.sourceFiles.head? with
    | some source => index.metadata.orInsertAll (loadHfConfigMetadata source.path)
    | none => index.metadata
  let bits ← requiredU32 metadata "mlx.quantization.bits"
  let groupSize ← requiredU32 metadata "mlx.quantization.group_size"
  if bits ∉ [2, 3, 4, 6, 8] ∨ groupSize = 0 then
    throw (unsupported none s!"unsupported MLX affine configuration bits={bits}, group_size={groupSize}"
      (some "bits in 2|3|4|6|8 and group_size > 0"))
  let decoded ← index.entries.foldlM (decodeEntry (byKey index.entries) bits groupSize) ⟨[], []⟩
  let orphan := (index.entries.filter fun entry =>
    isCompanion entry.key && !decoded.consumedComponents.contains entry.key).map (·.key)
  if orphan ≠ [] then
    throw (unsupported orphan.head?
      s!"orphan MLX quantization components: {Text.bracketed (orphan.map String.quote)}"
      (some "components paired with a .weight tensor"))
  return { parameters := decoded.parameters, metadata }

end MlxConvention

end Dyninfer
