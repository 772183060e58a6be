/-
The encoding definitions (`dyninfer-quantization/src/quantizations`): which
encodings each one recognises, what it demands of a parameter stored so, and the
kernels it contributes. Plain storage contributes a portable kernel for every
operation and a native one for `f16` and `bf16`; the executable GGUF blocks and
the four-bit MLX groups contribute one for each backend; the other schemas none.
-/
import Dyninfer.Kernels.Registry
import Dyninfer.Lib.Text

namespace Dyninfer

/-- A `u64` sum that must not overflow. -/
def checkedSum (lengths : List Nat) : Option Nat :=
  lengths.foldlM (fun total length => if total + length < 2 ^ 64 then some (total + length) else none) 0

def LogicalParameter.byteRanges (parameter : LogicalParameter) : List ByteRange :=
  parameter.components.flatMap (·.byteRanges)

/-- A value, or the internal error that says what overflowed. -/
def orOverflow {α : Type} (message : String) : Option α → Except DynInferError α
  | some a => .ok a
  | none => .error (.internal message)

/-- An `UnsupportedEncodingError` about a parameter; a derived `Repr` stands for `Debug` of its encoding. -/
def unsupportedParameter (codec expected : String) (parameter : LogicalParameter) (message : String) : DynInferError :=
  .unsupportedEncoding {
    message, key := some parameter.canonicalName, codec := some codec, codecVersion := some 1
    expected := some expected, actual := some (reprStr parameter.encoding) }

/-! ## Plain storage -/

namespace PlainDefinition

def id (storageType : ScalarType) : String := s!"plain.{storageType.text}"

def matchesEncoding (storageType : ScalarType) : PhysicalEncoding → Bool
  | .plain ty _ => ty == storageType
  | _ => false

def plainError (storageType : ScalarType) (parameter : LogicalParameter) (message expected actual : String) :
    DynInferError :=
  .unsupportedEncoding {
    message, key := some parameter.canonicalName, codec := some (id storageType), codecVersion := some 1
    expected := some expected, actual := some actual }

def validate (storageType : ScalarType) (parameter : LogicalParameter) : Except DynInferError Unit := do
  if !matchesEncoding storageType parameter.encoding then
    throw (plainError storageType parameter
      s!"parameter `{parameter.canonicalName}` does not use {storageType.text} storage" storageType.text
      (reprStr parameter.encoding))
  if parameter.logicalType.elementType ≠ storageType then
    throw (plainError storageType parameter "plain logical and storage scalar types differ" storageType.text
      parameter.logicalType.elementType.text)
  let expected ← orOverflow "plain parameter byte size overflow" (do
    let numel ← parameter.logicalType.shape.numel
    if numel * storageType.sizeBytes < 2 ^ 64 then some (numel * storageType.sizeBytes) else none)
  let actual ← orOverflow "plain component byte size overflow" (checkedSum (parameter.byteRanges.map (·.length)))
  if parameter.components.length ≠ 1 ∨ actual ≠ expected then
    throw (plainError storageType parameter "plain parameter must have one complete storage component"
      s!"1 component, {expected} bytes" s!"{parameter.components.length} components, {actual} bytes")

/-- The rank of the parameter an operation consumes. -/
def logicalRank : KernelOperationKind → Nat
  | .rmsNorm | .perHeadRmsNorm => 1
  | .shortConv => 3
  | _ => 2

/-- A kernel over plain storage, of one compute type. -/
def kernel (storageType : ScalarType) (operation : KernelOperationKind) (id lowering : String)
    (computeType : ScalarType) (requiredFeatures : List String) (score : Int) : KernelCandidateDescriptor where
  id
  operation
  encoding := some ⟨PlainDefinition.id storageType, 1⟩
  inputTypes := [computeType]
  outputTypes := [computeType]
  accumulatorTypes := [.f32]
  shape := { logicalRank := some (logicalRank operation) }
  orientations := [.native]
  target := { TargetConstraint.any with requiredFeatures }
  modes := [.prefill, .decode]
  lowering
  deterministicScore := score
  readiness := .production

/-- The portable kernel, which computes in `f32`. -/
def candidate (storageType : ScalarType) (operation : KernelOperationKind) (suffix lowering : String) :
    KernelCandidateDescriptor :=
  kernel storageType operation s!"dense.{suffix}.{storageType.text}.portable_f32" lowering .f32 [] 100

/-- The native kernel, for a target with the feature of the type. -/
def nativeCandidate (storageType : ScalarType) (operation : KernelOperationKind) (suffix : String) :
    Option KernelCandidateDescriptor :=
  let native := fun feature => kernel storageType operation s!"dense.{suffix}.{storageType.text}.native"
    s!"dense.{suffix}.native" storageType [feature] 200
  match storageType with
  | .f16 => some (native "native_f16")
  | .bf16 => some (native "native_bf16")
  | _ => none

def operations : List (KernelOperationKind × String × String) :=
  [(.embedding, "gather", "dense.gather.linalg"),
    (.linear, "matmul", "dense.matmul.linalg"),
    (.rmsNorm, "rms_norm", "dense.rms_norm.generated"),
    (.perHeadRmsNorm, "per_head_rms_norm", "dense.per_head_rms_norm.generated"),
    (.outputProjection, "output_projection", "dense.matmul.linalg"),
    (.shortConv, "short_conv", "short_conv.gated.generated")]

def kernelCandidates (storageType : ScalarType) : List KernelCandidateDescriptor :=
  operations.flatMap fun (operation, suffix, lowering) =>
    candidate storageType operation suffix lowering :: (nativeCandidate storageType operation suffix).toList

end PlainDefinition

/-! ## GGUF blocks -/

/-- A kernel over packed two-dimensional storage, in `f32`. -/
def packedKernel (codec : String) (operation : KernelOperationKind) (id lowering : String) (target : TargetConstraint)
    (multipleOf : Nat) : KernelCandidateDescriptor where
  id
  operation
  encoding := some ⟨codec, 1⟩
  inputTypes := [.f32]
  outputTypes := [.f32]
  accumulatorTypes := [.f32]
  shape := { logicalRank := some 2, axisMultiples := [⟨1, multipleOf⟩] }
  orientations := [.native]
  target
  modes := [.prefill, .decode]
  lowering
  deterministicScore := 300
  readiness := .production

/-- The backends a packed kernel is qualified on. -/
def packedTargets : List (String × TargetConstraint) :=
  [("cpu", { backends := ["local-task", "local-sync"], requiredFeatures := ["avx2"] }),
    ("hip", { backends := ["hip", "rocm"] })]

inductive BlockLayout where
  | q40 | q41 | q80 | q6k
  deriving DecidableEq, Repr

def BlockLayout.blockSize : BlockLayout → Nat
  | .q40 | .q41 | .q80 => 32
  | .q6k => 256

/-- `gguf_codegen::kernel_candidates`. -/
def ggufKernelCandidates (layout : BlockLayout) (codec : String) : List KernelCandidateDescriptor :=
  [(KernelOperationKind.embedding, "gather"), (.linear, "matmul"), (.outputProjection, "output")].flatMap
    fun (operation, suffix) => packedTargets.map fun (backend, target) =>
      packedKernel codec operation s!"{codec}.{suffix}.iree_block_{backend}" s!"{codec}.{suffix}.iree_block" target
        layout.blockSize

structure GgufBlockDefinition where
  name : String
  blockSize : Nat
  bytesPerBlock : Nat
  layoutComponents : List String
  deriving DecidableEq, Repr

/-- The one component of a block-quantized parameter, of the codec's opaque type. -/
def holdsOneBlockComponent (codec : String) (components : List StorageComponent) : Bool :=
  match components with
  | [component] => component.name == "data" && component.storageType == .opaqueCodec codec
  | _ => false

namespace GgufBlockDefinition

variable (definition : GgufBlockDefinition)

def codec : String := s!"gguf.{definition.name}"

def matchesEncoding : PhysicalEncoding → Bool
  | .blockQuantized q => q.codecVersion == 1 && q.codec == definition.codec
  | _ => false

def unsupported (parameter : LogicalParameter) (message : String) : DynInferError :=
  unsupportedParameter definition.codec
    s!"{definition.blockSize} values per {definition.bytesPerBlock}-byte interleaved block" parameter message

/-- The fields of a block, each right after the one before, fill it. -/
def layoutFills (layout : List BlockLayoutField) : Bool :=
  (layout.foldlM (fun offset field =>
    if field.byteOffset = offset ∧ offset + field.byteLength < 2 ^ 32 then some (offset + field.byteLength)
    else none) 0) == some definition.bytesPerBlock

def describes (q : BlockQuantization) : Bool :=
  definition.matchesEncoding (.blockQuantized q) && q.logicalType == .f16 && q.blockShape == [definition.blockSize] &&
    q.bytesPerBlock == definition.bytesPerBlock && q.components == definition.layoutComponents &&
    q.order == .rowMajor && q.endianness == .little &&
    q.layout.map (·.name) == definition.layoutComponents && definition.layoutFills q.layout

def validate (parameter : LogicalParameter) : Except DynInferError Unit :=
  match parameter.encoding with
  | .blockQuantized q => do
    if !definition.describes q then
      throw (definition.unsupported parameter
        s!"invalid {definition.name} descriptor; expected logical=f16 block=[{definition.blockSize}] layout={Text.bracketed (definition.layoutComponents.map String.quote)}")
    let numel ← orOverflow s!"{definition.name} numel overflow" parameter.logicalType.shape.numel
    if numel % definition.blockSize ≠ 0 then
      throw (definition.unsupported parameter
        s!"{definition.name} numel {numel} is not divisible by {definition.blockSize}")
    let expected := numel / definition.blockSize * definition.bytesPerBlock
    if expected ≥ 2 ^ 64 then throw (.internal s!"{definition.name} byte size overflow")
    let actual ← orOverflow s!"{definition.name} component byte size overflow"
      (checkedSum (parameter.byteRanges.map (·.length)))
    if !holdsOneBlockComponent definition.codec parameter.components ∨ actual ≠ expected then
      throw (definition.unsupported parameter
        s!"{definition.name} requires one interleaved data component of {expected} bytes, got {parameter.components.length} components and {actual} bytes")
  | _ => .error (definition.unsupported parameter "expected block-quantized storage")

/-- The formats that are inspected but not executed. -/
def schemaOnlyDefinitions : List GgufBlockDefinition :=
  [⟨"q5_0", 32, 22, ["scale_f16", "high_bits", "quants_u4"]⟩,
    ⟨"q5_1", 32, 24, ["scale_f16", "minimum_f16", "high_bits", "quants_u4"]⟩,
    ⟨"q8_1", 32, 36, ["scale_f16", "sum_f16", "quants_i8"]⟩,
    ⟨"q2_k", 256, 84, ["scales_and_mins_u4", "quants_u2", "scale_min_f16"]⟩,
    ⟨"q3_k", 256, 110, ["high_bits", "quants_u2", "scales_u6", "scale_f16"]⟩,
    ⟨"q4_k", 256, 144, ["scale_min_f16", "scales_and_mins_u6", "quants_u4"]⟩,
    ⟨"q5_k", 256, 176, ["scale_min_f16", "scales_and_mins_u6", "high_bits", "quants_u4"]⟩,
    ⟨"q8_k", 256, 292, ["scale_f32", "quants_i8", "block_sums_i16"]⟩,
    ⟨"iq2_xxs", 256, 66, ["scale_f16", "grid_indices_and_signs_u16"]⟩,
    ⟨"iq2_xs", 256, 74, ["scale_f16", "grid_indices_and_signs_u16", "scales_u8"]⟩,
    ⟨"iq3_xxs", 256, 98, ["scale_f16", "grid_indices_and_signs_u8"]⟩,
    ⟨"iq1_s", 256, 50, ["scale_f16", "grid_indices_u8", "high_bits_and_delta_u16"]⟩,
    ⟨"iq4_nl", 32, 18, ["scale_f16", "nonlinear_quants_u4"]⟩,
    ⟨"iq3_s", 256, 110, ["scale_f16", "grid_indices_low_u8", "grid_indices_high_u8", "signs_u8", "scales_u8"]⟩,
    ⟨"iq2_s", 256, 82, ["scale_f16", "grid_indices_low_u8", "grid_indices_high_u8", "scales_u8"]⟩,
    ⟨"iq4_xs", 256, 136, ["scale_f16", "scales_high_u16", "scales_low_u8", "nonlinear_quants_u4"]⟩,
    ⟨"iq1_m", 256, 56, ["grid_indices_u8", "high_bits_and_delta_u8", "scales_u8"]⟩,
    ⟨"tq1_0", 256, 54, ["scale_f16", "block_scales_u8", "ternary_quants_base3"]⟩,
    ⟨"tq2_0", 256, 66, ["scale_f16", "ternary_quants_u2"]⟩,
    ⟨"mxfp4", 32, 17, ["e8m0_scale_u8", "mxfp4_quants_u4"]⟩]

end GgufBlockDefinition

namespace GgufQ40Definition

def matchesEncoding : PhysicalEncoding → Bool
  | .blockQuantized q => q.codecVersion == 1 && q.codec == "gguf.q4_0" && q.blockShape == [32]
  | _ => false

def unsupported (parameter : LogicalParameter) (message : String) : DynInferError :=
  unsupportedParameter "gguf.q4_0" "32 values per 18-byte interleaved block" parameter message

def describes (q : BlockQuantization) : Bool :=
  q.logicalType == .f16 && q.bytesPerBlock == 18 && q.components == ["scale_f16", "quants_u4"] &&
    q.layout.map (fun field => (field.name, field.byteOffset, field.byteLength)) ==
      [("scale_f16", 0, 2), ("quants_u4", 2, 16)] &&
    q.order == .rowMajor && q.endianness == .little

def validate (parameter : LogicalParameter) : Except DynInferError Unit :=
  match parameter.encoding with
  | .blockQuantized q => do
    if !matchesEncoding (.blockQuantized q) then throw (unsupported parameter "invalid Q4_0 encoding descriptor")
    if !describes q then
      throw (unsupported parameter "Q4_0 requires logical f16 with scale_f16/quants_u4 layout")
    let numel ← orOverflow "Q4_0 parameter numel overflow" parameter.logicalType.shape.numel
    if numel % 32 ≠ 0 then throw (unsupported parameter s!"Q4_0 numel {numel} is not divisible by 32")
    let expected := numel / 32 * 18
    if expected ≥ 2 ^ 64 then throw (.internal "Q4_0 byte size overflow")
    let actual ← orOverflow "Q4_0 component byte size overflow" (checkedSum (parameter.byteRanges.map (·.length)))
    if !holdsOneBlockComponent "gguf.q4_0" parameter.components ∨ actual ≠ expected then
      throw (unsupported parameter
        s!"Q4_0 requires one interleaved component of {expected} bytes, got {parameter.components.length} components and {actual} bytes")
  | _ => .error (unsupported parameter "invalid Q4_0 encoding descriptor")

end GgufQ40Definition

/-- The schema of `GgufQ41Definition`. -/
def ggufQ41Schema : GgufBlockDefinition := ⟨"q4_1", 32, 20, ["scale_f16", "minimum_f16", "quants_u4"]⟩

/-- The schema of `GgufQ6KDefinition`. -/
def ggufQ6KSchema : GgufBlockDefinition :=
  ⟨"q6_k", 256, 210, ["quants_low_u4", "quants_high_u2", "scales_i8", "scale_f16"]⟩

/-- The schema of `GgufQ80Definition`. -/
def ggufQ80Schema : GgufBlockDefinition := ⟨"q8_0", 32, 34, ["scale_f16", "quants_i8"]⟩

/-! ## MLX groups -/

namespace MlxAffineDefinition

def id (bits : Nat) : String := s!"mlx.affine.u{bits}"

def matchesEncoding (bits : Nat) : PhysicalEncoding → Bool
  | .groupQuantized q => q.storageBits == bits && q.packing == id bits
  | _ => false

def unsupported (bits : Nat) (parameter : LogicalParameter) (message : String) : DynInferError :=
  unsupportedParameter (id bits) s!"MLX unsigned {bits}-bit affine groups in u32 storage" parameter message

def describes (bits : Nat) (q : GroupQuantization) : Bool :=
  matchesEncoding bits (.groupQuantized q) && q.logicalType == q.scaleType && q.storageContainer == .u32 &&
    !q.signed && q.axis == -1 && q.groupSize != 0 && q.biasType == some q.scaleType && q.zeroPoint == .none &&
    q.order == .rowMajor && q.components == ["packed", "scales", "biases"]

/-- A component's bytes fill its shape. -/
def checkComponentBytes (bits : Nat) (parameter : LogicalParameter) (component : StorageComponent) :
    Except DynInferError Unit := do
  let elementBytes ← match component.storageType with
    | .scalar ty => .ok ty.sizeBytes
    | _ => .error (unsupported bits parameter "component has unsized storage type")
  let expected ← orOverflow "MLX component byte size overflow" (do
    let numel ← component.shape.numel
    if numel * elementBytes < 2 ^ 64 then some (numel * elementBytes) else none)
  let actual ← orOverflow "MLX byte range size overflow" (checkedSum (component.byteRanges.map (·.length)))
  if actual ≠ expected then throw (unsupported bits parameter "MLX component byte length is invalid")

/-- The shapes of the packed words and of the groups, for a logical shape. -/
def checkShapes (bits : Nat) (parameter : LogicalParameter) (groupSize : Nat)
    (packed scales biases : StorageComponent) : Except DynInferError Unit := do
  let logical := parameter.logicalType.shape
  if logical.isEmpty ∨ packed.shape.length ≠ logical.length then
    throw (unsupported bits parameter "MLX affine logical/packed ranks differ")
  let last := logical.getLastD 0
  if last * bits ≥ 2 ^ 64 then throw (.internal "MLX packed shape overflow")
  if last * bits % 32 ≠ 0 then
    throw (unsupported bits parameter "MLX logical axis cannot be packed into complete u32 words")
  if last % groupSize ≠ 0 then throw (unsupported bits parameter "MLX logical axis is not group divisible")
  let groups := logical.dropLast ++ [last / groupSize]
  if packed.shape ≠ logical.dropLast ++ [last * bits / 32] ∨ scales.shape ≠ groups ∨ biases.shape ≠ groups then
    throw (unsupported bits parameter "MLX affine component shapes are invalid")

def validateComponents (bits : Nat) (parameter : LogicalParameter) (q : GroupQuantization) :
    List StorageComponent → Except DynInferError Unit
  | [packed, scales, biases] => do
    if packed.name ≠ "packed" ∨ scales.name ≠ "scales" ∨ biases.name ≠ "biases" then
      throw (unsupported bits parameter "MLX affine component names are invalid")
    if packed.storageType ≠ .scalar .u32 ∨ scales.storageType ≠ .scalar q.scaleType ∨
        biases.storageType ≠ .scalar q.scaleType then
      throw (unsupported bits parameter "MLX affine component dtypes are invalid")
    checkShapes bits parameter q.groupSize packed scales biases
    [packed, scales, biases].forM (checkComponentBytes bits parameter)
  | _ => .error (unsupported bits parameter "MLX affine parameter requires packed/scales/biases components")

def validate (bits : Nat) (parameter : LogicalParameter) : Except DynInferError Unit :=
  match parameter.encoding with
  | .groupQuantized q =>
    if describes bits q then validateComponents bits parameter q parameter.components
    else .error (unsupported bits parameter "invalid MLX affine encoding descriptor")
  | _ => .error (unsupported bits parameter "expected group-quantized encoding")

/-- Only four-bit words have kernels; on HIP they lower through their own functions. -/
def kernelCandidates (bits : Nat) : List KernelCandidateDescriptor :=
  if bits ≠ 4 then [] else
    [(KernelOperationKind.embedding, "embedding", "mlx.affine.u4.gather.iree_grouped"),
      (.linear, "matmul", "mlx.affine.u4.matmul.iree_grouped"),
      (.outputProjection, "output", "mlx.affine.u4.matmul.iree_grouped")].flatMap
      fun (operation, suffix, lowering) => packedTargets.map fun (backend, target) =>
        packedKernel "mlx.affine.u4" operation s!"mlx.affine.u4.{suffix}.iree_grouped_{backend}"
          (if backend == "cpu" then lowering else lowering ++ "_gpu") target 32

end MlxAffineDefinition

/-! ## The registered definitions -/

/-- The definitions `register_all` registers. -/
inductive QuantizationDefinition where
  | plain (storageType : ScalarType)
  | ggufQ40 | ggufQ41 | ggufQ6K | ggufQ80
  | ggufBlock (definition : GgufBlockDefinition)
  | mlxAffine (bits : Nat)
  deriving DecidableEq, Repr

namespace QuantizationDefinition

/-- The key of a definition's descriptor. -/
def key : QuantizationDefinition → EncodingKey
  | .plain storageType => ⟨PlainDefinition.id storageType, 1⟩
  | .ggufQ40 => ⟨"gguf.q4_0", 1⟩
  | .ggufQ41 => ⟨"gguf.q4_1", 1⟩
  | .ggufQ6K => ⟨"gguf.q6_k", 1⟩
  | .ggufQ80 => ⟨"gguf.q8_0", 1⟩
  | .ggufBlock definition => ⟨definition.codec, 1⟩
  | .mlxAffine bits => ⟨MlxAffineDefinition.id bits, 1⟩

def matchesEncoding : QuantizationDefinition → PhysicalEncoding → Bool
  | .plain storageType => PlainDefinition.matchesEncoding storageType
  | .ggufQ40 => GgufQ40Definition.matchesEncoding
  | .ggufQ41 => ggufQ41Schema.matchesEncoding
  | .ggufQ6K => ggufQ6KSchema.matchesEncoding
  | .ggufQ80 => ggufQ80Schema.matchesEncoding
  | .ggufBlock definition => definition.matchesEncoding
  | .mlxAffine bits => MlxAffineDefinition.matchesEncoding bits

def validate : QuantizationDefinition → LogicalParameter → Except DynInferError Unit
  | .plain storageType => PlainDefinition.validate storageType
  | .ggufQ40 => GgufQ40Definition.validate
  | .ggufQ41 => ggufQ41Schema.validate
  | .ggufQ6K => ggufQ6KSchema.validate
  | .ggufQ80 => ggufQ80Schema.validate
  | .ggufBlock definition => definition.validate
  | .mlxAffine bits => MlxAffineDefinition.validate bits

def kernelCandidates : QuantizationDefinition → List KernelCandidateDescriptor
  | .plain storageType => PlainDefinition.kernelCandidates storageType
  | .ggufQ40 => ggufKernelCandidates .q40 "gguf.q4_0"
  | .ggufQ41 => ggufKernelCandidates .q41 "gguf.q4_1"
  | .ggufQ6K => ggufKernelCandidates .q6k "gguf.q6_k"
  | .ggufQ80 => ggufKernelCandidates .q80 "gguf.q8_0"
  | .ggufBlock _ => []
  | .mlxAffine bits => MlxAffineDefinition.kernelCandidates bits

end QuantizationDefinition

structure QuantizationRegistry where
  definitions : List QuantizationDefinition := []

namespace QuantizationRegistry

def register (registry : QuantizationRegistry) (definition : QuantizationDefinition) :
    Except DynInferError QuantizationRegistry :=
  if registry.definitions.any (·.key == definition.key) then
    .error (.internal s!"duplicate encoding definition `{definition.key.id}@{definition.key.version}`")
  else .ok { definitions := registry.definitions ++ [definition] }

def resolve (registry : QuantizationRegistry) (encoding : PhysicalEncoding) : Option QuantizationDefinition :=
  registry.definitions.find? (·.matchesEncoding encoding)

def registerKernelCandidates (registry : QuantizationRegistry) (kernels : KernelRegistry) :
    Except DynInferError KernelRegistry :=
  (registry.definitions.flatMap (·.kernelCandidates)).foldlM KernelRegistry.register kernels

end QuantizationRegistry

/-- What `register_all` registers, in its order. -/
def builtinDefinitions : List QuantizationDefinition :=
  [.plain .f32, .plain .f16, .plain .bf16, .ggufQ40, .ggufQ41, .ggufQ6K, .ggufQ80] ++
    GgufBlockDefinition.schemaOnlyDefinitions.map .ggufBlock ++ [2, 3, 4, 6, 8].map .mlxAffine

/-- `default_quantization_registry`. -/
def defaultQuantizationRegistry : Except DynInferError QuantizationRegistry :=
  builtinDefinitions.foldlM QuantizationRegistry.register {}

/-- `default_kernel_registry`. -/
def defaultKernelRegistry (encodings : QuantizationRegistry) : Except DynInferError KernelRegistry := do
  let kernels ← registerBuiltinSemanticCandidates {}
  encodings.registerKernelCandidates kernels

end Dyninfer
