/-
The parameter globals of a program (`lowering/dense_decoder.rs`,
`lowering/parameter.rs` and the code generators of `dyninfer-quantization`):
which globals `emit_globals` declares, with the key and the static type of each,
and which of them the emitted functions load. The rest of the text is the
printer's, which is given what is declared and loaded.
-/
import Dyninfer.Compiler.Compile
import Dyninfer.Quantization.Definitions

namespace Dyninfer

/-- A static tensor type. -/
structure TensorType where
  shape : Shape
  elementType : ScalarType
  deriving DecidableEq, Repr

def TensorType.byteSize (type : TensorType) : Nat := type.shape.size * type.elementType.sizeBytes

/-- The bytes of a block-quantized parameter, as they are stored. -/
def TensorType.bytes (n : Nat) : TensorType := ⟨[n], .i8⟩

/-- `util.global private @symbol = #stream.parameter.named<"weights"::"key"> : type`. -/
structure ParameterGlobal where
  symbol : String
  key : String
  type : TensorType
  deriving DecidableEq, Repr

/-- `util.global.load @symbol : type`. -/
structure GlobalLoad where
  symbol : String
  type : TensorType
  deriving DecidableEq, Repr

/-- The load of a global, in the type it is declared in. -/
def ParameterGlobal.load (declared : ParameterGlobal) : GlobalLoad := ⟨declared.symbol, declared.type⟩

/-- A parameter as the emitter names it, with the shape the configuration gives it. -/
structure ParameterRef where
  symbol : String
  canonical : String
  shape : Shape
  deriving DecidableEq, Repr

def ParameterBinding.codegenError (binding : ParameterBinding) (before after : String) : DynInferError :=
  .internal s!"{before} `{binding.canonicalName}` {after}"

/-! ## GGUF blocks -/

namespace GgufCodegen

def dataComponent (binding : ParameterBinding) : Except DynInferError ParameterComponentBinding :=
  match binding.components with
  | [component] =>
    match component.componentName, component.storageType with
    | "data", .opaqueCodec _ => .ok component
    | _, _ => .error (binding.codegenError "GGUF block parameter" "has an invalid data component")
  | _ => .error (binding.codegenError "GGUF block parameter" "must have one data component")

def componentBytes (binding : ParameterBinding) : Except DynInferError Nat := do
  let component ← dataComponent binding
  orOverflow "GGUF block component size overflow" (checkedSum component.byteLengths)

def emitExternalGlobals (binding : ParameterBinding) (symbol : String) :
    Except DynInferError (List ParameterGlobal) := do
  let component ← dataComponent binding
  let bytes ← componentBytes binding
  return [⟨s!"{symbol}_data", component.externalKey, .bytes bytes⟩]

def emitParameterLoad (binding : ParameterBinding) (symbol : String) : Except DynInferError (List GlobalLoad) := do
  let bytes ← componentBytes binding
  return [⟨s!"{symbol}_data", .bytes bytes⟩]

end GgufCodegen

/-! ## MLX groups -/

namespace MlxAffineDefinition

def component (binding : ParameterBinding) (name : String) : Except DynInferError ParameterComponentBinding :=
  match binding.components.find? (·.componentName == name) with
  | some component => .ok component
  | none => .error (binding.codegenError "MLX affine parameter" s!"is missing `{name}`")

def mlxGroupSize (binding : ParameterBinding) : Except DynInferError Nat :=
  match binding.encoding with
  | .groupQuantized q =>
    if q.storageBits = 4 ∧ q.packing = "mlx.affine.u4" then .ok q.groupSize
    else .error (binding.codegenError "parameter" "is not MLX affine U4")
  | _ => .error (binding.codegenError "parameter" "is not MLX affine U4")

/-- The text of a storage type. -/
def storageText : StorageElementType → String
  | .scalar ty => ty.text
  | .packedBits bits true => s!"si{bits}"
  | .packedBits bits false => s!"ui{bits}"
  | .opaqueCodec codec => s!"opaque({codec})"

def componentTensorType (component : ParameterComponentBinding) : Except DynInferError TensorType :=
  match component.storageType with
  | .scalar ty => .ok ⟨component.shape, ty⟩
  | storageType =>
    .error (.internal s!"component `{component.externalKey}` has non-scalar storage {storageText storageType}")

/-- The components of a parameter, as they are declared. -/
def componentNames : List String := ["packed", "scales", "biases"]

def componentGlobal (binding : ParameterBinding) (symbol name : String) : Except DynInferError ParameterGlobal := do
  let found ← component binding name
  let type ← componentTensorType found
  return { symbol := s!"{symbol}_{name}", key := found.externalKey, type }

def componentLoad (binding : ParameterBinding) (symbol name : String) : Except DynInferError GlobalLoad := do
  let found ← component binding name
  let type ← componentTensorType found
  return { symbol := s!"{symbol}_{name}", type }

def emitExternalGlobals (bits : Nat) (binding : ParameterBinding) (symbol : String) :
    Except DynInferError (Option (List ParameterGlobal)) :=
  if bits ≠ 4 then .ok none else do
    let globals ← componentNames.mapM (componentGlobal binding symbol)
    return some globals

def emitParameterLoad (bits : Nat) (binding : ParameterBinding) (symbol : String) :
    Except DynInferError (Option (List GlobalLoad)) :=
  if bits ≠ 4 then .ok none
  else if binding.logicalShape.length ≠ 2 then
    .error (binding.codegenError "MLX affine parameter" "must have rank 2")
  else do
    let _ ← mlxGroupSize binding
    let loads ← componentNames.mapM (componentLoad binding symbol)
    return some loads

end MlxAffineDefinition

/-! ## One parameter -/

/-- The globals of an encoded parameter; `none` where the definition has no executable lowering. -/
def QuantizationDefinition.emitExternalGlobals (definition : QuantizationDefinition) (binding : ParameterBinding)
    (symbol : String) : Except DynInferError (Option (List ParameterGlobal)) :=
  match definition with
  | .ggufQ40 | .ggufQ41 | .ggufQ6K | .ggufQ80 => (GgufCodegen.emitExternalGlobals binding symbol).map some
  | .mlxAffine bits => MlxAffineDefinition.emitExternalGlobals bits binding symbol
  | .plain _ | .ggufBlock _ => .ok none

def QuantizationDefinition.emitParameterLoad (definition : QuantizationDefinition) (binding : ParameterBinding)
    (symbol : String) : Except DynInferError (Option (List GlobalLoad)) :=
  match definition with
  | .ggufQ40 | .ggufQ41 | .ggufQ6K | .ggufQ80 => (GgufCodegen.emitParameterLoad binding symbol).map some
  | .mlxAffine bits => MlxAffineDefinition.emitParameterLoad bits binding symbol
  | .plain _ | .ggufBlock _ => .ok none

/-- `no_lowering`. -/
def noLowering (canonical requirement : String) : DynInferError :=
  loweringError s!"parameter `{canonical}` has no registered implementation for {requirement}" "lower.parameter.dispatch"

/-- The binding of a parameter that is not stored plainly. -/
def DenseDecoderConfig.encodedBinding (c : DenseDecoderConfig) (canonical : String) : Option ParameterBinding :=
  (c.paramBinding canonical).filter (!·.encoding.isPlain)

namespace ParameterLowerings

variable (registry : QuantizationRegistry) (c : DenseDecoderConfig) (ref : ParameterRef)

def definition (binding : ParameterBinding) : Except DynInferError QuantizationDefinition :=
  match registry.resolve binding.encoding with
  | some definition => .ok definition
  | none => .error (noLowering binding.canonicalName "registered encoding definition")

/-- What a definition emits, or the error that says what it lacks. -/
def required {α : Type} (requirement : String) : Option α → Except DynInferError α
  | some a => .ok a
  | none => .error (noLowering ref.canonical requirement)

def emitGlobal : Except DynInferError (List ParameterGlobal) :=
  match c.encodedBinding ref.canonical with
  | some binding => do
    let definition ← definition registry binding
    let emitted ← definition.emitExternalGlobals binding ref.symbol
    required ref "external-global declaration" emitted
  | none => .ok [⟨ref.symbol, c.paramKey ref.canonical, ref.shape, c.paramDtype ref.canonical⟩]

/-- A plain load converts to `f32`; its global is loaded in the type it is stored in. -/
def emitLoad : Except DynInferError (List GlobalLoad) :=
  match c.encodedBinding ref.canonical with
  | some binding => do
    let definition ← definition registry binding
    let emitted ← definition.emitParameterLoad binding ref.symbol
    required ref "external-component load" emitted
  | none =>
    let storage := c.paramDtype ref.canonical
    let compute := c.paramComputeDtype ref.canonical
    if storage ∈ [.f16, .bf16, .f32] ∧ compute = .f32 then .ok [⟨ref.symbol, ref.shape, storage⟩]
    else .error (noLowering ref.canonical s!"storage-to-compute conversion {storage.text}->{compute.text}")

end ParameterLowerings

/-! ## The parameters of a program -/

namespace DenseDecoderConfig

variable (c : DenseDecoderConfig)

def tokenEmbd : ParameterRef := ⟨"token_embd_weight", "token_embd.weight", [c.vocab, c.hidden]⟩

def outputNorm : ParameterRef := ⟨"output_norm_weight", "output_norm.weight", [c.hidden]⟩

def outputWeight : ParameterRef := ⟨"output_weight", "output.weight", [c.vocab, c.hidden]⟩

section layer

variable (layer : Nat)

def attnNorm : ParameterRef :=
  let p := s!"blk{layer}"
  let n := s!"blk.{layer}"
  ⟨s!"{p}_attn_norm_weight", s!"{n}.attn_norm.weight", [c.hidden]⟩

def attnProjections : List ParameterRef :=
  let p := s!"blk{layer}"
  let n := s!"blk.{layer}"
  [⟨s!"{p}_attn_q_weight", s!"{n}.attn_q.weight", [c.qDim, c.hidden]⟩,
    ⟨s!"{p}_attn_k_weight", s!"{n}.attn_k.weight", [c.kvDim, c.hidden]⟩,
    ⟨s!"{p}_attn_v_weight", s!"{n}.attn_v.weight", [c.kvDim, c.hidden]⟩]

def attnOutput : ParameterRef :=
  let p := s!"blk{layer}"
  let n := s!"blk.{layer}"
  ⟨s!"{p}_attn_output_weight", s!"{n}.attn_output.weight", [c.hidden, c.qDim]⟩

def qkNorms : List ParameterRef :=
  let p := s!"blk{layer}"
  let n := s!"blk.{layer}"
  if c.hasQkNorm then
    [⟨s!"{p}_attn_q_norm_weight", s!"{n}.attn_q_norm.weight", [c.headDim]⟩,
      ⟨s!"{p}_attn_k_norm_weight", s!"{n}.attn_k_norm.weight", [c.headDim]⟩]
  else []

def shortconvInProj : ParameterRef :=
  let p := s!"blk{layer}"
  let n := s!"blk.{layer}"
  ⟨s!"{p}_shortconv_in_proj_weight", s!"{n}.shortconv.in_proj.weight", [u32Mul 3 c.convDim, c.hidden]⟩

def shortconvConv : ParameterRef :=
  let p := s!"blk{layer}"
  let n := s!"blk.{layer}"
  ⟨s!"{p}_shortconv_conv_weight", s!"{n}.shortconv.conv.weight", [c.convDim, 1, c.convKernel]⟩

def shortconvOutProj : ParameterRef :=
  let p := s!"blk{layer}"
  let n := s!"blk.{layer}"
  ⟨s!"{p}_shortconv_out_proj_weight", s!"{n}.shortconv.out_proj.weight", [c.hidden, c.convDim]⟩

def ffnWeights : List ParameterRef :=
  let p := s!"blk{layer}"
  let n := s!"blk.{layer}"
  [⟨s!"{p}_ffn_norm_weight", s!"{n}.ffn_norm.weight", [c.hidden]⟩,
    ⟨s!"{p}_ffn_gate_weight", s!"{n}.ffn_gate.weight", [c.intermediate, c.hidden]⟩,
    ⟨s!"{p}_ffn_up_weight", s!"{n}.ffn_up.weight", [c.intermediate, c.hidden]⟩,
    ⟨s!"{p}_ffn_down_weight", s!"{n}.ffn_down.weight", [c.hidden, c.intermediate]⟩]

/-- The parameters of a layer, in the order of their declarations. -/
def layerParameters : List ParameterRef :=
  c.attnNorm layer ::
    ((match c.layerKind layer with
      | .attention => c.attnProjections layer ++ c.attnOutput layer :: c.qkNorms layer
      | .shortConv => [c.shortconvInProj layer, c.shortconvConv layer, c.shortconvOutProj layer]) ++
    c.ffnWeights layer)

/-- What `emit_prefill` and `emit_decode` load for a layer. -/
def denseLayerLoads : List ParameterRef :=
  c.attnNorm layer :: (c.ffnWeights layer ++
    match c.layerKind layer with
    | .attention => c.attnProjections layer ++ c.attnOutput layer :: c.qkNorms layer
    | .shortConv => [c.shortconvInProj layer, c.shortconvOutProj layer])

/-- What `emit_paged_layer_prepare` and `emit_paged_layer_finish`, or `emit_paged_shortconv_layer`, load. -/
def pagedLayerLoads : List ParameterRef :=
  match c.layerKind layer with
  | .attention =>
    (c.attnNorm layer :: (c.attnProjections layer ++ c.qkNorms layer)) ++ c.attnOutput layer :: c.ffnWeights layer
  | .shortConv => c.attnNorm layer :: c.shortconvInProj layer :: c.shortconvOutProj layer :: c.ffnWeights layer

/-- What `emit_conv_op` loads. -/
def convOpLoads : List ParameterRef :=
  match c.layerKind layer with
  | .attention => []
  | .shortConv => [c.shortconvConv layer]

end layer

/-- What `emit_globals` declares, but for the globals of the state. -/
def declaredParameters : List ParameterRef :=
  c.tokenEmbd :: ((List.range c.numLayers).flatMap c.layerParameters ++ [c.outputNorm, c.outputWeight])

/-- What the functions of a prefill or a decode program load. -/
def loadedParameters : List ParameterRef :=
  (List.range c.numLayers).flatMap c.convOpLoads ++
    c.tokenEmbd :: ((List.range c.numLayers).flatMap (if c.pagedKv then c.pagedLayerLoads else c.denseLayerLoads) ++
      [c.outputNorm, c.outputWeight])

end DenseDecoderConfig

/-! ## The program -/

/-- The parameter globals of `emit_globals`. -/
def emitGlobals (c : DenseDecoderConfig) : Except DynInferError (List ParameterGlobal) := do
  let registry ← defaultQuantizationRegistry
  let globals ← c.declaredParameters.mapM (ParameterLowerings.emitGlobal registry c)
  return globals.flatten

/-- The loads of the emitted functions; where one fails, the process does not return. -/
def emitLoads (c : DenseDecoderConfig) : Except DynInferError (List GlobalLoad) := do
  let registry ← defaultQuantizationRegistry
  let loads ← c.loadedParameters.mapM (ParameterLowerings.emitLoad registry c)
  return loads.flatten

/-- The rest of the text, printed around what is declared and loaded. -/
structure ProgramPrinter where
  static : List ParameterGlobal → List GlobalLoad → DenseDecoderConfig → Except DynInferError String
  paged : List ParameterGlobal → List GlobalLoad → Bool → DenseDecoderConfig → PagedProgram →
    Except DynInferError String

/-- `build_dense_decoder_program`. -/
def ProgramPrinter.emitter (printer : ProgramPrinter) : Emitter where
  static c := do
    let globals ← emitGlobals c
    let loads ← emitLoads c
    printer.static globals loads c
  paged useIreeAttention c program := do
    let globals ← emitGlobals c
    let loads ← emitLoads c
    printer.paged globals loads useIreeAttention c program

end Dyninfer
