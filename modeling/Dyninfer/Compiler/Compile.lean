/-
Compilation up to IREE (`dyninfer-compiler/src/lib.rs`): the lowering of a
bound model to MLIR text, the flags of its target, and the manifest of the
bundle. Two things are read off the process here: whether
`DYNINFER_PORTABLE_ATTN` is set, and the tools found on the host.

The text the emitter prints is a parameter. It prints the static program from
the configuration without the flash-attention flag, and a paged program from
that and the answer of `use_iree_attention`.
-/
import Dyninfer.Compiler.BoundModel
import Dyninfer.Core.Manifest
import Dyninfer.Lib.Text

namespace Dyninfer

structure CompileOptions where
  mode : String := ""
  dumpIr : Bool := false
  smokeOnly : Bool := false
  forceSubprocess : Bool := false
  deriving DecidableEq, Repr

/-- What compilation reads of its process and host. -/
structure ProcessEnvironment where
  /-- `DYNINFER_PORTABLE_ATTN` is set. -/
  portableAttn : Bool := false
  /-- `discover_rocm_bc_dir`. -/
  rocmBcDir : Option String := none
  /-- The linker of `RocmSdk::discover`. -/
  rocmLinker : Option String := none

/-! ## Lowering -/

inductive PagedProgram where
  | combined | prefill | decode
  deriving DecidableEq, Repr

/-- The printed programs. -/
structure Emitter where
  static : DenseDecoderConfig → Except DynInferError String
  paged : Bool → DenseDecoderConfig → PagedProgram → Except DynInferError String

namespace DenseDecoderConfig

variable (c : DenseDecoderConfig)

/-- The configuration without the flag that only `use_iree_attention` reads. -/
def withoutFlash : DenseDecoderConfig := { c with ireeFlashAttention := false }

end DenseDecoderConfig

/-- `emit_dense_decoder_cfg_program`. -/
def Emitter.program (emitter : Emitter) (c : DenseDecoderConfig) (program : PagedProgram) :
    Except DynInferError String :=
  if c.pagedKv then emitter.paged c.useIreeAttention c.withoutFlash program else emitter.static c.withoutFlash

structure LoweringOutput where
  mlirText : String
  decodeMlirText : Option String
  prefillWindow : Nat
  maxKv : Nat
  pageSize : Nat
  pagedKv : Bool
  numLayers : Nat
  kvElementType : ScalarType
  deriving DecidableEq, Repr

deriving instance Repr for LayerKind
deriving instance Repr for DenseDecoderConfig

/-- The modules of a configuration: a paged model without short convolutions splits its decode off. -/
def emitModules (emitter : Emitter) (c : DenseDecoderConfig) : Except DynInferError (String × Option String) := do
  if c.pagedKv && !c.hasShortConv then
    let prefill ← emitter.program c .prefill
    let decode ← emitter.program c .decode
    return (prefill, some decode)
  else
    let combined ← emitter.program c .combined
    return (combined, none)

/-- `lower_bound_model`; a derived `Repr` stands for `Debug` of the configuration. -/
def lowerBoundModel (emitter : Emitter) (portableAttn : Bool) (bound : BoundModel) :
    Except DynInferError LoweringOutput := do
  validateBoundModelLowerings bound
  let config := DenseDecoderConfig.fromBoundModel portableAttn bound
  if let some binding := bound.binding.bindings.find? fun b =>
      (config.paramComputeDtypes.get b.canonicalName).isNone then
    throw (loweringError s!"parameter `{binding.canonicalName}` has no operation-local compute dtype selection"
      "lower.precision")
  if !config.supportsDenseEmit then
    throw (loweringError s!"shared transformer lowering does not support specialization {reprStr config}"
      "lower.bound_model")
  let modules ← emitModules emitter config
  return {
    mlirText := modules.1
    decodeMlirText := modules.2
    prefillWindow := config.seq
    maxKv := config.maxKv
    pageSize := config.pageSize
    pagedKv := config.pagedKv
    numLayers := config.numLayers
    kvElementType := config.pagedKvElementType }

/-- `emit_add_smoke_module`. -/
def emitAddSmokeModule : String :=
  "func.func @add(%arg0: tensor<4xf32>, %arg1: tensor<4xf32>) -> tensor<4xf32> \x7b\n" ++
  "  %0 = arith.addf %arg0, %arg1 : tensor<4xf32>\n" ++
  "  return %0 : tensor<4xf32>\n\x7d\n"

/-- The lowering of a smoke compilation, which has no model in it. -/
def smokeLowering : LoweringOutput where
  mlirText := emitAddSmokeModule
  decodeMlirText := none
  prefillWindow := 4
  maxKv := 4
  pageSize := pagedKvPageSize
  pagedKv := false
  numLayers := 0
  kvElementType := .f32

/-! ## Flags -/

def rocmBcFlag (path : String) : String := s!"--iree-rocm-bc-dir={path}"

def linkerFlag (path : String) : String := s!"--iree-llvmcpu-embedded-linker-path={path}"

namespace TargetProfile

variable (target : TargetProfile)

/-- ROCm code needs the device libraries of the host. -/
def readsRocmBc : Bool := target.driver == "hip" || target.driver == "rocm"

/-- A local target without a linker of its own takes the host's. -/
def readsRocmLinker : Bool :=
  (target.driver == "local" || target.driver == "local-task" || target.driver == "local-sync") &&
    !target.executableTargetFlags.any (Text.startsWith · "--iree-llvmcpu-embedded-linker-path=")

end TargetProfile

/-- What the host adds to the flags of a target. -/
def hostFlags (env : ProcessEnvironment) (target : TargetProfile) : List String :=
  if target.readsRocmBc then (env.rocmBcDir.map rocmBcFlag).toList
  else if target.readsRocmLinker then (env.rocmLinker.map linkerFlag).toList
  else []

/-- `compile_flags_for`. -/
def compileFlagsFor (env : ProcessEnvironment) (target : TargetProfile) : Except DynInferError (List String) :=
  if !target.isCompileReady || target.executableTargetFlags.isEmpty then
    .error (loweringError
      s!"target `{target.driver}` is not backed by verified local compile facts (architecture={reprStr target.architecture})"
      "target.validate")
  else .ok (target.executableTargetFlags ++ hostFlags env target)

/-! ## The manifest -/

/-- `validate_binding_for_compile`. -/
def validateBindingForCompile (plan : BindingPlan) : Except DynInferError Unit :=
  plan.bindings.forM fun b =>
    if b.components.isEmpty then
      .error (loweringError s!"binding for `{b.canonicalName}` has no storage components" "binding.validate")
    else .ok ()

/-- A number of the resolved configuration, as the manifest reads it. -/
def manifestU32 (config : MetadataMap) (key : String) (default : Nat) : Nat :=
  (((config.get key).bind Json.asU64).map asU32).getD default

/-- The components of a plan, each once and in order. -/
def manifestComponents (plan : BindingPlan) : List ManifestParameterComponent :=
  let components := plan.bindings.flatMap fun binding => binding.components.map fun component =>
    { scope := binding.scope, key := component.externalKey, byteLength := component.byteLengths.sum }
  (components.mergeSort fun a b =>
    decide (a.scope < b.scope ∨ a.scope = b.scope ∧ (a.key < b.key ∨ a.key = b.key ∧ a.byteLength ≤ b.byteLength))).dedup

/-- The manifest of a compilation, without its diagnostics. -/
def executableManifest (bound : BoundModel) (revision : String) (schema : SchemaFingerprint) (shape : ShapeProfile)
    (options : CompileOptions) (lowering : LoweringOutput) : ExecutableManifest where
  format := "dyninfer.bundle"
  version := if lowering.pagedKv then 11 else 2
  architectureId := bound.architecture.architectureId
  architectureRevision := revision
  checkpointSchema := schema
  target := bound.target
  precisionPolicy := bound.precisionPolicy
  selectedKernels := bound.selectedKernels
  shapeProfile := if lowering.pagedKv then { shape with sequenceBuckets := [pagedPrefillChunkSize] } else shape
  entrypoints :=
    if options.smokeOnly then ["add"]
    else if lowering.pagedKv then ["prefill_chunk", "decode_chunk", "add"]
    else ["prefill", "decode", "add"]
  kvCache := {
    layerCount := manifestU32 bound.resolvedConfig "num_layers" 1
    maxBatchSize := shape.batchSizes.headD 1
    maxSequenceLength := lowering.maxKv
    kvHeadCount := manifestU32 bound.resolvedConfig "num_kv_heads" 1
    headDimension := manifestU32 bound.resolvedConfig "head_dim" 64
    elementType := lowering.kvElementType
    storage := if lowering.pagedKv then .paged lowering.pageSize pagedPrefillChunkSize else .staticGlobals }
  parameterScope := "weights"
  parameterComponents := manifestComponents bound.binding
  derivedParametersRequired := false
  vmfbPath := "executables/model.vmfb"
  prefillWindow := lowering.prefillWindow
  diagnostics := []

/-! ## Compilation -/

/-- What `compile` is given besides its options. -/
structure CompileInput where
  bound : BoundModel
  revision : String
  schema : SchemaFingerprint
  shape : ShapeProfile

/-- What compilation hands to IREE, and the manifest it writes. -/
structure CompileProduct where
  mlirText : String
  decodeMlirText : Option String
  flags : List String
  manifest : ExecutableManifest
  deriving DecidableEq, Repr

/-- The lowering of a compilation. -/
def lowerFor (emitter : Emitter) (env : ProcessEnvironment) (options : CompileOptions) (bound : BoundModel) :
    Except DynInferError LoweringOutput :=
  if options.smokeOnly then .ok smokeLowering else lowerBoundModel emitter env.portableAttn bound

/-- `LocalCompiler::compile`, but for IREE itself. -/
def compile (emitter : Emitter) (env : ProcessEnvironment) (options : CompileOptions) (input : CompileInput) :
    Except DynInferError CompileProduct := do
  let lowering ← lowerFor emitter env options input.bound
  let flags ← compileFlagsFor env input.bound.target
  validateBindingForCompile input.bound.binding
  return {
    mlirText := lowering.mlirText
    decodeMlirText := lowering.decodeMlirText
    flags
    manifest := executableManifest input.bound input.revision input.schema input.shape options lowering }

end Dyninfer
