/-
From a bound architecture to what the lowering receives
(`dyninfer-compiler/src/lib.rs`): the static shapes of a model, the bound model
with its selected kernels, and the checks of those kernels before any MLIR is
emitted.
-/
import Dyninfer.Compiler.DenseDecoderConfig
import Dyninfer.Quantization.Coverage

namespace Dyninfer

/-- `PREFILL_WINDOW`. -/
def prefillWindow : Nat := 64

/-- `LARGE_PREFILL_WINDOW`. -/
def largePrefillWindow : Nat := 32

/-- `PREFILL_MAX_KV`. -/
def prefillMaxKv : Nat := 128

/-- `LARGE_MAX_KV`. -/
def largeMaxKv : Nat := 256

/-- `TINY_MAX_KV`. -/
def tinyMaxKv : Nat := 4

/-- `default_shape_profile`. -/
def defaultShapeProfile (architecture : ArchitecturePackage) : ShapeProfile :=
  let get := fun key => ((architecture.resolvedConfig.values.get key).bind Json.asU64).map asU32
  let vocab := (get "vocab_size").getD 32
  let hidden := (get "hidden_size").getD 64
  let heads := (get "num_heads").getD 4
  let layers := (get "num_layers").getD 1
  let synthetic := vocab == 32 && hidden == 64 && heads == 4
  let large := decide (50000 < vocab ∨ 16 < layers ∨ 1024 ≤ hidden)
  let defaultPrefill := if synthetic then tinyPrefillWindow else if large then largePrefillWindow else prefillWindow
  let defaultMaxKv := if synthetic then tinyMaxKv else if large then largeMaxKv else prefillMaxKv
  let prefill := max ((get "prefill_window").getD defaultPrefill) 1
  { batchSizes := [1]
    sequenceBuckets := [prefill]
    maxSequenceLength := max ((get "max_kv").getD defaultMaxKv) prefill }

/-! ## The bound model -/

/-- The attention operations of a graph. -/
def ArchitectureGraph.attentionOps (graph : ArchitectureGraph) : List String :=
  (graph.operations.filter (·.kind.isAttention)).map (·.id)

/-- The kernel an attention operation runs over a paged cache. -/
def SelectedKernel.onPages (selected : SelectedKernel) : SelectedKernel :=
  { selected with kernelId := "attention.online_paged.generated.f32", loweringId := "attention.online_paged.generated" }

/-- The kernels of a paged model: attention runs online over pages. -/
def pagedKernels (graph : ArchitectureGraph) (selectedKernels : List SelectedKernel) : List SelectedKernel :=
  selectedKernels.map fun selected =>
    if selected.operationId ∈ graph.attentionOps then selected.onPages else selected

namespace ShapeProfile

variable (shape : ShapeProfile)

def requestedPrefill : Nat := max (shape.sequenceBuckets.headD 1) 1

def maxKv : Nat := max shape.maxSequenceLength shape.requestedPrefill

/-- Longer than one chunk: the cache is paged. -/
def paged : Bool := decide (pagedPrefillChunkSize < shape.maxKv)

def prefill : Nat := if shape.paged then pagedPrefillChunkSize else shape.requestedPrefill

def executionShapes : List SpecializedExecutionShape :=
  [⟨.prefill, shape.batchSizes.headD 1, shape.prefill, shape.maxKv⟩,
    ⟨.decode, shape.batchSizes.headD 1, 1, shape.maxKv⟩]

end ShapeProfile

/-- `build_bound_model`. -/
def buildBoundModel (architecture : ArchitecturePackage) (binding : BindingPlan) (target : TargetProfile)
    (precisionPolicy : PrecisionPolicy) (selectedKernels : List SelectedKernel) (shape : ShapeProfile) :
    Except DynInferError BoundModel := do
  verifyArchitectureGraph architecture.graph
  return {
    architecture := architecture.graph
    resolvedConfig := architecture.resolvedConfig.values
    binding
    executionShapes := shape.executionShapes
    target
    precisionPolicy
    selectedKernels := if shape.paged then pagedKernels architecture.graph selectedKernels else selectedKernels }

/-! ## The checks of the selected kernels -/

/-- `implements_lowering`: a registered definition has a candidate of this operation and lowering. -/
def QuantizationRegistry.implementsLowering (registry : QuantizationRegistry) (operation : KernelOperationKind)
    (lowering : String) : Bool :=
  registry.definitions.any fun definition => definition.kernelCandidates.any fun candidate =>
    candidate.operation == operation && candidate.lowering == lowering

/-- `registered_parameter_lowering_matches`. -/
def registeredParameterLoweringMatches (operation : OperationKind) (lowering : String) : Bool :=
  defaultQuantizationRegistry.toOption.any (·.implementsLowering (.fromSemantic operation) lowering)

/-- `lowering_matches_operation`. -/
def loweringMatchesOperation (operation : OperationKind) (lowering : String) : Bool :=
  match operation with
  | .input => lowering == "model.input.abi"
  | .embedding => lowering == "dense.gather.linalg" || registeredParameterLoweringMatches operation lowering
  | .linear _ | .outputProjection =>
    lowering == "dense.matmul.linalg" || registeredParameterLoweringMatches operation lowering
  | .rmsNorm _ => lowering == "dense.rms_norm.generated"
  | .perHeadRmsNorm .. => lowering == "dense.per_head_rms_norm.generated"
  | .rope .. => lowering == "rope.generated"
  | .kvCacheWrite .. => lowering == "kv_cache.write.generated"
  | .kvCacheRead .. => lowering == "kv_cache.read.generated"
  | .attention .. => lowering == "attention.gqa.generated" || lowering == "attention.online_paged.generated"
  | .shortConv .. => lowering == "short_conv.gated.generated"
  | .elementwise .silu => lowering == "elementwise.silu.generated"
  | .elementwise .multiply => lowering == "elementwise.multiply.generated"
  | .residual => lowering == "residual.add.generated"

/-- Everything is `f32`, unless the input is `i64`. -/
def computesF32 (inputType outputType activationType accumulatorType : ScalarType) : Bool :=
  inputType == .i64 || (inputType == .f32 && outputType == .f32 && activationType == .f32 && accumulatorType == .f32)

def SelectedKernel.computesF32 (selected : SelectedKernel) : Bool :=
  Dyninfer.computesF32 selected.inputType selected.outputType selected.activationType selected.accumulatorType

/-- The name of a mode, as a derived `Debug` prints it. -/
def ExecutionMode.debug : ExecutionMode → String
  | .prefill => "Prefill"
  | .decode => "Decode"

deriving instance Repr for OperationKind

def loweringError (message pass : String) : DynInferError := .compilation { message, pass := some pass }

/-- One operation in one mode; a derived `Repr` stands for `Debug` of its kind. -/
def validateLowering (selectedKernels : List SelectedKernel) (operation : ArchitectureOperation)
    (mode : ExecutionMode) : Except DynInferError Unit :=
  match selectedKernels.find? fun selected => selected.operationId == operation.id && selected.mode == mode with
  | none => .error (loweringError s!"operation `{operation.id}` has no selected lowering for {mode.debug}"
      "lower.bound_model")
  | some selected =>
    if !selected.computesF32 then
      .error (loweringError
        s!"selected kernel `{selected.kernelId}` requires {selected.inputType.debug}/{selected.outputType.debug}/{selected.activationType.debug}/{selected.accumulatorType.debug}, but the current shared lowering is qualified only for f32 compute"
        "lower.precision")
    else if !loweringMatchesOperation operation.kind selected.loweringId then
      .error (loweringError
        s!"selected lowering `{selected.loweringId}` does not implement operation `{operation.id}` ({reprStr operation.kind})"
        "lower.dispatch")
    else .ok ()

/-- `validate_bound_model_lowerings`. -/
def validateBoundModelLowerings (bound : BoundModel) : Except DynInferError Unit :=
  bound.architecture.operations.forM fun operation =>
    bound.architecture.exportModes.forM (validateLowering bound.selectedKernels operation)

end Dyninfer
