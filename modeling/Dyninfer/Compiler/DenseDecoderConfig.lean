/-
The lowering's own configuration
(`dyninfer-compiler/src/lowering/dense_decoder.rs`): the numbers of the
decoder, re-read from the resolved configuration under several keys with
fixture defaults, and the flags and parameter tables scanned out of the bound
model.
-/
import Dyninfer.Architecture.Models
import Dyninfer.Core.Bound

namespace Dyninfer

/-- `PAGED_KV_PAGE_SIZE`. -/
def pagedKvPageSize : Nat := 256

/-- `PAGED_PREFILL_CHUNK_SIZE`. -/
def pagedPrefillChunkSize : Nat := 512

/-- `TINY_PREFILL_WINDOW`. -/
def tinyPrefillWindow : Nat := 4

structure DenseDecoderConfig where
  vocab : Nat
  hidden : Nat
  intermediate : Nat
  numHeads : Nat
  numKvHeads : Nat
  headDim : Nat
  numLayers : Nat
  convDim : Nat
  convKernel : Nat
  seq : Nat
  maxKv : Nat
  pageSize : Nat
  pagedKv : Bool
  ireeFlashAttention : Bool
  rmsNormEps : Float32
  ropeTheta : Option Float32
  hasQkNorm : Bool
  paramKeys : AssocMap String String
  paramDtypes : AssocMap String ScalarType
  paramComputeDtypes : AssocMap String ScalarType
  paramBindings : AssocMap String ParameterBinding
  paramLowerings : AssocMap (String × ExecutionMode) String
  resolvedLayerTypes : AssocMap Nat LayerKind

/-- The `u` closure: the first key with an unsigned value, as `u32`. -/
def readU32 (config : MetadataMap) (keys : List String) (default : Nat) : Nat :=
  match keys.findSome? fun key => (config.get key).bind Json.asU64 with
  | some n => asU32 n
  | none => default

/-- The `f` closure. -/
def readF32 (config : MetadataMap) (keys : List String) (default : Float32) : Float32 :=
  match keys.findSome? fun key => (config.get key).bind Json.asF64 with
  | some x => x.toFloat32
  | none => default

def boundParamDtype (param : ParameterBinding) : Option ScalarType :=
  match param.components with
  | { storageType := .scalar ty, .. } :: _ => some ty
  | _ => none

/-- The kind an entry of `layer_types` names; anything unknown is attention. -/
def layerTypeKind (entry : Json) : LayerKind :=
  match entry.asStr with
  | some "full_attention" => .attention
  | some "conv" => .shortConv
  | _ => .attention

def resolveLayerTypes (config : MetadataMap) : AssocMap Nat LayerKind :=
  match (config.get "layer_types").bind Json.asArray with
  | some types =>
    AssocMap.insertAll [] (fun e : Json × Nat => asU32 e.2) (fun e => layerTypeKind e.1) types.zipIdx
  | none => []

/-- The theta of a Rope operation. -/
def OperationKind.ropeTheta : OperationKind → Option Float
  | .rope _ _ theta => some theta
  | _ => none

def OperationKind.isPerHeadRmsNorm : OperationKind → Bool
  | .perHeadRmsNorm .. => true
  | _ => false

def OperationKind.isAttention : OperationKind → Bool
  | .attention .. => true
  | _ => false

/-- The RoPE of the emitted program: none for the fixture's dimensions or a theta that is not
positive, and 10000 where the graph has none. -/
def loweredRopeTheta (isSynthetic : Bool) (ropeTheta : Option Float32) : Option Float32 :=
  if isSynthetic then none
  else if ropeTheta.any fun t => decide (t ≤ 0.0) then none
  else ropeTheta.or (some 10000.0)

/-- The compute types and the lowerings of the parameters, from the selected kernels. -/
def scanKernels (bound : BoundModel) :
    AssocMap String ScalarType × AssocMap (String × ExecutionMode) String :=
  bound.selectedKernels.foldl (fun maps selected =>
    selected.parameterSlots.foldl (fun maps slot =>
      match bound.binding.bindings.find? (·.slotId == slot) with
      | some binding =>
        (maps.1.insert binding.canonicalName selected.activationType,
          maps.2.insert (binding.canonicalName, selected.mode) selected.loweringId)
      | none => maps) maps) ([], [])

namespace DenseDecoderConfig

/-- `from_bound_model`; `portableAttn` says that `DYNINFER_PORTABLE_ATTN` is set. -/
def fromBoundModel (portableAttn : Bool) (bound : BoundModel) : DenseDecoderConfig :=
  let cfg := bound.resolvedConfig
  let hidden := readU32 cfg ["hidden_size", "llama.embedding_length"] 64
  let numHeads := readU32 cfg ["num_heads", "llama.attention.head_count"] 4
  let vocab := readU32 cfg ["vocab_size", "llama.vocab_size"] 32
  let isSynthetic := vocab == 32 && hidden == 64 && numHeads == 4
  let seq := ((bound.executionShapes.find? (·.mode == .prefill)).map (·.sequenceLength)).getD 1
  let maxKv := ((bound.executionShapes.map (·.maxKvLength)).max?).getD seq
  let ropeTheta := (bound.architecture.operations.findSome? (·.kind.ropeTheta)).map Float.toFloat32
  let pagedKv := bound.architecture.operations.any fun operation =>
    operation.kind.isAttention && bound.selectedKernels.any fun selected =>
      selected.operationId == operation.id && selected.mode == .prefill &&
        selected.loweringId == "attention.online_paged.generated"
  let bindings := bound.binding.bindings
  { vocab, hidden
    convDim := readU32 cfg ["conv_dim"] hidden
    convKernel := readU32 cfg ["conv_kernel"] 3
    intermediate := readU32 cfg ["intermediate_size", "llama.feed_forward_length"] (u32Mul hidden 2)
    numHeads
    numKvHeads := readU32 cfg ["num_kv_heads", "llama.attention.head_count_kv"] numHeads
    headDim := readU32 cfg ["head_dim"] (hidden / max numHeads 1)
    numLayers := readU32 cfg ["num_layers", "n_layer", "block_count", "llama.block_count"] 1
    seq
    maxKv := max maxKv seq
    pageSize := pagedKvPageSize
    pagedKv
    ireeFlashAttention := bound.target.driver == "hip" && !portableAttn
    rmsNormEps := readF32 cfg ["rms_norm_eps", "llama.attention.layer_norm_rms_epsilon"] 1e-5
    ropeTheta := loweredRopeTheta isSynthetic ropeTheta
    hasQkNorm := bound.architecture.operations.any (·.kind.isPerHeadRmsNorm)
    paramKeys := AssocMap.insertAll [] (·.canonicalName)
      (fun p => ((p.components.head?).map (·.externalKey)).getD p.canonicalName) bindings
    paramDtypes := bindings.foldl (fun dtypes p =>
      match boundParamDtype p with
      | some ty => dtypes.insert p.canonicalName ty
      | none => dtypes) []
    paramComputeDtypes := (scanKernels bound).1
    paramBindings := AssocMap.insertAll [] (·.canonicalName) id bindings
    paramLowerings := (scanKernels bound).2
    resolvedLayerTypes := resolveLayerTypes cfg }

variable (c : DenseDecoderConfig)

def qDim : Nat := u32Mul c.numHeads c.headDim

def kvDim : Nat := u32Mul c.numKvHeads c.headDim

/-- `layer_kind`. -/
def layerKind (layer : Nat) : LayerKind := (c.resolvedLayerTypes.get layer).getD .attention

def paramKey (canonical : String) : String := (c.paramKeys.get canonical).getD canonical

def paramDtype (canonical : String) : ScalarType := (c.paramDtypes.get canonical).getD .f32

def paramComputeDtype (canonical : String) : ScalarType := (c.paramComputeDtypes.get canonical).getD .f32

def paramBinding (canonical : String) : Option ParameterBinding := c.paramBindings.get canonical

def paramLowering (canonical : String) (mode : ExecutionMode) : Option String :=
  c.paramLowerings.get (canonical, mode)

def useIreeAttention : Bool := c.ireeFlashAttention && decide (64 ≤ c.headDim)

def pagedKvElementType : ScalarType := if c.pagedKv && c.useIreeAttention then .f16 else .f32

def hasShortConv : Bool := c.resolvedLayerTypes.any fun e => e.2 == .shortConv

def supportsDenseEmit : Bool :=
  decide (0 < c.numHeads ∧ 0 < c.numKvHeads ∧ c.numHeads % c.numKvHeads = 0 ∧ 0 < c.headDim ∧
    c.headDim % 2 = 0 ∧ 0 < c.qDim ∧ 0 < c.kvDim ∧ 0 < c.intermediate ∧ 1 ≤ c.numLayers ∧
    c.numLayers ≤ 32 ∧ 1 ≤ c.vocab ∧ c.vocab ≤ 160000 ∧ c.hidden ≤ 2048 ∧ c.headDim ≤ 256 ∧
    c.qDim ≤ 4096 ∧ 1 ≤ c.seq ∧ c.seq ≤ (if c.pagedKv then pagedPrefillChunkSize else 256) ∧
    c.seq ≤ c.maxKv ∧ c.maxKv ≤ (if c.pagedKv then 1048576 else 512) ∧ 1 ≤ c.convDim ∧
    c.convDim ≤ max c.hidden 1 ∧ 1 ≤ c.convKernel ∧ c.convKernel ≤ 16)

end DenseDecoderConfig

end Dyninfer
