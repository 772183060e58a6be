/-
The registered architectures (`dyninfer-architecture/src/models`): Llama,
Qwen3 and the LFM2 hybrid, each with its configuration schema and the graph it
builds. Llama and Qwen3 repeat one decoder block, Qwen3 with the q/k norms;
LFM2 follows its `layer_types` schedule.
-/
import Dyninfer.Architecture.Builder
import Dyninfer.Architecture.Config

namespace Dyninfer

open ModelBuilder

/-- The operator of a layer; `lfm2.rs` and `dense_decoder.rs` declare it alike. -/
inductive LayerKind where
  | attention | shortConv
  deriving DecidableEq, Repr

/-- `slots::field`. -/
def field (name : String) (required : Bool) (default : Option Json) : ConfigField :=
  { name, required, default }

/-- The fields every decoder declares, with its defaults. -/
def decoderFields (numLayers numHeads numKvHeads headDim hiddenSize intermediateSize vocabSize
    contextLength : Nat) : List ConfigField :=
  [field "num_layers" true (some (.ofNat numLayers)),
    field "num_heads" true (some (.ofNat numHeads)),
    field "num_kv_heads" true (some (.ofNat numKvHeads)),
    field "head_dim" true (some (.ofNat headDim)),
    field "hidden_size" true (some (.ofNat hiddenSize)),
    field "intermediate_size" true (some (.ofNat intermediateSize)),
    field "vocab_size" true (some (.ofNat vocabSize)),
    field "context_length" true (some (.ofNat contextLength))]

/-- The compile-time specialization shapes a configuration may set. -/
def shapeFields : List ConfigField :=
  [field "prefill_window" false none, field "max_kv" false none]

/-- A decoder of `num_layers` equal blocks, as `llama.rs` and `qwen3.rs` build it. -/
def buildDecoder (hasQkNorm : Bool) (config : ResolvedModelConfig) : BuilderM ModelModule := do
  let numLayers ← lift config.numLayers
  let hidden ← lift (config.getU32 "hidden_size")
  let vocab ← lift (config.getU32 "vocab_size")
  let block : DecoderBlockSpec := {
    hiddenSize := hidden
    intermediateSize := ← lift (config.getU32 "intermediate_size")
    numHeads := ← lift (config.getU32 "num_heads")
    numKvHeads := ← lift (config.getU32 "num_kv_heads")
    headDim := ← lift (config.getU32 "head_dim")
    rmsNormEpsilon := ← lift (config.getF64 "rms_norm_eps")
    ropeTheta := (config.values.get "rope_theta").bind Json.asF64 }
  let tokens ← inputTokens "tokens"
  let x ← embedding "token_embedding" tokens "token_embd.weight" hidden
  let x ← (List.range numLayers).foldlM (fun x layer => decoderBlock x layer hasQkNorm block) x
  let x ← finalRmsNorm "output_norm" x "output_norm.weight" block.rmsNormEpsilon
  let logits ← outputProjection "output_projection" x "output.weight" vocab
  exportPrefillAndDecode logits
  finish

namespace LlamaArchitecture

def id : String := "llama.decoder"

def revision : String := "0.2.0"

def configSchema : ConfigSchema where
  fields := decoderFields 2 4 4 64 256 512 32000 2048 ++
    [field "rms_norm_eps" false (some (.number (.float 1e-5))), field "rope_theta" false none] ++ shapeFields

def build : ResolvedModelConfig → BuilderM ModelModule := buildDecoder false

end LlamaArchitecture

namespace Qwen3Architecture

def id : String := "qwen3.decoder"

def revision : String := "0.1.0"

def configSchema : ConfigSchema where
  fields := decoderFields 28 16 8 128 1024 3072 151936 40960 ++
    [field "rms_norm_eps" false (some (.number (.float 1e-6))),
      field "rope_theta" false (some (.number (.float 1000000.0)))] ++ shapeFields

def build : ResolvedModelConfig → BuilderM ModelModule := buildDecoder true

end Qwen3Architecture

namespace Lfm2Architecture

def id : String := "lfm2.hybrid"

def revision : String := "0.1.0"

def attentionLayer : String := "full_attention"

def convLayer : String := "conv"

def configSchema : ConfigSchema where
  fields := decoderFields 3 4 2 64 256 512 32000 4096 ++
    [field "layer_types" true (some (.array [.string convLayer, .string convLayer, .string attentionLayer])),
      field "rms_norm_eps" false (some (.number (.float 1e-5))),
      field "rope_theta" false (some (.number (.float 1000000.0))),
      field "conv_kernel" false (some (.ofNat 3)),
      field "conv_dim" false none] ++ shapeFields

/-- One entry of the schedule. -/
def scheduleEntry (entry : Json × Nat) : Except DynInferError LayerKind :=
  match entry.1.asStr with
  | some "full_attention" => .ok .attention
  | some "conv" => .ok .shortConv
  | other =>
    let shown := match other with
      | some s => "Some(" ++ s.quote ++ ")"
      | none => "None"
    .error (.config s!"unsupported `layer_types[{entry.2}]` value {shown}; expected `{attentionLayer}` or `{convLayer}`")

/-- `layer_schedule`: the explicit schedule, one entry a layer. -/
def layerSchedule (config : ResolvedModelConfig) (numLayers : Nat) : Except DynInferError (List LayerKind) :=
  match (config.values.get "layer_types").bind Json.asArray with
  | none => .error (.config "config field `layer_types` missing or not an array")
  | some entries =>
    if entries.length ≠ numLayers then
      .error (.config s!"`layer_types` has {entries.length} entries but `num_layers` is {numLayers}")
    else entries.zipIdx.mapM scheduleEntry

/-- The operator sublayer of a layer. -/
def operatorSublayer (block : DecoderBlockSpec) (shortConv : ShortConvBlockSpec) (x : Value) (layer : Nat) :
    LayerKind → BuilderM Value
  | .attention => attentionSublayer x layer true block
  | .shortConv => shortConvSublayer x layer shortConv

def buildLayer (block : DecoderBlockSpec) (shortConv : ShortConvBlockSpec) (x : Value)
    (entry : LayerKind × Nat) : BuilderM Value := do
  let layer := asU32 entry.2
  let x ← operatorSublayer block shortConv x layer entry.1
  feedForwardSublayer x layer block

def build (config : ResolvedModelConfig) : BuilderM ModelModule := do
  let numLayers ← lift config.numLayers
  let hidden ← lift (config.getU32 "hidden_size")
  let vocab ← lift (config.getU32 "vocab_size")
  let rmsNormEpsilon ← lift (config.getF64 "rms_norm_eps")
  let schedule ← lift (layerSchedule config numLayers)
  let block : DecoderBlockSpec := {
    hiddenSize := hidden
    intermediateSize := ← lift (config.getU32 "intermediate_size")
    numHeads := ← lift (config.getU32 "num_heads")
    numKvHeads := ← lift (config.getU32 "num_kv_heads")
    headDim := ← lift (config.getU32 "head_dim")
    rmsNormEpsilon
    ropeTheta := (config.values.get "rope_theta").bind Json.asF64 }
  let shortConv : ShortConvBlockSpec := {
    hiddenSize := hidden
    channels := (config.getU32 "conv_dim").toOption.getD hidden
    kernelSize := ← lift (config.getU32 "conv_kernel")
    rmsNormEpsilon }
  let tokens ← inputTokens "tokens"
  let x ← embedding "token_embedding" tokens "token_embd.weight" hidden
  let x ← schedule.zipIdx.foldlM (buildLayer block shortConv) x
  let x ← finalRmsNorm "output_norm" x "output_norm.weight" rmsNormEpsilon
  let logits ← outputProjection "output_projection" x "output.weight" vocab
  exportPrefillAndDecode logits
  finish

end Lfm2Architecture

/-! ## The registry -/

/-- The registered architectures (`register_all`). -/
inductive Architecture where
  | llama | qwen3 | lfm2
  deriving DecidableEq, Repr

namespace Architecture

def id : Architecture → String
  | .llama => LlamaArchitecture.id
  | .qwen3 => Qwen3Architecture.id
  | .lfm2 => Lfm2Architecture.id

def revision : Architecture → String
  | .llama => LlamaArchitecture.revision
  | .qwen3 => Qwen3Architecture.revision
  | .lfm2 => Lfm2Architecture.revision

def configSchema : Architecture → ConfigSchema
  | .llama => LlamaArchitecture.configSchema
  | .qwen3 => Qwen3Architecture.configSchema
  | .lfm2 => Lfm2Architecture.configSchema

def build : Architecture → ResolvedModelConfig → BuilderM ModelModule
  | .llama => LlamaArchitecture.build
  | .qwen3 => Qwen3Architecture.build
  | .lfm2 => Lfm2Architecture.build

end Architecture

structure ArchitecturePackage where
  id : String
  revision : String
  graph : ArchitectureGraph
  resolvedConfig : ResolvedModelConfig

def ArchitecturePackage.fromModule (module : ModelModule) (resolvedConfig : ResolvedModelConfig)
    (revision : String) : ArchitecturePackage :=
  { id := module.graph.architectureId, revision, graph := module.graph, resolvedConfig }

namespace ArchitectureRegistry

def get (id : String) : Option Architecture :=
  [Architecture.llama, .qwen3, .lfm2].find? (·.id == id)

def require (id : String) : Except DynInferError Architecture :=
  match get id with
  | some architecture => .ok architecture
  | none => .error (.architectureMismatch
      { message := s!"unknown architecture `{id}`", architectureId := some id })

/-- The package of an architecture, from a configuration. -/
def buildWithConfig (architecture : Architecture) (config : ResolvedModelConfig) :
    Except DynInferError ArchitecturePackage :=
  match (architecture.build config).run { architectureId := some architecture.id } with
  | .ok module _ => .ok (.fromModule module config architecture.revision)
  | .error e _ => .error e

def buildPackage (id : String) (overrides checkpointMeta : MetadataMap) :
    Except DynInferError ArchitecturePackage := do
  let architecture ← require id
  let config ← architecture.configSchema.resolve overrides checkpointMeta []
  buildWithConfig architecture config

end ArchitectureRegistry

end Dyninfer
