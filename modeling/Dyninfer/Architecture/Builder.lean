/-
The typed graph builder (`dyninfer-architecture/src/builder.rs`). A helper
declares the slots it reads, the value it produces and the operation between
them, each under an id that must be new; a sublayer is its helpers in order.
`finish` hands out the graph once the conformance checks accept it.
-/
import Dyninfer.Core.Error
import Dyninfer.Core.Graph

namespace Dyninfer

/-- `Value`: a graph value the helpers pass along. -/
abbrev Value := GraphValue

structure ModelModule where
  graph : ArchitectureGraph

structure DecoderBlockSpec where
  hiddenSize : Nat
  intermediateSize : Nat
  numHeads : Nat
  numKvHeads : Nat
  headDim : Nat
  rmsNormEpsilon : Float
  ropeTheta : Option Float

structure ShortConvBlockSpec where
  hiddenSize : Nat
  channels : Nat
  kernelSize : Nat
  rmsNormEpsilon : Float

def ShortConvBlockSpec.validate (spec : ShortConvBlockSpec) : Except DynInferError Unit :=
  if spec.hiddenSize = 0 ∨ spec.channels = 0 ∨ spec.kernelSize = 0 then
    .error (.internal "short-conv dimensions and kernel size must be non-zero")
  else .ok ()

def DecoderBlockSpec.validate (spec : DecoderBlockSpec) : Except DynInferError Unit :=
  if spec.hiddenSize = 0 ∨ spec.intermediateSize = 0 ∨ spec.numHeads = 0 ∨ spec.numKvHeads = 0 ∨
      spec.headDim = 0 then
    .error (.internal "decoder block dimensions and head counts must be non-zero")
  else if spec.numHeads % spec.numKvHeads ≠ 0 then
    .error (.internal
      s!"num_heads ({spec.numHeads}) must be divisible by num_kv_heads ({spec.numKvHeads})")
  else .ok ()

/-! ## The conformance checks -/

/-- Fail with `message` unless `c`. -/
def conform (c : Bool) (message : String) : Except DynInferError Unit :=
  if c then .ok () else .error (.internal message)

/-- `BTreeSet::insert` of the ids in turn, where an id seen before is an error. -/
def insertAllNew (message : String → String) : List String → List String → Except DynInferError (List String)
  | seen, [] => .ok seen
  | seen, id :: ids =>
    if id ∈ seen then .error (.internal (message id)) else insertAllNew message (id :: seen) ids

/-- The type of a value of the graph, by its id. -/
def ArchitectureGraph.valueType (graph : ArchitectureGraph) (id : String) : Option SemanticTensorType :=
  (graph.values.find? (·.id == id)).map (·.tensorType)

/-- What the operations checked so far have declared, produced and consumed. -/
structure GraphScan where
  operationIds : List String := []
  producedValues : List String := []
  consumedSlots : List String := []

def OperationKind.isBinary : OperationKind → Bool
  | .residual | .elementwise .multiply => true
  | _ => false

def verifyOperation (graph : ArchitectureGraph) (valueIds slotIds : List String) (scan : GraphScan)
    (operation : ArchitectureOperation) : Except DynInferError GraphScan := do
  let operationIds ← insertAllNew (fun id => s!"duplicate architecture operation `{id}`")
    scan.operationIds [operation.id]
  operation.inputs.forM fun input =>
    conform (valueIds.contains input) s!"operation `{operation.id}` references unknown input `{input}`"
  let producedValues ← operation.outputs.foldlM (fun produced output => do
    conform (valueIds.contains output) s!"operation `{operation.id}` references unknown output `{output}`"
    insertAllNew (fun id => s!"graph value `{id}` has multiple producers") produced [output])
    scan.producedValues
  operation.parameters.forM fun parameter =>
    conform (slotIds.contains parameter)
      s!"operation `{operation.id}` references unknown parameter slot `{parameter}`"
  if operation.kind.isBinary then
    conform (match operation.inputs with
        | [left, right] => graph.valueType left == graph.valueType right
        | _ => false)
      s!"binary operation `{operation.id}` requires two equal tensor types"
  return ⟨operationIds, producedValues, scan.consumedSlots ++ operation.parameters⟩

def verifyExport (valueIds : List String) (names : List String) (e : ArchitectureExport) :
    Except DynInferError (List String) := do
  let names ← insertAllNew (fun name => s!"duplicate architecture export `{name}`") names [e.name]
  conform (!e.outputs.isEmpty) s!"architecture export `{e.name}` has no output"
  (e.inputs ++ e.outputs).forM fun value =>
    conform (valueIds.contains value) s!"architecture export `{e.name}` references unknown value `{value}`"
  return names

/-- `verify_architecture_graph`. -/
def verifyArchitectureGraph (graph : ArchitectureGraph) : Except DynInferError Unit := do
  conform (graph.version == 1) s!"unsupported Architecture IR version {graph.version}"
  let valueIds ← insertAllNew (fun id => s!"duplicate graph value `{id}`") [] (graph.values.map (·.id))
  let slotIds ← insertAllNew (fun id => s!"duplicate parameter slot `{id}`") []
    (graph.parameterSlots.map (·.id))
  let scan ← graph.operations.foldlM (verifyOperation graph valueIds slotIds) {}
  graph.values.forM fun value =>
    conform (scan.producedValues.contains value.id) s!"graph value `{value.id}` has no producer"
  graph.parameterSlots.forM fun slot =>
    conform (slot.optional || scan.consumedSlots.contains slot.id)
      s!"required parameter slot `{slot.id}` has no consuming operation"
  let _ ← graph.exports.foldlM (verifyExport valueIds) []
  return ()

/-- `verify_architecture_conformance`. -/
def verifyArchitectureConformance (graph : ArchitectureGraph) : Except DynInferError Unit := do
  verifyArchitectureGraph graph
  [("prefill", ExecutionMode.prefill), ("decode", .decode)].forM fun (name, mode) =>
    conform (graph.exports.any fun e => e.name == name && e.mode == mode)
      s!"architecture `{graph.architectureId}` is missing its `{name}` export"

/-! ## The builder -/

structure ModelBuilder where
  architectureId : Option String := none
  slots : List ParameterSlot := []
  values : List GraphValue := []
  operations : List ArchitectureOperation := []
  exports : List ArchitectureExport := []
  primaryInput : Option String := none

/-- A helper of the builder. -/
abbrev BuilderM := EStateM DynInferError ModelBuilder

namespace ModelBuilder

/-- `?` on a result that does not touch the builder. -/
def lift {α : Type} (x : Except DynInferError α) : BuilderM α :=
  match x with
  | .ok a => pure a
  | .error e => throw e

def setArchitectureId (id : String) : BuilderM Unit :=
  modify fun b => { b with architectureId := some id }

def declareParameter (slot : ParameterSlot) : BuilderM Unit := do
  if (← get).slots.any (·.id == slot.id) then
    throw (.internal s!"duplicate parameter slot `{slot.id}`")
  modify fun b => { b with slots := b.slots ++ [slot] }

def pushSlot (name : String) (role : ParameterRole) (rank : Nat) : BuilderM String := do
  declareParameter {
    id := name, canonicalName := name, role
    expectedType := { rank := some rank, shape := none, elementTypes := [.bf16, .f16, .f32] }
    optional := false, tiedGroup := none }
  return name

def value (id : String) (tensorType : SemanticTensorType) : BuilderM Value := do
  if (← get).values.any (·.id == id) then throw (.internal s!"duplicate graph value `{id}`")
  modify fun b => { b with values := b.values ++ [⟨id, tensorType⟩] }
  return ⟨id, tensorType⟩

def operation (id : String) (kind : OperationKind) (inputs outputs : List Value) (parameters : List String) :
    BuilderM Unit := do
  if (← get).operations.any (·.id == id) then
    throw (.internal s!"duplicate architecture operation `{id}`")
  modify fun b => { b with operations := b.operations ++
    [{ id, kind, inputs := inputs.map (·.id), outputs := outputs.map (·.id), parameters }] }

def unary (id : String) (kind : OperationKind) (input : Value) (outputType : SemanticTensorType)
    (parameters : List String) : BuilderM Value := do
  let output ← value s!"{id}.output" outputType
  operation id kind [input] [output] parameters
  return output

def inputTokens (name : String) : BuilderM Value := do
  if (← get).primaryInput.isSome then
    throw (.internal "an architecture graph may declare only one primary token input")
  let tokens ← value name .tokens
  operation s!"input.{name}" .input [] [tokens] []
  modify fun b => { b with primaryInput := some tokens.id }
  return tokens

def embedding (operationId : String) (tokens : Value) (weight : String) (hiddenSize : Nat) : BuilderM Value := do
  let slot ← pushSlot weight .embedding 2
  unary operationId .embedding tokens (.activations hiddenSize) [slot]

def linear (operationId : String) (input : Value) (weight : String) (outputWidth : Nat)
    (role : ParameterRole) : BuilderM Value := do
  let slot ← pushSlot weight role 2
  unary operationId (.linear role) input (.activations outputWidth) [slot]

def rmsNorm (operationId : String) (input : Value) (weight : String) (epsilon : Float) : BuilderM Value := do
  let slot ← pushSlot weight .norm 1
  unary operationId (.rmsNorm epsilon) input input.tensorType [slot]

def perHeadRmsNorm (operationId : String) (input : Value) (weight : String) (epsilon : Float)
    (headCount headDim : Nat) : BuilderM Value := do
  let slot ← pushSlot weight .norm 1
  unary operationId (.perHeadRmsNorm epsilon headCount headDim) input input.tensorType [slot]

def rope (operationId : String) (input : Value) (headCount headDim : Nat) (theta : Float) : BuilderM Value :=
  unary operationId (.rope headCount headDim theta) input input.tensorType []

def cacheWrite (operationId : String) (input : Value) (layer : Nat) (component : KvCacheComponent) :
    BuilderM Unit :=
  operation operationId (.kvCacheWrite layer component) [input] [] []

def cacheRead (operationId : String) (current : Value) (layer : Nat) (component : KvCacheComponent)
    (headCount headDim : Nat) : BuilderM Value :=
  unary operationId (.kvCacheRead layer component) current (.kvCache headCount headDim) []

def attention (operationId : String) (query keyCache valueCache : Value) (spec : DecoderBlockSpec) :
    BuilderM Value := do
  let output ← value s!"{operationId}.output" (.activations (u32Mul spec.numHeads spec.headDim))
  operation operationId (.attention spec.numHeads spec.numKvHeads spec.headDim true)
    [query, keyCache, valueCache] [output] []
  return output

def elementwiseUnary (operationId : String) (input : Value) (function : ElementwiseFunction) : BuilderM Value :=
  unary operationId (.elementwise function) input input.tensorType []

def binary (operationId : String) (kind : OperationKind) (left right : Value) : BuilderM Value := do
  if left.tensorType ≠ right.tensorType then
    throw (.internal s!"operation `{operationId}` requires equal input tensor types")
  let output ← value s!"{operationId}.output" left.tensorType
  operation operationId kind [left, right] [output] []
  return output

def shortConv (operationId : String) (input : Value) (weight : String) (layer channels kernelSize : Nat) :
    BuilderM Value := do
  let slot ← pushSlot weight (.other "shortconv.conv") 3
  unary operationId (.shortConv layer channels kernelSize) input (.activations channels) [slot]

/-! ## Sublayers -/

/-- The q/k norms of an attention sublayer that has them. -/
def qkNorm (blk : String) (hasQkNorm : Bool) (query key : Value) (spec : DecoderBlockSpec) :
    BuilderM (Value × Value) :=
  if hasQkNorm then do
    let query ← perHeadRmsNorm s!"{blk}.attn_q_norm" query s!"{blk}.attn_q_norm.weight" spec.rmsNormEpsilon
      spec.numHeads spec.headDim
    let key ← perHeadRmsNorm s!"{blk}.attn_k_norm" key s!"{blk}.attn_k_norm.weight" spec.rmsNormEpsilon
      spec.numKvHeads spec.headDim
    return (query, key)
  else pure (query, key)

/-- The rotations of an attention sublayer whose spec has a theta. -/
def qkRope (blk : String) (query key : Value) (spec : DecoderBlockSpec) : BuilderM (Value × Value) :=
  match spec.ropeTheta with
  | some theta => do
    let query ← rope s!"{blk}.attn_q_rope" query spec.numHeads spec.headDim theta
    let key ← rope s!"{blk}.attn_k_rope" key spec.numKvHeads spec.headDim theta
    return (query, key)
  | none => pure (query, key)

def attentionSublayer (input : Value) (layer : Nat) (hasQkNorm : Bool) (spec : DecoderBlockSpec) :
    BuilderM Value := do
  lift spec.validate
  let blk := s!"blk.{layer}"
  let normalized ← rmsNorm s!"{blk}.attn_norm" input s!"{blk}.attn_norm.weight" spec.rmsNormEpsilon
  let qDim := u32Mul spec.numHeads spec.headDim
  let kvDim := u32Mul spec.numKvHeads spec.headDim
  let query ← linear s!"{blk}.attn_q" normalized s!"{blk}.attn_q.weight" qDim .attentionQ
  let key ← linear s!"{blk}.attn_k" normalized s!"{blk}.attn_k.weight" kvDim .attentionK
  let val ← linear s!"{blk}.attn_v" normalized s!"{blk}.attn_v.weight" kvDim .attentionV
  let (query, key) ← qkNorm blk hasQkNorm query key spec
  let (query, key) ← qkRope blk query key spec
  cacheWrite s!"{blk}.key_cache_write" key layer .key
  cacheWrite s!"{blk}.value_cache_write" val layer .value
  let keyCache ← cacheRead s!"{blk}.key_cache_read" key layer .key spec.numKvHeads spec.headDim
  let valueCache ← cacheRead s!"{blk}.value_cache_read" val layer .value spec.numKvHeads spec.headDim
  let attended ← attention s!"{blk}.attention" query keyCache valueCache spec
  let projected ← linear s!"{blk}.attn_output" attended s!"{blk}.attn_output.weight" spec.hiddenSize .attentionO
  binary s!"{blk}.attn_residual" .residual input projected

def shortConvSublayer (input : Value) (layer : Nat) (spec : ShortConvBlockSpec) : BuilderM Value := do
  lift spec.validate
  let blk := s!"blk.{layer}"
  let normalized ← rmsNorm s!"{blk}.attn_norm" input s!"{blk}.attn_norm.weight" spec.rmsNormEpsilon
  let gates ← linear s!"{blk}.shortconv_in" normalized s!"{blk}.shortconv.in_proj.weight"
    (u32Mul 3 spec.channels) (.other "shortconv.in")
  let mixed ← shortConv s!"{blk}.shortconv" gates s!"{blk}.shortconv.conv.weight" layer spec.channels
    spec.kernelSize
  let projected ← linear s!"{blk}.shortconv_out" mixed s!"{blk}.shortconv.out_proj.weight" spec.hiddenSize
    (.other "shortconv.out")
  binary s!"{blk}.shortconv_residual" .residual input projected

def feedForwardSublayer (input : Value) (layer : Nat) (spec : DecoderBlockSpec) : BuilderM Value := do
  let blk := s!"blk.{layer}"
  let ffnInput ← rmsNorm s!"{blk}.ffn_norm" input s!"{blk}.ffn_norm.weight" spec.rmsNormEpsilon
  let gate ← linear s!"{blk}.ffn_gate" ffnInput s!"{blk}.ffn_gate.weight" spec.intermediateSize .ffnGate
  let up ← linear s!"{blk}.ffn_up" ffnInput s!"{blk}.ffn_up.weight" spec.intermediateSize .ffnUp
  let activated ← elementwiseUnary s!"{blk}.ffn_silu" gate .silu
  let gated ← binary s!"{blk}.ffn_multiply" (.elementwise .multiply) activated up
  let down ← linear s!"{blk}.ffn_down" gated s!"{blk}.ffn_down.weight" spec.hiddenSize .ffnDown
  binary s!"{blk}.ffn_residual" .residual input down

def decoderBlock (input : Value) (layer : Nat) (hasQkNorm : Bool) (spec : DecoderBlockSpec) :
    BuilderM Value := do
  let afterAttention ← attentionSublayer input layer hasQkNorm spec
  feedForwardSublayer afterAttention layer spec

def finalRmsNorm (operationId : String) (input : Value) (weight : String) (epsilon : Float) : BuilderM Value :=
  rmsNorm operationId input weight epsilon

def outputProjection (operationId : String) (input : Value) (weight : String) (vocabSize : Nat) :
    BuilderM Value := do
  let slot ← pushSlot weight .output 2
  unary operationId .outputProjection input (.activations vocabSize) [slot]

def exportPrefillAndDecode (logits : Value) : BuilderM Unit := do
  match (← get).primaryInput with
  | none => throw (.internal "model has no token input")
  | some input =>
    modify fun b => { b with exports := b.exports ++
      [⟨"prefill", .prefill, [input], [logits.id]⟩, ⟨"decode", .decode, [input], [logits.id]⟩] }

def finish : BuilderM ModelModule := do
  match (← get).architectureId with
  | none => throw (.internal "ModelBuilder missing architecture_id")
  | some architectureId =>
    let b ← get
    set ({ b with architectureId := none, slots := [], values := [], operations := [], exports := [] } :
      ModelBuilder)
    let graph : ArchitectureGraph := {
      version := 1, architectureId, values := b.values, operations := b.operations
      parameterSlots := b.slots, exports := b.exports }
    lift (verifyArchitectureConformance graph)
    return ⟨graph⟩

end ModelBuilder

end Dyninfer
