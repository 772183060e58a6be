/-
`IreeSession` (`dyninfer-runtime/src/session.rs`): the session that prefills
once and then decodes against the KV state of an IREE context.

A context is whatever answers the five calls a session makes; its state is a
type `D` of its own, so one model of the session serves a context that fails
at will, one that records its calls, and the C shim with its pool of planes.
A call that fails keeps the state it reached, and so does every session
method: the early returns of the source are the `require`s and the failing
calls below, in the source's order.

The reused bias buffer, the tracing spans and the KV metrics are left out:
nothing a later call does depends on them.
-/
import Dyninfer.Core.Error
import Dyninfer.Core.Json
import Dyninfer.Core.Types
import Dyninfer.Lib.Effect
import Dyninfer.Lib.Rows

namespace Dyninfer

open Effect Rows

/-- What the host code uses of `f32`: the comparison of `argmax` and the constants it writes. -/
class HostFloat (F : Type) where
  gt : F → F → Bool
  negInfinity : F
  zero : F
  /-- `-1.0e7`, the bias of a masked key. -/
  masked : F
  masked_ne_zero : masked ≠ zero

/-- Whole numbers as logits. -/
instance : HostFloat Nat where
  gt x y := y < x
  negInfinity := 0
  zero := 0
  masked := 1
  masked_ne_zero := by decide

/-- `generate::argmax`: the index of the first strict maximum. -/
def argmax {F : Type} [HostFloat F] (logits : List F) : TokenId :=
  let best := logits.zipIdx.foldl
    (fun (best : Nat × F) v => if HostFloat.gt v.1 best.2 then (v.2, v.1) else best)
    (0, HostFloat.negInfinity)
  UInt32.ofNat best.1

/-- `fill_causal_attn_bias`: nothing up to `pos`, a masking bias behind it. -/
def fillCausalAttnBias (F : Type) [HostFloat F] (pos : Int) (maxKv : Nat) : List F :=
  (List.range (max maxKv 1)).map fun (j : Nat) =>
    if (j : Int) > pos then HostFloat.masked else HostFloat.zero

/-- The context calls of a session, over a context state `D` and logits of `F`. -/
structure Context (F D : Type) where
  resetPagedKv : EStateM DynInferError D Unit
  ensureKvPages : Nat → EStateM DynInferError D Unit
  /-- Window, last row, start position and whether the logits are wanted. -/
  invokePagedChunkEx : List Int → Int → Int → Bool → EStateM DynInferError D (Option (List F) × Int)
  invokePrefill : List Int → Int → EStateM DynInferError D (List F)
  invokeDecode : Int → Int → List F → EStateM DynInferError D (List F)

/-- `Option::expect`; the panic is an error that nothing recovers from. -/
def expect {α D : Type} (x : Option α) (message : String) : EStateM DynInferError D α :=
  match x with
  | some a => pure a
  | none => throw (.internal message)

/-- `Context::invoke_paged_chunk`. -/
def Context.invokePagedChunk {F D : Type} (ctx : Context F D) (tokens : List Int) (last start : Int) :
    EStateM DynInferError D (List F) := do
  let r ← ctx.invokePagedChunkEx tokens last start true
  expect r.1 "want_logits"

/-- The fields of `IreeSession` that its methods only read. -/
structure IreeSession where
  vocabularySize : Nat
  config : SessionConfig
  kv : KvCacheDescriptor
  prefillWindow : Nat
  padTokenId : TokenId
  deriving DecidableEq, Repr

/-- The fields of `IreeSession` that its methods write, and the state of its context. -/
structure SessionState (D : Type) where
  position : Nat
  history : List TokenId
  context : D
  deriving DecidableEq, Repr

/-- `ModelMetadata`; a session reads the vocabulary and the extra entries. -/
structure ModelMetadata where
  architectureId : String := ""
  architectureRevision : String := ""
  vocabularySize : Nat
  contextLength : Nat := 0
  numLayers : Nat := 0
  numHeads : Nat := 0
  numKvHeads : Nat := 0
  headDim : Nat := 0
  hiddenSize : Nat := 0
  extra : MetadataMap := []

namespace IreeSession

/-- `IreeSession::new`, apart from the empty initial state (`SessionState.new`). -/
def new (metadata : ModelMetadata) (config : SessionConfig) (kv : KvCacheDescriptor)
    (prefillWindow : Nat) : IreeSession where
  vocabularySize := metadata.vocabularySize
  config := config
  kv := kv
  prefillWindow := max prefillWindow 1
  padTokenId :=
    let id := (metadata.extra.get "pad_token_id").or (metadata.extra.get "bos_token_id")
    ((id.bind Json.asU64).map UInt32.ofNat).getD 0

/-- Effective sequence cap: session config and compiled KV capacity. -/
def maxSeq (s : IreeSession) : Nat :=
  min (max s.config.maxSequenceLength 1) (max s.kv.maxSequenceLength 1)

/-- `i64::from` of a token. -/
def tokenI64 (t : TokenId) : Int := t.toNat

/-- Left-align tokens (right-pad): the window and the index of its last real token. -/
def windowFromTokens (s : IreeSession) (tokens : List TokenId) : List Int × Int :=
  let w := s.prefillWindow
  let window := List.replicate w (tokenI64 s.padTokenId)
  let n := min tokens.length w
  if n = 0 then (window, 0)
  else (insertSlice ((tokens.take n).map tokenI64) window 0, (n : Int) - 1)

def pagedGeometry (s : IreeSession) : Option (Nat × Nat) :=
  match s.kv.storage with
  | .staticGlobals => none
  | .paged pageSize chunkSize => some (pageSize, chunkSize)

/-- The page count every paged call asks the context for. -/
def maxPages (s : IreeSession) (pageSize : Nat) : Nat :=
  max ((s.maxSeq + pageSize - 1) / pageSize) 1

end IreeSession

/-- The state `IreeSession::new` starts from. -/
def SessionState.new {D : Type} (context : D) : SessionState D :=
  { position := 0, history := [], context }

section methods

variable {F D : Type} [HostFloat F] (ctx : Context F D) (s : IreeSession)

/-- A call on the session's context. -/
def onContext {α : Type} (x : EStateM DynInferError D α) : EStateM DynInferError (SessionState D) α :=
  onPart SessionState.context (fun d t => { t with context := d }) x

def setHistory (tokens : List TokenId) : EStateM DynInferError (SessionState D) Unit :=
  modify fun t => { t with history := tokens }

def setPosition (n : Nat) : EStateM DynInferError (SessionState D) Unit :=
  modify fun t => { t with position := n }

/-- The end of an accepted decode. -/
def pushToken (token : TokenId) : EStateM DynInferError (SessionState D) Unit :=
  modify fun t => { t with history := t.history ++ [token], position := t.position + 1 }

/-- The guard the four methods begin with. -/
def checkBatchSize : EStateM DynInferError (SessionState D) Unit :=
  require (s.config.batchSize = 1)
    (.runtime s!"batch_size {s.config.batchSize} is not supported (only batch_size=1)")

def checkNonEmpty (tokens : List TokenId) : EStateM DynInferError (SessionState D) Unit :=
  require (!tokens.isEmpty) (.runtime "prefill requires a non-empty token list")

def checkPrefillLength (tokens : List TokenId) : EStateM DynInferError (SessionState D) Unit :=
  require (tokens.length ≤ s.maxSeq)
    (.runtime s!"prefill length {tokens.length} exceeds session/KV limit {s.maxSeq}")

def checkDecodePosition : EStateM DynInferError (SessionState D) Unit := do
  let t ← get
  require (t.position < s.maxSeq)
    (.runtime s!"decode position {t.position} exceeds session/KV limit {s.maxSeq}")

/-- What the chunk loop keeps as its logits behind one invocation. -/
def keepLogits (wantLogits : Bool) (chunkLogits : Option (List F)) (logits : List F) :
    EStateM DynInferError D (List F) :=
  if wantLogits then expect chunkLogits "final prefill chunk returns logits" else pure logits

/-- The chunk loop of `prefill`, at chunk `i` of `total`: the logits are wanted of the last alone. -/
def prefillChunks (chunkSize total : Nat) :
    Nat → List (List TokenId) → List F → EStateM DynInferError D (List F)
  | _, [], logits => pure logits
  | i, chunk :: rest, logits => do
    let start := i * chunkSize
    let window := s.windowFromTokens chunk
    let wantLogits := i + 1 == total
    let r ← ctx.invokePagedChunkEx window.1 window.2 start wantLogits
    let logits ← keepLogits wantLogits r.1 logits
    prefillChunks chunkSize total (i + 1) rest logits

/-- The chunk loop of `prefill_argmax`: the token of the last chunk. -/
def prefillArgmaxChunks (chunkSize : Nat) :
    Nat → List (List TokenId) → Int → EStateM DynInferError D Int
  | _, [], token => pure token
  | i, chunk :: rest, _ => do
    let start := i * chunkSize
    let window := s.windowFromTokens chunk
    let r ← ctx.invokePagedChunkEx window.1 window.2 start false
    prefillArgmaxChunks chunkSize (i + 1) rest r.2

/-- The middle of `prefill`: the device is given the prompt. -/
def prefillValues (tokens : List TokenId) : EStateM DynInferError (SessionState D) (List F) :=
  match s.pagedGeometry with
  | some (pageSize, chunkSize) => do
    onContext ctx.resetPagedKv
    onContext (ctx.ensureKvPages (s.maxPages pageSize))
    let pieces := chunks chunkSize tokens
    onContext (prefillChunks ctx s chunkSize pieces.length 0 pieces [])
  | none =>
    let window := s.windowFromTokens tokens
    onContext (ctx.invokePrefill window.1 window.2)

def prefill (tokens : List TokenId) : EStateM DynInferError (SessionState D) (List F) := do
  checkBatchSize s
  checkNonEmpty tokens
  require (s.pagedGeometry.isSome || tokens.length ≤ s.prefillWindow)
    (.runtime s!"prefill length {tokens.length} exceeds compiled window {s.prefillWindow}")
  checkPrefillLength s tokens
  setHistory tokens
  let values ← prefillValues ctx s tokens
  require (values.length = s.vocabularySize)
    (.runtime s!"prefill returned {values.length} logits, expected vocab {s.vocabularySize}")
  setPosition tokens.length
  pure values

/-- The middle of `decode`: the device is given the token at the session's position. -/
def decodeValues (token : TokenId) (position : Nat) : EStateM DynInferError (SessionState D) (List F) :=
  match s.pagedGeometry with
  | some (pageSize, _) => do
    onContext (ctx.ensureKvPages (s.maxPages pageSize))
    onContext (ctx.invokePagedChunk [IreeSession.tokenI64 token] 0 position)
  | none =>
    let maxKv := max s.kv.maxSequenceLength 1
    onContext (ctx.invokeDecode (IreeSession.tokenI64 token) position
      (fillCausalAttnBias F position maxKv))

def decode (token : TokenId) : EStateM DynInferError (SessionState D) (List F) := do
  checkBatchSize s
  checkDecodePosition s
  let t ← get
  let position := t.position
  let values ← decodeValues ctx s token position
  require (values.length = s.vocabularySize)
    (.runtime s!"decode returned {values.length} logits, expected vocab {s.vocabularySize}")
  pushToken token
  pure values

/-- `i64 as TokenId`, which wraps. -/
def toTokenId (token : Int) : TokenId := UInt32.ofNat (token % 2 ^ 32).toNat

def prefillArgmax (tokens : List TokenId) : EStateM DynInferError (SessionState D) TokenId :=
  match s.pagedGeometry with
  | none => do
    let values ← prefill ctx s tokens
    pure (argmax values)
  | some (pageSize, chunkSize) => do
    checkBatchSize s
    checkNonEmpty tokens
    checkPrefillLength s tokens
    setHistory tokens
    onContext ctx.resetPagedKv
    onContext (ctx.ensureKvPages (s.maxPages pageSize))
    let token ← onContext (prefillArgmaxChunks ctx s chunkSize 0 (chunks chunkSize tokens) (-1))
    require (0 ≤ token) (.runtime s!"prefill_argmax returned invalid token {token}")
    setPosition tokens.length
    pure (toTokenId token)

def decodeArgmax (token : TokenId) : EStateM DynInferError (SessionState D) TokenId :=
  match s.pagedGeometry with
  | none => do
    let values ← decode ctx s token
    pure (argmax values)
  | some (pageSize, _) => do
    checkBatchSize s
    checkDecodePosition s
    let t ← get
    let position := t.position
    onContext (ctx.ensureKvPages (s.maxPages pageSize))
    let r ← onContext (ctx.invokePagedChunkEx [IreeSession.tokenI64 token] 0 position false)
    require (0 ≤ r.2) (.runtime s!"decode_argmax returned invalid token {r.2}")
    pushToken token
    pure (toTokenId r.2)

/-- What `reset` asks of the context: nothing, for static storage. -/
def resetContext : EStateM DynInferError (SessionState D) Unit :=
  if s.pagedGeometry.isSome then onContext ctx.resetPagedKv else pure ()

def reset : EStateM DynInferError (SessionState D) Unit := do
  resetContext ctx s
  modify fun t => { t with position := 0, history := [] }

end methods

end Dyninfer
