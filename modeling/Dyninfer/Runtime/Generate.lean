/-
Greedy generation (`generate.rs`) over whatever answers the calls of a session:
the prompt's tokens are prefilled, and each next token is the argmax of the
logits, penalised where it was seen before, until a stop token or the token
limit. A chat template's rendering is a parameter; the wall-clock times of the
statistics are left out.
-/
import Dyninfer.Runtime.Session
import Dyninfer.Runtime.Tokenizer

namespace Dyninfer

open Effect

/-- What the repetition penalty uses of `f32`. -/
class PenaltyFloat (F : Type) extends HostFloat F where
  /-- `score < 0.0` -/
  isNegative : F → Bool
  mul : F → F → F
  div : F → F → F
  /-- `(penalty - 1.0).abs() < f32::EPSILON` -/
  isOff : F → Bool

section penalty

variable {F : Type} [PenaltyFloat F]

/-- The score of a token that was seen. -/
def penalized (penalty score : F) : F :=
  if PenaltyFloat.isNegative score then PenaltyFloat.mul score penalty else PenaltyFloat.div score penalty

/-- The score at an index, if there is one. -/
def penalizeAt (penalty : F) (logits : List F) (i : Nat) : List F :=
  match logits[i]? with
  | some score => logits.set i (penalized penalty score)
  | none => logits

/-- The tokens seen, with how often; they are the keys of a map, so none comes twice. -/
abbrev Seen : Type := AssocMap TokenId Nat

/-- `*seen.entry(id).or_insert(0) += 1`. -/
def Seen.note (seen : Seen) (id : TokenId) : Seen := AssocMap.insert seen id ((seen.get id).getD 0 + 1)

def applyRepetitionPenalty (logits : List F) (seen : Seen) (penalty : F) : List F :=
  if PenaltyFloat.isOff penalty || seen.isEmpty then logits
  else seen.foldl (fun logits e => penalizeAt penalty logits e.1.toNat) logits

end penalty

structure GenerateConfig (F : Type) where
  maxNewTokens : Nat := 48
  eosTokenId : Option TokenId := none
  stopTokenIds : List TokenId := []
  repetitionPenalty : F
  applyChatTemplate : Bool := true
  enableThinking : Bool := true

/-- The figures of a session's cache that the statistics copy. -/
structure KvCacheMetrics where
  pageCount : Nat
  allocatedBytes : Nat
  capacityBytes : Nat
  usedBytes : Nat
  keyDtype : ScalarType
  valueDtype : ScalarType
  paged : Bool
  deriving DecidableEq, Repr

structure GenerateStats where
  promptTokens : Nat
  generatedTokens : Nat
  kvPageCount : Nat
  kvAllocatedBytes : Nat
  kvCapacityBytes : Nat
  kvUsedBytes : Nat
  kvKeyDtype : String
  kvValueDtype : String
  kvPaged : Bool
  deriving DecidableEq, Repr

structure GenerateOutput where
  prompt : String
  text : String
  tokenIds : List TokenId
  stats : GenerateStats
  deriving DecidableEq, Repr

/-- What generation calls of `dyn ModelSession`, over a state `S`. -/
structure ModelSession (F S : Type) where
  prefill : List TokenId → EStateM DynInferError S (List F)
  decode : TokenId → EStateM DynInferError S (List F)
  prefillArgmax : List TokenId → EStateM DynInferError S TokenId
  decodeArgmax : TokenId → EStateM DynInferError S TokenId
  kvCacheMetrics : EStateM DynInferError S KvCacheMetrics

/-- `dyn CausalLanguageModel`: a session, in the state that it starts from. -/
abbrev CausalLanguageModel (F S : Type) : Type := SessionConfig → Except DynInferError (ModelSession F S × S)

/-! ## The prompt -/

def BpeTokenizer.isByteLevel (tokenizer : BpeTokenizer) : Bool := tokenizer.kind == .byteLevel

def BpeTokenizer.hasChatmlMarkers (tokenizer : BpeTokenizer) : Bool :=
  (tokenizer.pieceId "<|im_start|>").isSome && (tokenizer.pieceId "<|im_end|>").isSome

/-- `apply_chat_template`, over the template that was loaded with the tokenizer, if one was. -/
def BpeTokenizer.applyChatTemplate (tokenizer : BpeTokenizer) (template : Option (String → Bool → Except String String))
    (user : String) (enableThinking : Bool) : Except DynInferError (Option String) :=
  if Text.contains user "<|im_start|>" then .ok none
  else match template with
    | some render =>
      match render user enableThinking with
      | .ok rendered => .ok (some rendered)
      | .error e => .error (.io s!"chat_template render failed: {e}" none)
    | none =>
      if !tokenizer.hasChatmlMarkers then .ok none
      else
        let out := s!"<|im_start|>user\n{user}<|im_end|>\n<|im_start|>assistant\n"
        .ok (some (if enableThinking then out else out ++ "<think>\n\n</think>\n\n"))

/-- The text that is given to the model. -/
def modelPrompt (tokenizer : BpeTokenizer) (template : Option (String → Bool → Except String String)) (prompt : String)
    (applyChatTemplate enableThinking : Bool) : Except DynInferError String :=
  if applyChatTemplate then do
    let rendered ← tokenizer.applyChatTemplate template prompt enableThinking
    return rendered.getD prompt
  else .ok prompt

/-- The tokens of that text; none when the encoding does not return. -/
def promptIds (tokenizer : BpeTokenizer) (modelPrompt : String) (applyChatTemplate : Bool) : Option (List TokenId) :=
  (tokenizer.encode modelPrompt (!tokenizer.isByteLevel && !applyChatTemplate)).map (·.map UInt32.ofNat)

/-- The tokens that end a continuation. -/
def stopTokens {F : Type} (tokenizer : BpeTokenizer) (config : GenerateConfig F) : List TokenId :=
  let add (stop : List TokenId) (id : TokenId) := if stop.contains id then stop else stop ++ [id]
  let stop := match config.eosTokenId.or (tokenizer.eosId.map UInt32.ofNat) with
    | some eos => add config.stopTokenIds eos
    | none => config.stopTokenIds
  match tokenizer.pieceId "<|endoftext|>" with
  | some eof => add stop (UInt32.ofNat eof)
  | none => stop

/-! ## The loops -/

/-- What the loops add to. -/
structure Progress where
  generated : List TokenId := []
  ids : List TokenId
  seen : Seen
  deriving DecidableEq, Repr

/-- The prompt's tokens, each of them seen. -/
def Progress.ofPrompt (ids : List TokenId) : Progress where
  ids := ids
  seen := ids.foldl Seen.note []

def Progress.push (progress : Progress) (next : TokenId) : Progress where
  generated := progress.generated ++ [next]
  ids := progress.ids ++ [next]
  seen := progress.seen.note next

section loops

variable {F S : Type}

/-- The loop that only gets tokens from the session. -/
def argmaxLoop (session : ModelSession F S) (stop : List TokenId) :
    Nat → TokenId → Progress → EStateM DynInferError S Progress
  | 0, _, progress => pure progress
  | n + 1, next, progress =>
    if stop.contains next then pure progress
    else do
      let following ← session.decodeArgmax next
      argmaxLoop session stop n following (progress.push next)

/-- The loop that gets logits. -/
def logitsLoop [PenaltyFloat F] (session : ModelSession F S) (stop : List TokenId) (penalty : F) :
    Nat → List F → Progress → EStateM DynInferError S Progress
  | 0, _, progress => pure progress
  | n + 1, logits, progress =>
    let next := argmax (applyRepetitionPenalty logits progress.seen penalty)
    if stop.contains next then pure progress
    else do
      let following ← session.decode next
      logitsLoop session stop penalty n following (progress.push next)

/-- The part of `generate_greedy` that works on tokens. -/
def generateTokens [PenaltyFloat F] (session : ModelSession F S) (stop : List TokenId) (config : GenerateConfig F)
    (ids : List TokenId) : EStateM DynInferError S Progress :=
  if PenaltyFloat.isOff config.repetitionPenalty then do
    let next ← session.prefillArgmax ids
    argmaxLoop session stop config.maxNewTokens next (.ofPrompt ids)
  else do
    let logits ← session.prefill ids
    logitsLoop session stop config.repetitionPenalty config.maxNewTokens logits (.ofPrompt ids)

/-- The ids as the tokenizer counts them. -/
def asIds (tokens : List TokenId) : List Nat := tokens.map UInt32.toNat

def generateOutput (tokenizer : BpeTokenizer) (prompt : String) (ids : List TokenId) (progress : Progress)
    (cache : KvCacheMetrics) : GenerateOutput where
  prompt := prompt
  -- only the continuation is decoded, so that markup of a chat stays out of the text
  text := prompt ++ tokenizer.decode (asIds progress.generated) true
  tokenIds := progress.ids
  stats :=
    { promptTokens := ids.length
      generatedTokens := progress.generated.length
      kvPageCount := cache.pageCount
      kvAllocatedBytes := cache.allocatedBytes
      kvCapacityBytes := cache.capacityBytes
      kvUsedBytes := cache.usedBytes
      kvKeyDtype := cache.keyDtype.text
      kvValueDtype := cache.valueDtype.text
      kvPaged := cache.paged }

/-- `generate_greedy` from the prompt's tokens on. -/
def generateIds [PenaltyFloat F] (model : CausalLanguageModel F S) (tokenizer : BpeTokenizer) (prompt : String)
    (config : GenerateConfig F) (sessionCfg : SessionConfig) (ids : List TokenId) : Except DynInferError GenerateOutput :=
  if ids.isEmpty then .error (.io "prompt produced no tokens" none)
  else
    match model sessionCfg with
    | .error e => .error e
    | .ok (session, start) =>
      let run : EStateM DynInferError S GenerateOutput := do
        let progress ← generateTokens session (stopTokens tokenizer config) config ids
        let cache ← session.kvCacheMetrics
        pure (generateOutput tokenizer prompt ids progress cache)
      match run.run start with
      | .ok output _ => .ok output
      | .error e _ => .error e

/-- `generate_greedy`; none when the encoding of the prompt does not return. -/
def generateGreedy [PenaltyFloat F] (model : CausalLanguageModel F S) (tokenizer : BpeTokenizer)
    (template : Option (String → Bool → Except String String)) (prompt : String) (config : GenerateConfig F)
    (sessionCfg : SessionConfig) : Option (Except DynInferError GenerateOutput) :=
  match modelPrompt tokenizer template prompt config.applyChatTemplate config.enableThinking with
  | .error e => some (.error e)
  | .ok text =>
    (promptIds tokenizer text config.applyChatTemplate).map (generateIds model tokenizer prompt config sessionCfg)

end loops

/-! ## The session of an executable -/

/-- A product of `u64` that stops at the largest one. -/
def saturatingMulU64 (a b : Nat) : Nat := min (a * b) (2 ^ 64 - 1)

namespace KvCacheDescriptor

variable (kv : KvCacheDescriptor)

def bytesPerTokenComponent : Nat :=
  saturatingMulU64 (saturatingMulU64 (saturatingMulU64 kv.layerCount kv.kvHeadCount) kv.headDimension)
    kv.elementType.sizeBytes

def bytesForTokens (tokens : Nat) : Nat :=
  saturatingMulU64 (saturatingMulU64 kv.bytesPerTokenComponent (min tokens kv.maxSequenceLength)) 2

def capacityBytes : Nat := kv.bytesForTokens kv.maxSequenceLength

end KvCacheDescriptor

section session

variable {F D : Type} [HostFloat F]

/-- `IreeSession::kv_cache_metrics`; a paged pool is asked for its pages and its bytes. -/
def IreeSession.kvCacheMetrics (s : IreeSession) (pagedKvMetrics : EStateM DynInferError D (Nat × Nat)) :
    EStateM DynInferError (SessionState D) KvCacheMetrics := do
  let capacity := s.kv.capacityBytes
  let paged := s.pagedGeometry.isSome
  let pool ← if paged then onContext pagedKvMetrics else pure (0, capacity)
  let t ← get
  let used := if paged then pool.2 else s.kv.bytesForTokens t.position
  pure
    { pageCount := pool.1
      allocatedBytes := pool.2
      capacityBytes := capacity
      usedBytes := used
      keyDtype := s.kv.elementType
      valueDtype := s.kv.elementType
      paged := paged }

/-- `IreeSession` as the session of a model. -/
def IreeSession.asModelSession (ctx : Context F D) (pagedKvMetrics : EStateM DynInferError D (Nat × Nat))
    (s : IreeSession) : ModelSession F (SessionState D) where
  prefill := Dyninfer.prefill ctx s
  decode := Dyninfer.decode ctx s
  prefillArgmax := Dyninfer.prefillArgmax ctx s
  decodeArgmax := Dyninfer.decodeArgmax ctx s
  kvCacheMetrics := s.kvCacheMetrics pagedKvMetrics

end session

end Dyninfer
