/-
A run of the reference engine (`RunMode`, `WriteLogitRow` and the batches of
`tools/llama-logits/main.cc`): a prompt, then one decode input after another,
given or taken from the argmax, with a row of logits written for each. The
library behind a loaded model is a parameter; its context is what it decodes
into. The parsing of the arguments, the choice of devices and the temporary
directory are left out.
-/
import Dyninfer.Lib.Effect
import Dyninfer.LlamaLogits.TraceText

namespace Dyninfer

open Effect LogitTrace

namespace LlamaLogits

/-! ## The library -/

/-- A token of a batch, of the one sequence. -/
structure BatchToken where
  token : TokenId
  pos : Nat
  logits : Bool

/-- The library with a model and a context, over the context's state. -/
structure Llama (S : Type) where
  /-- `llama_vocab_n_tokens` -/
  vocabularySize : Int32
  /-- The context behind `llama_init_from_model`. -/
  context : S
  /-- `llama_decode`, with its status. -/
  decode : List BatchToken → S → Int × S
  /-- `llama_get_logits_ith(context, -1)`, a pointer to the logits or null. -/
  logits : S → Option (Nat → Binary32)
  report : S → EngineReport

def fillPromptBatch (tokens : List TokenId) : List BatchToken :=
  tokens.zipIdx.map fun t => { token := t.1, pos := t.2, logits := t.2 + 1 == tokens.length }

def fillDecodeBatch (token : TokenId) (position : Nat) : List BatchToken :=
  [{ token, pos := position, logits := true }]

/-! ## Arguments -/

/-- `ParseKvType` -/
inductive KvType where
  | f32 | f16 | bf16

def KvType.name : KvType → String
  | .f32 => "f32"
  | .f16 => "f16"
  | .bf16 => "bf16"

/-- `ParseFlashAttention` -/
inductive FlashAttention where
  | off | on | auto

def FlashAttention.name : FlashAttention → String
  | .off => "off"
  | .on => "on"
  | .auto => "auto"

/-- `--decode-tokens` or `--decode-steps`. -/
inductive DecodeRequest where
  | tokens (inputs : List TokenId)
  | steps (n : UInt32)

def DecodeRequest.inputs : DecodeRequest → List TokenId
  | .tokens inputs => inputs
  | .steps _ => []

/-- `decode_steps`; the number of tokens is cast. -/
def DecodeRequest.decodeSteps : DecodeRequest → UInt32
  | .tokens inputs => UInt32.ofNat inputs.length
  | .steps n => n

def DecodeRequest.explicit : DecodeRequest → Bool
  | .tokens _ => true
  | .steps _ => false

structure RunArgs where
  checkpoint : List UInt8
  destination : String
  prompt : List TokenId
  requestedContext : UInt32
  kvType : KvType
  cpu : Bool
  gpuLayers : Int32
  flash : FlashAttention
  threads : Option Int32
  decode : DecodeRequest

def checkArgs (args : RunArgs) : Except String Unit := do
  if args.requestedContext.toNat ≥ 2 ^ 31 then throw "--n-ctx exceeds the llama_pos range"
  if args.requestedContext.toNat < args.prompt.length then throw "--n-ctx is shorter than the prompt"
  if args.cpu ∧ args.gpuLayers ≠ 0 then throw "CPU mode requires --gpu-layers 0"
  if args.threads.any (· ≤ 0) then throw "--threads must be positive"
  if args.prompt.length + args.decode.decodeSteps.toNat > args.requestedContext.toNat then
    throw "--n-ctx cannot fit prompt + decode steps"

def validateTokens (vocabularySize : Nat) (tokens : List TokenId) (kind : String) : Except String Unit :=
  match tokens.zipIdx.find? fun t => decide (vocabularySize ≤ t.1.toNat) with
  | some (_, i) => .error s!"{kind} token {i} is outside the model vocabulary"
  | none => .ok ()

/-! ## The run -/

structure RunState (S : Type) where
  context : S
  /-- The bytes of `logits.f32le`. -/
  logits : List UInt8 := []
  rows : List OutputRow := []
  decodeInputs : List TokenId
  /-- The rows that the engine returned; the program keeps no such list. -/
  produced : List (List Binary32) := []

section run

variable {S : Type} (llama : Llama S)

/-- The loop of `WriteLogitRow`: the best token and its value so far. -/
def writeLogits (value : Nat → Binary32) : Nat → Nat → Nat × Binary32 → EStateM String (List UInt8) Nat
  | 0, _, best => pure best.1
  | n + 1, token, best => do
    require (value token).isFinite s!"llama.cpp returned a non-finite logit for token {token}"
    modify (· ++ (value token).toLeBytes)
    writeLogits value n (token + 1) (if (value token).gt best.2 then (token, value token) else best)

def writeLogitRow : EStateM String (RunState S) TokenId := do
  match llama.logits (← get).context with
  | none => throw "llama_get_logits_ith returned null"
  | some value =>
    let vocabularySize := llama.vocabularySize.toInt.toNat
    modify fun s => { s with produced := s.produced ++ [(List.range vocabularySize).map value] }
    let best ← onPart RunState.logits (fun logits s => { s with logits })
      (writeLogits value vocabularySize 0 (0, Binary32.negInfinity))
    return UInt32.ofNat best

/-- `llama_decode` of a batch. -/
def decodeBatch (batch : List BatchToken) (failure : String) : EStateM String (RunState S) Unit := do
  let s ← get
  let r := llama.decode batch s.context
  set { s with context := r.2 }
  require (r.1 == 0) s!"{failure} with status {r.1}"

def pushRow (row : OutputRow) : EStateM String (RunState S) Unit := modify fun s => { s with rows := s.rows ++ [row] }

def prefillRow (prompt : List TokenId) : EStateM String (RunState S) TokenId := do
  decodeBatch llama (fillPromptBatch prompt) "llama_decode(prompt) failed"
  let argmax ← writeLogitRow llama
  pushRow { phase := .prefill, position := UInt64.ofNat (prompt.length - 1), inputToken := prompt.getLastD 0, argmax }
  return argmax

/-- The input of a step; without given inputs it is the argmax, and is recorded. -/
def stepInput (explicit : Bool) (step : Nat) (currentArgmax : TokenId) : EStateM String (RunState S) TokenId := do
  if explicit then return (← get).decodeInputs.getD step 0
  modify fun s => { s with decodeInputs := s.decodeInputs ++ [currentArgmax] }
  return currentArgmax

/-- The loop over the decode steps, `n` of them from `step` on. -/
def decodeRows (prompt : List TokenId) (explicit : Bool) : Nat → Nat → TokenId → EStateM String (RunState S) Unit
  | 0, _, _ => pure ()
  | n + 1, step, currentArgmax => do
    let input ← stepInput explicit step currentArgmax
    decodeBatch llama (fillDecodeBatch input (prompt.length + step)) s!"llama_decode(token) failed at step {step}"
    let argmax ← writeLogitRow llama
    pushRow { phase := .decode, position := UInt64.ofNat (prompt.length + step), inputToken := input, argmax }
    decodeRows prompt explicit n (step + 1) argmax

def traceRows (args : RunArgs) : EStateM String (RunState S) Unit := do
  let argmax ← prefillRow llama args.prompt
  decodeRows llama args.prompt args.decode.explicit args.decode.decodeSteps.toNat 0 argmax

/-- What the header of a run's trace is written from. -/
def traceParts (args : RunArgs) (s : RunState S) : TraceParts where
  checkpointSha256 := fileSha256 args.checkpoint
  vocabularySize := UInt32.ofNat llama.vocabularySize.toInt.toNat
  prompt := args.prompt
  decodeInputs := s.decodeInputs
  rows := s.rows
  engine := {
    toEngineReport := llama.report s.context
    gpuLayers := args.gpuLayers
    flashName := args.flash.name
    kvName := args.kvType.name }

/-- `RunMode`: the last state of the run, and the directory that is published. -/
def runMode (args : RunArgs) : Except String (RunState S × Directory) := do
  checkArgs args
  if llama.vocabularySize ≤ 0 then throw "model vocabulary is empty"
  validateTokens llama.vocabularySize.toInt.toNat args.prompt "prompt"
  validateTokens llama.vocabularySize.toInt.toNat args.decode.inputs "decode"
  match (traceRows llama args).run { context := llama.context, decodeInputs := args.decode.inputs } with
  | .error e _ => .error e
  | .ok _ s =>
    let header := (traceParts llama args s).traceText
    .ok (s, {
      path := args.destination
      files := fun name =>
        if name = "trace.json" then some header else if name = "logits.f32le" then some s.logits else none })

end run

end LlamaLogits

end Dyninfer
