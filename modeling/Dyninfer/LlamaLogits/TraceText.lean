/-
The header of a trace as the reference runner writes it (`JsonEscape`,
`JsonArray` and the end of `RunMode` in `tools/llama-logits/main.cc`): the text
of the JSON value that the readers of traces expect. A `std::string` is a list
of bytes.
-/
import Dyninfer.Cli.LogitTraceJson
import Dyninfer.LlamaLogits.Sha256

namespace Dyninfer

open Bytes JsonGrammar LogitTrace

namespace LlamaLogits

/-! ## Text -/

def jsonEscapeByte (c : UInt8) : List UInt8 :=
  if c = 0x22 then utf8 "\\\""
  else if c = 0x5c then utf8 "\\\\"
  else if c = 0x08 then utf8 "\\b"
  else if c = 0x0c then utf8 "\\f"
  else if c = 0x0a then utf8 "\\n"
  else if c = 0x0d then utf8 "\\r"
  else if c = 0x09 then utf8 "\\t"
  else if c < 0x20 then utf8 "\\u" ++ hex4 c.toNat
  else [c]

def jsonEscape (value : List UInt8) : List UInt8 := 0x22 :: value.flatMap jsonEscapeByte ++ [0x22]

def number (n : Nat) : List UInt8 := utf8 (toString n)

def jsonArray (values : List TokenId) : List UInt8 :=
  0x5b :: join (utf8 ",") (values.map fun token => number token.toNat) ++ [0x5d]

/-- A key and the text of its value. -/
def field (key : String) (value : List UInt8) : List UInt8 := 0x22 :: utf8 key ++ [0x22] ++ utf8 ": " ++ value

/-- Texts on lines of their own between brackets. -/
def block (opening closing : UInt8) (indent outdent : List UInt8) (texts : List (List UInt8)) : List UInt8 :=
  opening :: utf8 "\n" ++ indent ++ join (utf8 ",\n" ++ indent) texts ++ (utf8 "\n" ++ outdent) ++ [closing]

/-! ## The header -/

structure OutputRow where
  phase : TracePhase
  position : UInt64
  inputToken : TokenId
  argmax : TokenId

/-- What the engine and the system say of themselves. -/
structure EngineReport where
  loadedLibllamaPath : List UInt8
  systemInfo : List UInt8
  modelDescription : List UInt8
  modelSizeBytes : UInt64
  modelParameterCount : UInt64
  deviceName : List UInt8
  deviceDescription : List UInt8
  threads : Int32
  threadsBatch : Int32
  nCtx : UInt32
  nBatch : UInt32
  nUbatch : UInt32

structure EngineMetadata extends EngineReport where
  gpuLayers : Int32
  flashName : String
  kvName : String

namespace EngineMetadata

variable (engine : EngineMetadata)

/-- `LlamaBuildNumber`: the digits behind the last dot of the library's file name. -/
def buildNumber : List UInt8 :=
  let fileName := (engine.loadedLibllamaPath.reverse.takeWhile (· ≠ 0x2f)).reverse
  let suffix := (fileName.reverse.takeWhile (· ≠ 0x2e)).reverse
  if fileName.contains 0x2e ∧ suffix ≠ [] ∧ suffix.all (fun b => 0x30 ≤ b && b ≤ 0x39) then suffix
  else utf8 "unavailable"

def actualDevice : List UInt8 := engine.deviceName ++ utf8 " (" ++ engine.deviceDescription ++ utf8 ")"

def texts : List (List UInt8) := [
  field "loaded_libllama_path" (jsonEscape engine.loadedLibllamaPath),
  field "build_number" (jsonEscape engine.buildNumber),
  field "system_info" (jsonEscape engine.systemInfo),
  field "model_description" (jsonEscape engine.modelDescription),
  field "model_size_bytes" (number engine.modelSizeBytes.toNat),
  field "model_parameter_count" (number engine.modelParameterCount.toNat),
  field "device" (jsonEscape engine.actualDevice),
  field "gpu_layers" (utf8 (toString engine.gpuLayers.toInt)),
  field "threads" (utf8 (toString engine.threads.toInt)),
  field "threads_batch" (utf8 (toString engine.threadsBatch.toInt)),
  field "n_ctx" (number engine.nCtx.toNat),
  field "n_batch" (number engine.nBatch.toNat),
  field "n_ubatch" (number engine.nUbatch.toNat),
  field "flash_attention" (jsonEscape (utf8 engine.flashName)),
  field "kv_type_k" (jsonEscape (utf8 engine.kvName)),
  field "kv_type_v" (jsonEscape (utf8 engine.kvName))]

end EngineMetadata

/-- What a header is written from. -/
structure TraceParts where
  checkpointSha256 : List UInt8
  vocabularySize : UInt32
  prompt : List TokenId
  decodeInputs : List TokenId
  rows : List OutputRow
  engine : EngineMetadata

namespace TraceParts

variable (parts : TraceParts)

def rowTexts (row : OutputRow) (forced : Option TokenId) : List (List UInt8) :=
  [field "phase" (jsonEscape (utf8 (TracePhase.name row.phase))), field "position" (number row.position.toNat),
    field "input_token" (number row.inputToken.toNat), field "argmax" (number row.argmax.toNat)] ++
    forced.toList.map fun token => field "forced_token" (number token.toNat)

def rowText (row : OutputRow) (forced : Option TokenId) : List UInt8 :=
  0x7b :: join (utf8 ", ") (rowTexts row forced) ++ [0x7d]

def texts : List (List UInt8) := [
  field "format" (jsonEscape (utf8 traceFormat)),
  field "version" (number traceVersion.toNat),
  field "engine" (utf8 "\"llama.cpp\""),
  field "checkpoint_sha256" (jsonEscape parts.checkpointSha256),
  field "vocab_size" (number parts.vocabularySize.toNat),
  field "prompt_tokens" (jsonArray parts.prompt),
  field "decode_inputs" (jsonArray parts.decodeInputs),
  field "logits_dtype" (utf8 "\"f32\""),
  field "logits_byte_order" (utf8 "\"little\""),
  field "rows" (block 0x5b 0x5d (utf8 "    ") (utf8 "  ")
    (parts.rows.zipIdx.map fun row => rowText row.1 parts.decodeInputs[row.2]?)),
  field "logits_file" (utf8 "\"logits.f32le\""),
  field "engine_metadata" (block 0x7b 0x7d (utf8 "    ") (utf8 "  ") parts.engine.texts)]

/-- `trace.json` -/
def traceText : List UInt8 := block 0x7b 0x7d (utf8 "  ") [] parts.texts ++ utf8 "\n"

end TraceParts

end LlamaLogits

end Dyninfer
