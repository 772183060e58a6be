/-
Logit traces (`dyninfer-cli/src/logit_trace.rs`): a JSON header beside the rows
of logits, little-endian `f32`. The writer streams a row's values as it checks
them and records the row behind them; the reader checks the header against the
trajectory and each row against its recorded argmax. `serde_json`, which prints
and parses a JSON value, and what the file system answers are parameters; the
derived conversions between a header and its JSON value are modelled. A file
holds less than `2 ^ 63` bytes; no other I/O error is modelled.
-/
import Dyninfer.Core.JsonText
import Dyninfer.Core.Types
import Dyninfer.Lib.Binary32
import Dyninfer.Lib.Effect
import Dyninfer.Lib.Fallible

namespace Dyninfer

open Bytes Effect

inductive TracePhase where
  | prefill | decode
  deriving DecidableEq, Repr

structure TraceRow where
  phase : TracePhase
  position : UInt64
  inputToken : TokenId
  argmax : TokenId
  forcedToken : Option TokenId := none
  deriving DecidableEq, Repr

structure TraceHeader where
  format : String
  version : UInt32
  engine : String
  checkpointSha256 : String
  vocabSize : UInt32
  promptTokens : List TokenId
  decodeInputs : List TokenId
  logitsDtype : String
  logitsByteOrder : String
  rows : List TraceRow
  logitsFile : String
  engineMetadata : Json := .null

/-- A directory: where it is, and its files by name. -/
structure Directory where
  path : String
  files : String → Option (List UInt8)

namespace LogitTrace

def traceFormat : String := "dyninfer.logit-trace"

def traceVersion : UInt32 := 1

/-! ## The JSON value of a header -/

def ofU32 (n : UInt32) : Json := .ofNat n.toNat

def asU32 (json : Json) : Option UInt32 :=
  json.asU64.bind fun n => if n < 2 ^ 32 then some (UInt32.ofNat n) else none

def asU64 (json : Json) : Option UInt64 := json.asU64.map UInt64.ofNat

def asList {α : Type} (item : Json → Option α) (json : Json) : Option (List α) := json.asArray.bind (·.mapM item)

def TracePhase.name : TracePhase → String
  | .prefill => "prefill"
  | .decode => "decode"

/-- The variant's name, alone or as the key of a null. -/
def phaseOfJson : Json → Option TracePhase
  | .string "prefill" | .object [("prefill", .null)] => some .prefill
  | .string "decode" | .object [("decode", .null)] => some .decode
  | _ => none

/-- The fields of a derived struct: an object names each known one at most once, an array has them in order. -/
def structFields (names : List String) : Json → Option (List (String × Json))
  | .object fields => if ((fields.map (·.1)).filter (names.contains ·)).Nodup then some fields else none
  | .array items => if items.length ≤ names.length then some (names.zip items) else none
  | _ => none

def rowToJson (row : TraceRow) : Json :=
  .object ([("phase", .string (TracePhase.name row.phase)), ("position", .number (.posInt row.position)),
    ("input_token", ofU32 row.inputToken), ("argmax", ofU32 row.argmax)] ++
    row.forcedToken.toList.map fun token => ("forced_token", ofU32 token))

def rowNames : List String := ["phase", "position", "input_token", "argmax", "forced_token"]

/-- An `Option` field that is absent or null is `None`. -/
def optionOfJson {α : Type} (item : Json → Option α) : Option Json → Option (Option α)
  | none | some .null => some none
  | some json => (item json).map some

def rowOfJson (json : Json) : Option TraceRow := do
  let fields ← structFields rowNames json
  let phase ← (fields.lookup "phase").bind phaseOfJson
  let position ← (fields.lookup "position").bind asU64
  let inputToken ← (fields.lookup "input_token").bind asU32
  let argmax ← (fields.lookup "argmax").bind asU32
  let forcedToken ← optionOfJson asU32 (fields.lookup "forced_token")
  return { phase, position, inputToken, argmax, forcedToken }

def headerFields (header : TraceHeader) : List (String × Json) :=
  [("format", .string header.format), ("version", ofU32 header.version), ("engine", .string header.engine),
    ("checkpoint_sha256", .string header.checkpointSha256), ("vocab_size", ofU32 header.vocabSize),
    ("prompt_tokens", .array (header.promptTokens.map ofU32)),
    ("decode_inputs", .array (header.decodeInputs.map ofU32)), ("logits_dtype", .string header.logitsDtype),
    ("logits_byte_order", .string header.logitsByteOrder), ("rows", .array (header.rows.map rowToJson)),
    ("logits_file", .string header.logitsFile)]

/-- `skip_serializing_if = "Value::is_null"` -/
def metadataFields : Json → List (String × Json)
  | .null => []
  | metadata => [("engine_metadata", metadata)]

def headerToJson (header : TraceHeader) : Json :=
  .object (headerFields header ++ metadataFields header.engineMetadata)

def headerNames : List String :=
  ["format", "version", "engine", "checkpoint_sha256", "vocab_size", "prompt_tokens", "decode_inputs", "logits_dtype",
    "logits_byte_order", "rows", "logits_file", "engine_metadata"]

def headerOfJson (json : Json) : Option TraceHeader := do
  let fields ← structFields headerNames json
  let format ← (fields.lookup "format").bind Json.asStr
  let version ← (fields.lookup "version").bind asU32
  let engine ← (fields.lookup "engine").bind Json.asStr
  let checkpointSha256 ← (fields.lookup "checkpoint_sha256").bind Json.asStr
  let vocabSize ← (fields.lookup "vocab_size").bind asU32
  let promptTokens ← (fields.lookup "prompt_tokens").bind (asList asU32)
  let decodeInputs ← (fields.lookup "decode_inputs").bind (asList asU32)
  let logitsDtype ← (fields.lookup "logits_dtype").bind Json.asStr
  let logitsByteOrder ← (fields.lookup "logits_byte_order").bind Json.asStr
  let rows ← (fields.lookup "rows").bind (asList rowOfJson)
  let logitsFile ← (fields.lookup "logits_file").bind Json.asStr
  let engineMetadata := (fields.lookup "engine_metadata").getD .null
  return { format, version, engine, checkpointSha256, vocabSize, promptTokens, decodeInputs, logitsDtype,
           logitsByteOrder, rows, logitsFile, engineMetadata }

/-! ## Checks of a header -/

/-- `Option::context` -/
def context {α : Type} (message : String) : Option α → Except String α
  | some a => .ok a
  | none => .error message

/-- `char::is_whitespace`. -/
def isWhitespace (c : Char) : Bool :=
  (0x9 ≤ c.toNat && c.toNat ≤ 0xd) || (0x2000 ≤ c.toNat && c.toNat ≤ 0x200a) ||
    [0x20, 0x85, 0xa0, 0x1680, 0x2028, 0x2029, 0x202f, 0x205f, 0x3000].contains c.toNat

def isHexDigit (b : UInt8) : Bool :=
  (0x30 ≤ b.toNat && b.toNat ≤ 0x39) || (0x41 ≤ b.toNat && b.toNat ≤ 0x46) || (0x61 ≤ b.toNat && b.toNat ≤ 0x66)

def ensureSha256 (value : String) : Except String Unit :=
  if (utf8 value).length = 64 ∧ (utf8 value).all isHexDigit then .ok ()
  else .error "checkpoint_sha256 must contain 64 hexadecimal characters"

def checkTokens (kind : String) (tokens : List TokenId) (vocabSize : UInt32) : Except String Unit :=
  match tokens.zipIdx.find? fun t => decide (vocabSize ≤ t.1) with
  | some (token, index) => .error s!"{kind} token {index} ({token}) is outside vocabulary {vocabSize}"
  | none => .ok ()

def validateTrajectory (prompt decode : List TokenId) (vocabSize : UInt32) : Except String Unit := do
  if prompt = [] then throw "trace prompt token list is empty"
  checkTokens "prompt" prompt vocabSize
  checkTokens "decode" decode vocabSize

/-- The phase, position and input of a row. -/
def expectedRow (header : TraceHeader) (index : Nat) : Except String (TracePhase × UInt64 × TokenId) :=
  if index = 0 then
    match header.promptTokens.getLast? with
    | none => .error "empty prompt"
    | some last => .ok (.prefill, UInt64.ofNat (header.promptTokens.length - 1), last)
  else if header.promptTokens.length + (index - 1) ≥ 2 ^ 64 then .error "trace position overflows u64"
  else
    match header.decodeInputs[index - 1]? with
    | none => .error s!"trace has unexpected row {index}"
    | some input => .ok (.decode, UInt64.ofNat (header.promptTokens.length + (index - 1)), input)

/-- The components of a path: a root, and names; a dot counts at the front only. -/
def pathComponents (path : String) : List (List Char) :=
  let pieces := path.toList.splitOn '/'
  let names := pieces.filter fun piece => piece ≠ [] ∧ piece ≠ ['.']
  if path.toList.head? = some '/' then ['/'] :: names
  else if pieces.head? = some ['.'] then ['.'] :: names
  else names

/-- A path of one normal component. -/
def isPlainName (path : String) : Bool :=
  match pathComponents path with
  | [name] => name ≠ ['/'] && name ≠ ['.'] && name ≠ ['.', '.']
  | _ => false

def checkRow (header : TraceHeader) (index : Nat) (row : TraceRow) : Except String Unit := do
  let (phase, position, input) ← expectedRow header index
  if row.phase ≠ phase then throw s!"trace row {index} has inconsistent phase"
  if row.position ≠ position then
    throw s!"trace row {index} has discontinuous position {row.position} (expected {position})"
  if row.inputToken ≠ input then
    throw s!"trace row {index} input token {row.inputToken} does not match trajectory token {input}"
  if header.vocabSize ≤ row.argmax then
    throw s!"trace row {index} argmax {row.argmax} is outside vocabulary {header.vocabSize}"
  if row.forcedToken ≠ header.decodeInputs[index]? then
    throw s!"trace row {index} forced token is inconsistent with decode_inputs"

def validateHeader (header : TraceHeader) : Except String Unit := do
  if header.format ≠ traceFormat then throw s!"unsupported trace format {header.format.quote}"
  if header.version ≠ traceVersion then throw s!"unsupported trace version {header.version}"
  if header.engine.toList.all isWhitespace then throw "trace engine is empty"
  ensureSha256 header.checkpointSha256
  if header.vocabSize = 0 then throw "trace vocabulary is empty"
  if header.logitsDtype ≠ "f32" then throw s!"unsupported logits dtype {header.logitsDtype.quote}"
  if header.logitsByteOrder ≠ "little" then throw s!"unsupported logits byte order {header.logitsByteOrder.quote}"
  if !isPlainName header.logitsFile then throw "logits_file must be a plain relative file name"
  validateTrajectory header.promptTokens header.decodeInputs header.vocabSize
  if header.rows.length ≠ header.decodeInputs.length + 1 then
    throw s!"trace row count mismatch: expected {header.decodeInputs.length + 1}, found {header.rows.length}"
  header.rows.zipIdx.forM fun row => checkRow header row.2 row.1

/-- `argmax`: the index of the first strict maximum. -/
def argmax (values : List Binary32) : TokenId :=
  let best := values.zipIdx.foldl
    (fun (best : Nat × Binary32) v => if v.1.gt best.2 then (v.2, v.1) else best) (0, Binary32.negInfinity)
  UInt32.ofNat best.1

/-! ## Reading -/

/-- An open trace: its header, the logits not yet read, and the number of rows read. -/
structure TraceReader where
  header : TraceHeader
  logits : List UInt8
  nextRow : Nat

/-- `TraceReader::open`. -/
def TraceReader.open (json : JsonText) (directory : Directory) : Except String TraceReader := do
  let headerPath := directory.path ++ "/trace.json"
  let headerBytes ← context s!"read trace header {headerPath}" (directory.files "trace.json")
  let header ← context s!"parse trace header {headerPath}"
    ((json.fromSlice headerBytes).toOption.bind headerOfJson)
  validateHeader header
  let logitsPath := directory.path ++ "/" ++ header.logitsFile
  let expectedBytes := header.rows.length * header.vocabSize.toNat * 4
  if expectedBytes ≥ 2 ^ 64 then throw "trace byte size overflows u64"
  let logits ← context s!"stat trace logits {logitsPath}" (directory.files header.logitsFile)
  if logits.length ≠ expectedBytes then
    throw s!"trace logits size mismatch: expected {expectedBytes} bytes, found {logits.length} (truncated or trailing data)"
  return { header, logits, nextRow := 0 }

/-- The values of four bytes each. -/
def decodeValues : List UInt8 → List Binary32
  | a :: b :: c :: d :: rest => Binary32.ofLeBytes [a, b, c, d] :: decodeValues rest
  | _ => []

/-- The first value that is not finite, and its index. -/
def firstNonFinite (values : List Binary32) : Option (Binary32 × Nat) := values.zipIdx.find? fun v => !v.1.isFinite

/-- `next_row`. -/
def TraceReader.next : EStateM String TraceReader (List Binary32) := do
  let reader ← get
  match reader.header.rows[reader.nextRow]? with
  | none => throw s!"trace has no row {reader.nextRow}"
  | some row =>
    let width := reader.header.vocabSize.toNat * 4
    require (width ≤ reader.logits.length) s!"read trace row {reader.nextRow}"
    set { reader with logits := reader.logits.drop width }
    let values := decodeValues (reader.logits.take width)
    match firstNonFinite values with
    | some (value, token) =>
      throw s!"trace row {reader.nextRow} token {token} is non-finite: {value.nonFiniteText}"
    | none =>
      require (argmax values == row.argmax)
        s!"trace row {reader.nextRow} argmax mismatch: metadata {row.argmax}, logits {argmax values}"
      modify fun reader => { reader with nextRow := reader.nextRow + 1 }
      return values

/-- `finish`. -/
def TraceReader.finish : EStateM String TraceReader Unit := do
  let reader ← get
  require (reader.nextRow == reader.header.rows.length)
    s!"trace has {reader.header.rows.length - reader.nextRow} unread rows"
  set { reader with logits := reader.logits.drop 1 }
  require reader.logits.isEmpty "trace contains trailing logit bytes"

/-! ## Writing -/

/-- What the file system answers about a destination. -/
structure TracePlace where
  pathExists : String → Bool
  parent : String → Option String
  fileName : String → Option String
  join : String → String → String
  processId : Nat

structure AtomicTraceWriter where
  destination : String
  temporary : String
  header : TraceHeader
  logits : Option (List UInt8)

namespace AtomicTraceWriter

/-- `create`. -/
def create (place : TracePlace) (destination engine checkpointSha256 : String) (vocabSize : UInt32)
    (promptTokens decodeInputs : List TokenId) (engineMetadata : Json) : Except String AtomicTraceWriter := do
  if place.pathExists destination then throw s!"trace output {destination} already exists"
  let parent := (place.parent destination).getD "."
  let name ← context "trace output must have a UTF-8 file name" (place.fileName destination)
  let candidates := (List.range 1000).map fun counter =>
    place.join parent s!".{name}.tmp-{place.processId}-{counter}"
  let temporary ← context "could not allocate a temporary trace directory"
    (candidates.find? fun candidate => !place.pathExists candidate)
  let header : TraceHeader := {
    format := traceFormat
    version := traceVersion
    engine
    checkpointSha256
    vocabSize
    promptTokens
    decodeInputs
    logitsDtype := "f32"
    logitsByteOrder := "little"
    rows := []
    logitsFile := "logits.f32le"
    engineMetadata }
  validateTrajectory header.promptTokens header.decodeInputs vocabSize
  ensureSha256 header.checkpointSha256
  return { destination, temporary, header, logits := some [] }

/-- The values of a row, each checked before it is written. -/
def writeValues (rowIndex : Nat) : Nat → List Binary32 → EStateM String (List UInt8) Unit
  | _, [] => pure ()
  | token, value :: values => do
    require value.isFinite s!"trace row {rowIndex} token {token} is non-finite: {value.nonFiniteText}"
    modify (· ++ value.toLeBytes)
    writeValues rowIndex (token + 1) values

/-- `write_row`. -/
def writeRow (phase : TracePhase) (position : UInt64) (inputToken : TokenId) (values : List Binary32) :
    EStateM String AtomicTraceWriter Unit := do
  let writer ← get
  require (values.length == writer.header.vocabSize.toNat)
    s!"trace row width mismatch: expected {writer.header.vocabSize}, found {values.length}"
  let rowIndex := writer.header.rows.length
  match expectedRow writer.header rowIndex with
  | .error e => throw e
  | .ok (expectedPhase, expectedPosition, expectedInput) =>
    require (phase == expectedPhase) s!"trace row {rowIndex} phase mismatch"
    require (position == expectedPosition)
      s!"trace row {rowIndex} position mismatch: expected {expectedPosition}, found {position}"
    require (inputToken == expectedInput)
      s!"trace row {rowIndex} input mismatch: expected {expectedInput}, found {inputToken}"
    match writer.logits with
    | none => throw "trace writer is already finished"
    | some logits =>
      onPart (fun _ => logits) (fun logits writer => { writer with logits := some logits })
        (writeValues rowIndex 0 values)
      modify fun writer => { writer with header := { writer.header with
        rows := writer.header.rows ++ [{ phase, position, inputToken, argmax := argmax values
                                         forcedToken := writer.header.decodeInputs[rowIndex]? }] } }

/-- `finish`: the directory that is published. -/
def finish (json : JsonText) (writer : AtomicTraceWriter) : Except String Directory := do
  if writer.header.rows.length ≠ writer.header.decodeInputs.length + 1 then
    throw s!"trace row count mismatch: expected {writer.header.decodeInputs.length + 1}, found {writer.header.rows.length}"
  validateHeader writer.header
  let logits ← context "trace writer is already finished" writer.logits
  if logits.length ≥ 2 ^ 63 then throw "File too large"
  let header := json.pretty (headerToJson writer.header) ++ utf8 "\n"
  return {
    path := writer.destination
    files := fun name =>
      if name = "trace.json" then some header else if name = "logits.f32le" then some logits else none }

end AtomicTraceWriter

end LogitTrace

end Dyninfer
