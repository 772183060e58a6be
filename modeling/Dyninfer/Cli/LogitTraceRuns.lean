/-
Runs of the trace writer (`AtomicTraceWriter`), refused rows included, up to a
`finish` that publishes. A row that fits and has a value that is not finite is
refused after the values before that one are written. Where no such row begins
with a finite value, the bytes are those of the rows accepted, and the trace
reads back; one such row, and the published logits are longer than their header
says.
-/
import Dyninfer.Cli.LogitTraceFacts
import Dyninfer.Cli.LogitTraceJson

namespace Dyninfer

open Bytes Effect

namespace LogitTrace

/-- A call of `write_row`. -/
structure RowCall where
  phase : TracePhase
  position : UInt64
  inputToken : TokenId
  values : List Binary32

def RowCall.run (call : RowCall) : EStateM String AtomicTraceWriter Unit :=
  AtomicTraceWriter.writeRow call.phase call.position call.inputToken call.values

/-- Calls in order, whatever they answer: the values of those that returned, and the writer behind them all. -/
def writeCalls : List RowCall → AtomicTraceWriter → List (List Binary32) × AtomicTraceWriter
  | [], writer => ([], writer)
  | call :: calls, writer =>
    match call.run.run writer with
    | .ok _ writer =>
      let rest := writeCalls calls writer
      (call.values :: rest.1, rest.2)
    | .error _ writer => writeCalls calls writer

/-- The call is for the next row, as wide as the trace. -/
def Fits (writer : AtomicTraceWriter) (call : RowCall) : Prop :=
  call.values.length = writer.header.vocabSize.toNat ∧
    expectedRow writer.header writer.header.rows.length = .ok (call.phase, call.position, call.inputToken)

/-- A row that fits has a finite value in front of one that is not. -/
def LeavesBytes (writer : AtomicTraceWriter) (call : RowCall) : Prop :=
  Fits writer call ∧ call.values.head?.any Binary32.isFinite = true ∧ ∃ v ∈ call.values, v.isFinite = false

/-- No call of the run leaves bytes. -/
def Clean : List RowCall → AtomicTraceWriter → Prop
  | [], _ => True
  | call :: calls, writer => ¬ LeavesBytes writer call ∧
    match call.run.run writer with
    | .ok _ writer | .error _ writer => Clean calls writer

/-! ## One call -/

theorem run_writeValues {values : List Binary32} (rowIndex : Nat) (h : ∀ v ∈ values, v.isFinite = true) :
    ∀ (token : Nat) (bytes : List UInt8), (AtomicTraceWriter.writeValues rowIndex token values).run bytes =
      .ok () (bytes ++ encode values) := by
  induction values with
  | nil =>
    intro token bytes
    rw [show encode [] = [] from rfl, List.append_nil]
    rfl
  | cons v values ih =>
    intro token bytes
    rw [List.forall_mem_cons] at h
    rw [AtomicTraceWriter.writeValues]
    simp only [EStateM.run_bind, run_require_true h.1, EStateM.run_modify, ih h.2]
    rw [List.append_assoc]
    rfl

/-- The values before the first that is not finite are written. -/
theorem run_writeValues_error {values : List Binary32} (rowIndex : Nat) (h : ∃ v ∈ values, v.isFinite = false) :
    ∀ (token : Nat) (bytes : List UInt8), ∃ e, (AtomicTraceWriter.writeValues rowIndex token values).run bytes =
      .error e (bytes ++ encode (values.takeWhile Binary32.isFinite)) := by
  induction values with
  | nil =>
    obtain ⟨v, hv, -⟩ := h
    cases hv
  | cons v values ih =>
    intro token bytes
    rw [AtomicTraceWriter.writeValues]
    cases hv : v.isFinite with
    | false =>
      rw [List.takeWhile_cons_of_neg (by simp [hv]), show encode [] = [] from rfl, List.append_nil]
      exact ⟨_, by rw [EStateM.run_bind, run_require_false rfl]⟩
    | true =>
      have hrest : ∃ w ∈ values, w.isFinite = false := by
        obtain ⟨w, hw, hfalse⟩ := h
        rcases List.mem_cons.mp hw with heq | hin
        · rw [heq, hv] at hfalse
          cases hfalse
        · exact ⟨w, hin, hfalse⟩
      obtain ⟨e, he⟩ := ih hrest (token + 1) (bytes ++ v.toLeBytes)
      refine ⟨e, ?_⟩
      simp only [EStateM.run_bind, run_require_true rfl, EStateM.run_modify, he]
      rw [List.takeWhile_cons_of_pos hv, List.append_assoc]
      rfl

/-- The writer behind an accepted row. -/
def accept (writer : AtomicTraceWriter) (bytes : List UInt8) (call : RowCall) : AtomicTraceWriter :=
  { writer with
    logits := some (bytes ++ encode call.values)
    header := { writer.header with
      rows := writer.header.rows ++ [{
        phase := call.phase, position := call.position, inputToken := call.inputToken, argmax := argmax call.values
        forcedToken := writer.header.decodeInputs[writer.header.rows.length]? }] } }

theorem takeWhile_ne_nil {values : List Binary32} (h : values.head?.any Binary32.isFinite = true) :
    values.takeWhile Binary32.isFinite ≠ [] := by
  cases values with
  | nil => cases h
  | cons v values =>
    rw [List.head?_cons, Option.any_some] at h
    rw [List.takeWhile_cons_of_pos h]
    exact List.cons_ne_nil _ _

theorem takeWhile_eq_nil {values : List Binary32} (h : values.head?.any Binary32.isFinite = false) :
    values.takeWhile Binary32.isFinite = [] := by
  cases values with
  | nil => rfl
  | cons v values => exact List.takeWhile_cons_of_neg (Bool.not_eq_true _ ▸ h)

section call

variable {writer : AtomicTraceWriter} {bytes : List UInt8} {call : RowCall}

theorem run_of_not_fits (h : ¬ Fits writer call) : ∃ e, call.run.run writer = .error e writer := by
  unfold RowCall.run AtomicTraceWriter.writeRow
  simp only [EStateM.run_bind, EStateM.run_get]
  cases hwidth : call.values.length == writer.header.vocabSize.toNat with
  | false => exact ⟨_, by rw [run_require_false rfl]⟩
  | true =>
    simp only [run_require_true]
    cases hexpected : expectedRow writer.header writer.header.rows.length with
    | error e => exact ⟨e, rfl⟩
    | ok expected =>
      obtain ⟨phase, position, inputToken⟩ := expected
      simp only [EStateM.run_bind]
      cases hphase : call.phase == phase with
      | false => exact ⟨_, by rw [run_require_false rfl]⟩
      | true =>
        simp only [run_require_true]
        cases hposition : call.position == position with
        | false => exact ⟨_, by rw [run_require_false rfl]⟩
        | true =>
          simp only [run_require_true]
          cases hinput : call.inputToken == inputToken with
          | false => exact ⟨_, by rw [run_require_false rfl]⟩
          | true =>
            rw [beq_iff_eq] at hwidth hphase hposition hinput
            subst hphase hposition hinput
            exact absurd ⟨hwidth, hexpected⟩ h

theorem run_of_finite (h : Fits writer call) (hlogits : writer.logits = some bytes)
    (hfinite : ∀ v ∈ call.values, v.isFinite = true) : call.run.run writer = .ok () (accept writer bytes call) := by
  obtain ⟨hwidth, hexpected⟩ := h
  unfold RowCall.run AtomicTraceWriter.writeRow
  simp only [EStateM.run_bind, EStateM.run_get, run_require_true (beq_iff_eq.mpr hwidth), hexpected, hlogits,
    run_require_true (beq_self_eq_true _), run_onPart, run_writeValues _ hfinite, EStateM.run_modify]
  rfl

theorem run_of_not_finite (h : Fits writer call) (hlogits : writer.logits = some bytes)
    (hvalue : ∃ v ∈ call.values, v.isFinite = false) : ∃ e, call.run.run writer =
      .error e { writer with logits := some (bytes ++ encode (call.values.takeWhile Binary32.isFinite)) } := by
  obtain ⟨hwidth, hexpected⟩ := h
  obtain ⟨e, he⟩ := run_writeValues_error writer.header.rows.length hvalue 0 bytes
  refine ⟨e, ?_⟩
  unfold RowCall.run AtomicTraceWriter.writeRow
  simp only [EStateM.run_bind, EStateM.run_get, run_require_true (beq_iff_eq.mpr hwidth), hexpected, hlogits,
    run_require_true (beq_self_eq_true _), run_onPart, he]

/-- All a call does: it adds its row, leaves bytes of it, or nothing. -/
theorem run_cases (hlogits : writer.logits = some bytes) :
    (Fits writer call ∧ (∀ v ∈ call.values, v.isFinite = true) ∧
      call.run.run writer = .ok () (accept writer bytes call)) ∨
    (LeavesBytes writer call ∧ ∃ e lead, lead ≠ [] ∧
      call.run.run writer = .error e { writer with logits := some (bytes ++ encode lead) }) ∨
    ¬ LeavesBytes writer call ∧ ∃ e, call.run.run writer = .error e writer := by
  by_cases hfits : Fits writer call
  · by_cases hfinite : ∀ v ∈ call.values, v.isFinite = true
    · exact .inl ⟨hfits, hfinite, run_of_finite hfits hlogits hfinite⟩
    · simp only [not_forall, Bool.not_eq_true, exists_prop] at hfinite
      obtain ⟨e, he⟩ := run_of_not_finite hfits hlogits hfinite
      right
      cases hhead : call.values.head?.any Binary32.isFinite with
      | true => exact .inl ⟨⟨hfits, hhead, hfinite⟩, e, _, takeWhile_ne_nil hhead, he⟩
      | false =>
        rw [takeWhile_eq_nil hhead, show encode [] = [] from rfl, List.append_nil, ← hlogits] at he
        exact .inr ⟨fun h => Bool.false_ne_true (hhead.symm.trans h.2.1), e, he⟩
  · exact .inr (.inr ⟨fun h => hfits h.1, run_of_not_fits hfits⟩)

end call

/-! ## A run -/

section run

variable {writer writer' : AtomicTraceWriter} {call : RowCall}

theorem writeCalls_ok (h : call.run.run writer = .ok () writer') (calls : List RowCall) :
    writeCalls (call :: calls) writer = (call.values :: (writeCalls calls writer').1, (writeCalls calls writer').2) := by
  simp only [writeCalls, h]

theorem writeCalls_error {e : String} (h : call.run.run writer = .error e writer') (calls : List RowCall) :
    writeCalls (call :: calls) writer = writeCalls calls writer' := by
  simp only [writeCalls, h]

theorem clean_ok (h : call.run.run writer = .ok () writer') (calls : List RowCall) :
    Clean (call :: calls) writer ↔ ¬ LeavesBytes writer call ∧ Clean calls writer' := by
  simp only [Clean, h]

theorem clean_error {e : String} (h : call.run.run writer = .error e writer') (calls : List RowCall) :
    Clean (call :: calls) writer ↔ ¬ LeavesBytes writer call ∧ Clean calls writer' := by
  simp only [Clean, h]

end run

/-- The writer has the header of the start with a record for each row accepted, and these bytes. -/
structure Holds (start : TraceHeader) (writer : AtomicTraceWriter) (accepted : List (List Binary32))
    (bytes : List UInt8) : Prop where
  logits : writer.logits = some bytes
  header : { writer.header with rows := start.rows } = start
  rows : List.Forall₂ (Records start.vocabSize) writer.header.rows accepted

/-- There are more bytes than the rows accepted have. -/
def Longer (accepted : List (List Binary32)) (bytes : List UInt8) : Prop :=
  (accepted.flatMap encode).length < bytes.length

section holds

variable {start : TraceHeader} {writer : AtomicTraceWriter} {accepted : List (List Binary32)} {bytes : List UInt8}

theorem Holds.fields (h : Holds start writer accepted bytes) : writer.header.vocabSize = start.vocabSize ∧
    writer.header.logitsFile = start.logitsFile ∧ writer.header.engineMetadata = start.engineMetadata := by
  have hvocab := congrArg TraceHeader.vocabSize h.header
  have hfile := congrArg TraceHeader.logitsFile h.header
  have hmetadata := congrArg TraceHeader.engineMetadata h.header
  exact ⟨hvocab, hfile, hmetadata⟩

theorem Holds.accept {call : RowCall} (h : Holds start writer accepted bytes) (hfits : Fits writer call)
    (hfinite : ∀ v ∈ call.values, v.isFinite = true) :
    Holds start (LogitTrace.accept writer bytes call) (accepted ++ [call.values]) (bytes ++ encode call.values) := by
  refine ⟨rfl, h.header, List.rel_append h.rows (.cons ⟨?_, hfinite, rfl⟩ .nil)⟩
  rw [← h.fields.1]
  exact hfits.1

theorem Holds.leave (h : Holds start writer accepted bytes) (bytes' : List UInt8) :
    Holds start { writer with logits := some bytes' } accepted bytes' := ⟨rfl, h.header, h.rows⟩

theorem flatMap_encode_snoc (accepted : List (List Binary32)) (values : List Binary32) :
    (accepted ++ [values]).flatMap encode = accepted.flatMap encode ++ encode values := by
  rw [List.flatMap_append, List.flatMap_singleton]

theorem longer_append {lead : List Binary32} (h : lead ≠ []) (bytes : List UInt8) :
    bytes.length < (bytes ++ encode lead).length := by
  have := List.length_pos_iff.mpr h
  rw [List.length_append, length_encode]
  omega

/-- What a run keeps: its bytes are the accepted rows' exactly if it is clean. -/
theorem writeCalls_holds (calls : List RowCall) : ∀ {writer accepted bytes}, Holds start writer accepted bytes →
    ∃ bytes', Holds start (writeCalls calls writer).2 (accepted ++ (writeCalls calls writer).1) bytes' ∧
      (bytes = accepted.flatMap encode → Clean calls writer →
        bytes' = (accepted ++ (writeCalls calls writer).1).flatMap encode) ∧
      (bytes = accepted.flatMap encode → ¬ Clean calls writer →
        Longer (accepted ++ (writeCalls calls writer).1) bytes') ∧
      (Longer accepted bytes → Longer (accepted ++ (writeCalls calls writer).1) bytes') := by
  induction calls with
  | nil =>
    intro writer accepted bytes h
    rw [show writeCalls [] writer = ([], writer) from rfl, List.append_nil]
    exact ⟨bytes, h, fun heq _ => heq, fun _ hclean => absurd trivial hclean, id⟩
  | cons call calls ih =>
    intro writer accepted bytes h
    rcases run_cases h.logits with ⟨hfits, hfinite, hrun⟩ | ⟨hleaves, e, lead, hlead, hrun⟩ | ⟨hleaves, e, hrun⟩
    case inl =>
      have hleaves : ¬ LeavesBytes writer call := fun hl => by
        obtain ⟨v, hv, hfalse⟩ := hl.2.2
        rw [hfinite v hv] at hfalse
        cases hfalse
      obtain ⟨bytes', hholds, hclean, hdirty, hlonger⟩ := ih (h.accept hfits hfinite)
      rw [List.append_assoc, List.singleton_append] at hholds hclean hdirty hlonger
      rw [writeCalls_ok hrun, clean_ok hrun]
      refine ⟨bytes', hholds, fun heq hc => hclean ?_ hc.2, fun heq hc => hdirty ?_ fun hcl => hc ⟨hleaves, hcl⟩,
        fun hl => hlonger ?_⟩
      · rw [heq, flatMap_encode_snoc]
      · rw [heq, flatMap_encode_snoc]
      · unfold Longer at hl ⊢
        rw [flatMap_encode_snoc, List.length_append, List.length_append]
        omega
    case inr.inl =>
      obtain ⟨bytes', hholds, -, -, hlonger⟩ := ih (h.leave (bytes ++ encode lead))
      have hmore := longer_append hlead bytes
      rw [writeCalls_error hrun, clean_error hrun]
      refine ⟨bytes', hholds, fun _ hc => absurd hleaves hc.1, fun heq _ => hlonger ?_, fun hl => hlonger ?_⟩
      · subst heq
        exact hmore
      · exact lt_trans hl hmore
    case inr.inr =>
      obtain ⟨bytes', hholds, hclean, hdirty, hlonger⟩ := ih h
      rw [writeCalls_error hrun, clean_error hrun]
      exact ⟨bytes', hholds, fun heq hc => hclean heq hc.2, fun heq hc => hdirty heq fun hcl => hc ⟨hleaves, hcl⟩,
        hlonger⟩

end holds

/-! ## From the first call to the reader -/

/-- A new writer has no rows and no bytes. -/
theorem create_ok {place : TracePlace} {destination engine checkpointSha256 : String} {vocabSize : UInt32}
    {promptTokens decodeInputs : List TokenId} {engineMetadata : Json} {writer : AtomicTraceWriter}
    (h : AtomicTraceWriter.create place destination engine checkpointSha256 vocabSize promptTokens decodeInputs
      engineMetadata = .ok writer) :
    writer.logits = some [] ∧ writer.header.rows = [] ∧ writer.header.logitsFile = "logits.f32le" ∧
      writer.header.engineMetadata = engineMetadata := by
  unfold AtomicTraceWriter.create at h
  obtain ⟨-, h⟩ := Fallible.ite_throw_ok h
  obtain ⟨name, -, h⟩ := Fallible.bind_ok h
  obtain ⟨temporary, -, h⟩ := Fallible.bind_ok h
  obtain ⟨_, -, h⟩ := Fallible.bind_ok h
  obtain ⟨_, -, h⟩ := Fallible.bind_ok h
  cases h
  exact ⟨rfl, rfl, rfl, rfl⟩

/-- A writer that publishes has a valid header, and the directory its text and its bytes. -/
theorem finish_ok {json : JsonText} {writer : AtomicTraceWriter} {directory : Directory} {bytes : List UInt8}
    (hlogits : writer.logits = some bytes) (h : AtomicTraceWriter.finish json writer = .ok directory) :
    validateHeader writer.header = .ok () ∧ bytes.length < 2 ^ 63 ∧
      directory.files "trace.json" = some (json.pretty (headerToJson writer.header) ++ utf8 "\n") ∧
      directory.files "logits.f32le" = some bytes := by
  unfold AtomicTraceWriter.finish at h
  obtain ⟨-, h⟩ := Fallible.ite_throw_ok h
  obtain ⟨_, hvalid, h⟩ := Fallible.bind_ok h
  rw [hlogits, context, Fallible.ok_bind] at h
  obtain ⟨hsize, h⟩ := Fallible.ite_throw_ok h
  cases h
  exact ⟨hvalid, Nat.lt_of_not_le hsize, rfl, rfl⟩

/-- The published bytes are the accepted rows', and the reader returns these rows and nothing else. -/
def RoundTrips (json : JsonText) (directory : Directory) (accepted : List (List Binary32)) : Prop :=
  directory.files "logits.f32le" = some (accepted.flatMap encode) ∧
    ∃ reader reader' reader'', TraceReader.open json directory = .ok reader ∧
      (times TraceReader.next accepted.length).run reader = .ok accepted reader' ∧
      TraceReader.finish.run reader' = .ok () reader''

/-! ## A trace of one row -/

def samplePlace : TracePlace where
  pathExists _ := false
  parent _ := some "out"
  fileName _ := some "trace"
  join directory name := directory ++ "/" ++ name
  processId := 1

def sampleSha : String := "0123456789abcdef0123456789abcdef0123456789abcdef0123456789abcdef"

def sampleHeader : TraceHeader where
  format := traceFormat
  version := traceVersion
  engine := "test"
  checkpointSha256 := sampleSha
  vocabSize := 2
  promptTokens := [0]
  decodeInputs := []
  logitsDtype := "f32"
  logitsByteOrder := "little"
  rows := [{ phase := .prefill, position := 0, inputToken := 0, argmax := 1 }]
  logitsFile := "logits.f32le"

def sampleText : String :=
  "\x7b\n  \"format\": \"dyninfer.logit-trace\",\n  \"version\": 1,\n  \"engine\": \"test\",\n" ++
  "  \"checkpoint_sha256\": \"0123456789abcdef0123456789abcdef0123456789abcdef0123456789abcdef\",\n" ++
  "  \"vocab_size\": 2,\n  \"prompt_tokens\": [\n    0\n  ],\n  \"decode_inputs\": [],\n" ++
  "  \"logits_dtype\": \"f32\",\n  \"logits_byte_order\": \"little\",\n  \"rows\": [\n    \x7b\n" ++
  "      \"phase\": \"prefill\",\n      \"position\": 0,\n      \"input_token\": 0,\n      \"argmax\": 1\n" ++
  "    \x7d\n  ],\n  \"logits_file\": \"logits.f32le\"\n\x7d"

/-- The text of the sample header, and its value. -/
def sampleJson : JsonText where
  pretty _ := utf8 sampleText
  fromSlice _ := .ok (headerToJson sampleHeader)

theorem sampleJson_readsBack : sampleJson.ReadsBack (headerToJson sampleHeader) := by
  rw [JsonText.ReadsBack, if_pos (by rw [depth_headerToJson_le_iff]; decide)]
  refine ⟨_, rfl, .object ?_⟩
  exact .cons _ (.string _) <| .cons _ (.posInt _) <| .cons _ (.string _) <| .cons _ (.string _) <|
    .cons _ (.posInt _) <| .cons _ (.array (.cons (.posInt _) .nil)) <| .cons _ (.array .nil) <| .cons _ (.string _) <|
    .cons _ (.string _) <| .cons _ (.array <| .cons (.object <| .cons _ (.string _) <| .cons _ (.posInt _) <|
      .cons _ (.posInt _) <| .cons _ (.posInt _) .nil) .nil) <| .cons _ (.string _) .nil

def sampleRow (values : List Binary32) : RowCall := { phase := .prefill, position := 0, inputToken := 0, values }

/-- The numbers one and two, and a NaN. -/
def sampleValues : Binary32 × Binary32 × Binary32 := (⟨0x3f800000⟩, ⟨0x40000000⟩, ⟨0x7fc00000⟩)

def sampleWriter : AtomicTraceWriter where
  destination := "out/trace"
  temporary := "out/.trace.tmp-1-0"
  header := { sampleHeader with rows := [] }
  logits := some []

theorem create_sample : AtomicTraceWriter.create samplePlace "out/trace" "test" sampleSha 2 [0] [] .null =
    .ok sampleWriter := by
  have hrange : List.range 1000 = 0 :: (List.range 999).map Nat.succ := List.range_succ_eq_map
  unfold AtomicTraceWriter.create
  rw [hrange]
  rfl

/-! ## The round trip -/

/-- **A trace round trips**, rows refused on the way or not, exactly if no refused row left bytes and the metadata
does not nest too deep for the reader. -/
theorem round_trip_iff {json : JsonText} {place : TracePlace} {destination engine checkpointSha256 : String}
    {vocabSize : UInt32} {promptTokens decodeInputs : List TokenId} {engineMetadata : Json} {writer : AtomicTraceWriter}
    {calls : List RowCall} {directory : Directory}
    (hcreate : AtomicTraceWriter.create place destination engine checkpointSha256 vocabSize promptTokens decodeInputs
      engineMetadata = .ok writer)
    (hfinish : AtomicTraceWriter.finish json (writeCalls calls writer).2 = .ok directory)
    (hread : json.ReadsBack (headerToJson (writeCalls calls writer).2.header)) :
    RoundTrips json directory (writeCalls calls writer).1 ↔ Clean calls writer ∧ engineMetadata.depth ≤ 126 := by
  obtain ⟨hlogits, hrows, hlogitsFile, hmetadata⟩ := create_ok hcreate
  have hstart : Holds writer.header writer [] [] := ⟨hlogits, rfl, hrows ▸ .nil⟩
  obtain ⟨bytes, hholds, hclean, hdirty, -⟩ := writeCalls_holds calls hstart
  rw [List.nil_append] at hholds hclean hdirty
  obtain ⟨hvalid, hsize, htext, hbytes⟩ := finish_ok hholds.logits hfinish
  obtain ⟨hvocab, hfinal, hfinalMetadata⟩ := hholds.fields
  rw [hlogitsFile] at hfinal
  rw [hmetadata] at hfinalMetadata
  have hdepth := depth_headerToJson_le_iff (writeCalls calls writer).2.header
  rw [hfinalMetadata] at hdepth
  constructor
  · rintro ⟨hpublished, reader, -, -, hopen, -, -⟩
    constructor
    · by_contra hnot
      have hlonger := hdirty rfl hnot
      rw [Option.some.inj (hbytes.symm.trans hpublished)] at hlonger
      exact lt_irrefl _ hlonger
    · by_contra hdeep
      rw [JsonText.ReadsBack, if_neg (mt hdepth.mp hdeep)] at hread
      obtain ⟨e, he⟩ := hread
      exact open_unreadable htext he reader hopen
  · rintro ⟨hc, hle⟩
    have hexact := hclean rfl hc
    rw [JsonText.ReadsBack, if_pos (hdepth.mpr hle)] at hread
    obtain ⟨value, hvalue, haside⟩ := hread
    obtain ⟨metadata, rfl⟩ := floatsAside_header haside
    have hlength := length_flatMap_encode hholds.rows
    rw [← hexact, ← hvocab] at hlength
    have hopen := (open_eq htext hvalue (headerOfJson_headerToJson _) hvalid (by rw [hfinal]; exact hbytes)
      (by omega)).1 hlength
    have hrecords := hholds.rows
    rw [← hvocab] at hrecords
    have hnext := times_next { (writeCalls calls writer).2.header with engineMetadata := metadata } hrecords
      (List.drop_zero ..)
    rw [← hexact, Nat.zero_add] at hnext
    exact ⟨hexact ▸ hbytes, _, _, _, hopen, hnext, run_finish hrecords.length_eq.symm⟩

/-- A row whose first value is no number is refused without a trace. -/
theorem round_trip_sample : ∃ directory, AtomicTraceWriter.finish sampleJson
    (writeCalls [sampleRow [sampleValues.2.2, sampleValues.1], sampleRow [sampleValues.1, sampleValues.2.1]]
      sampleWriter).2 = .ok directory ∧ RoundTrips sampleJson directory [[sampleValues.1, sampleValues.2.1]] := by
  obtain ⟨directory, hfinish⟩ : ∃ directory, AtomicTraceWriter.finish sampleJson
      (writeCalls [sampleRow [sampleValues.2.2, sampleValues.1], sampleRow [sampleValues.1, sampleValues.2.1]]
        sampleWriter).2 = .ok directory := ⟨_, rfl⟩
  refine ⟨directory, hfinish, (round_trip_iff create_sample hfinish sampleJson_readsBack).mpr ⟨⟨?_, ?_, trivial⟩, ?_⟩⟩
  · exact fun h => absurd h.2.1 (by decide)
  · exact fun h => absurd h.2.2 (by decide)
  · decide

/-- A row with a number in front of a NaN is refused, and the published trace does not open. -/
theorem leading_values_remain : ∃ directory, AtomicTraceWriter.create samplePlace "out/trace" "test" sampleSha 2 [0] []
    .null = .ok sampleWriter ∧
    AtomicTraceWriter.finish sampleJson (writeCalls [sampleRow [sampleValues.1, sampleValues.2.2],
      sampleRow [sampleValues.1, sampleValues.2.1]] sampleWriter).2 = .ok directory ∧
    (writeCalls [sampleRow [sampleValues.1, sampleValues.2.2], sampleRow [sampleValues.1, sampleValues.2.1]]
      sampleWriter).1 = [[sampleValues.1, sampleValues.2.1]] ∧
    sampleJson.ReadsBack (headerToJson (writeCalls [sampleRow [sampleValues.1, sampleValues.2.2],
      sampleRow [sampleValues.1, sampleValues.2.1]] sampleWriter).2.header) ∧
    TraceReader.open sampleJson directory = .error
      "trace logits size mismatch: expected 8 bytes, found 12 (truncated or trailing data)" :=
  ⟨_, create_sample, rfl, rfl, sampleJson_readsBack, rfl⟩

end LogitTrace

end Dyninfer
