/-
Every row that a run of the reference engine writes is recorded as a reader of
traces expects it: the prompt's last position, then one position after another,
the inputs those of the trajectory, the argmax that of the row. So the
directory that the run publishes reads back, logit for logit.
-/
import Dyninfer.Cli.LogitTraceRuns
import Dyninfer.Lib.FirstMax
import Dyninfer.LlamaLogits.RunMode
import Dyninfer.LlamaLogits.TraceTextFacts

namespace Dyninfer

open Bytes Effect FirstMax LogitTrace

namespace LlamaLogits

variable {S : Type} {llama : Llama S}

/-- The logits of the vocabulary are finite, and what the engine says of itself is text. -/
structure Llama.Sound (llama : Llama S) : Prop where
  finite : ∀ s value, llama.logits s = some value → ∀ token < llama.vocabularySize.toInt.toNat,
    (value token).isFinite = true
  report : ∀ s, (llama.report s).Valid

/-- No call fails. -/
structure Llama.Succeeds (llama : Llama S) : Prop where
  decode : ∀ batch s, (llama.decode batch s).1 = 0
  logits : ∀ s, llama.logits s ≠ none

/-! ## One row of logits -/

/-- The loop writes the row and finds its first maximum. -/
theorem run_writeLogits {value : Nat → Binary32} (n : Nat) : ∀ {token : Nat} {best : Nat × Binary32} {bytes : List UInt8},
    (∀ i < n, (value (token + i)).isFinite = true) →
      (writeLogits value n token best).run bytes =
        .ok (scan Binary32.gt best ((List.range' token n).map value) token).1
          (bytes ++ encode ((List.range' token n).map value)) := by
  induction n with
  | zero =>
    intro token best bytes _
    rw [show encode ((List.range' token 0).map value) = [] from rfl, List.append_nil]
    rfl
  | succ n ih =>
    intro token best bytes h
    have hfirst := h 0 (by omega)
    have hrest : ∀ i < n, (value (token + 1 + i)).isFinite = true := by
      intro i hi
      have hi := h (i + 1) (by omega)
      rwa [← Nat.add_assoc, Nat.add_right_comm] at hi
    rw [Nat.add_zero] at hfirst
    rw [writeLogits]
    simp only [EStateM.run_bind, run_require_true hfirst, EStateM.run_modify, ih hrest]
    rw [List.range'_succ, List.map_cons, scan_cons, List.append_assoc]
    rfl

/-- The row of output is the record of these values. -/
structure Written (vocabularySize : Nat) (row : OutputRow) (values : List Binary32) : Prop where
  length : values.length = vocabularySize
  finite : ∀ v ∈ values, v.isFinite = true
  argmax : LogitTrace.argmax values = row.argmax

theorem argmax_lt {values : List Binary32} (h : values ≠ []) (hlength : values.length < 2 ^ 32) :
    (LogitTrace.argmax values).toNat < values.length := by
  have hpos := List.length_pos_iff.mpr h
  have hindex : (scan Binary32.gt (0, Binary32.negInfinity) values 0).1 < values.length := by
    rcases scan_index values (0, Binary32.negInfinity) 0 with h | h
    · rw [h]
      exact hpos
    · omega
  show (UInt32.ofNat (scan Binary32.gt (0, Binary32.negInfinity) values 0).1).toNat < _
  rw [UInt32.toNat_ofNat', Nat.mod_eq_of_lt (by omega)]
  exact hindex

theorem run_writeLogitRow {s : RunState S} {value : Nat → Binary32} (hlogits : llama.logits s.context = some value)
    (hfinite : ∀ token < llama.vocabularySize.toInt.toNat, (value token).isFinite = true) :
    (writeLogitRow llama).run s =
      .ok (LogitTrace.argmax ((List.range llama.vocabularySize.toInt.toNat).map value)) { s with
        produced := s.produced ++ [(List.range llama.vocabularySize.toInt.toNat).map value]
        logits := s.logits ++ encode ((List.range llama.vocabularySize.toInt.toNat).map value) } := by
  have hrun := fun bytes => @run_writeLogits value llama.vocabularySize.toInt.toNat 0 (0, Binary32.negInfinity) bytes
    (fun i hi => by rw [Nat.zero_add]; exact hfinite i hi)
  rw [← List.range_eq_range'] at hrun
  unfold writeLogitRow
  simp only [EStateM.run_bind, EStateM.run_get, hlogits, EStateM.run_modify, run_onPart, hrun]
  rfl

/-- A row is written whole, or the engine failed. -/
theorem writeLogitRow_spec (hsound : llama.Sound) (s : RunState S) : Triple (· = s) (writeLogitRow llama)
    (fun argmax t => ∃ values, values.length = llama.vocabularySize.toInt.toNat ∧
      (∀ v ∈ values, v.isFinite = true) ∧ argmax = LogitTrace.argmax values ∧
      t = { s with produced := s.produced ++ [values], logits := s.logits ++ encode values })
    (fun _ => ¬ llama.Succeeds) := by
  rintro t rfl
  cases hlogits : llama.logits t.context with
  | none =>
    have hrun : (writeLogitRow llama).run t = .error "llama_get_logits_ith returned null" t := by
      unfold writeLogitRow
      simp only [EStateM.run_bind, EStateM.run_get, hlogits, run_throw]
    rw [hrun]
    exact fun h => h.logits _ hlogits
  | some value =>
    have hfinite := hsound.finite _ _ hlogits
    rw [run_writeLogitRow hlogits hfinite]
    refine ⟨_, by simp, fun v hv => ?_, rfl, rfl⟩
    obtain ⟨token, htoken, rfl⟩ := List.mem_map.mp hv
    exact hfinite token (List.mem_range.mp htoken)

theorem decodeBatch_spec (batch : List BatchToken) (failure : String) (s : RunState S) :
    Triple (· = s) (decodeBatch llama batch failure) (fun _ t => ∃ context, t = { s with context := context })
      (fun _ => ¬ llama.Succeeds) := by
  rintro t rfl
  unfold decodeBatch
  simp only [EStateM.run_bind, EStateM.run_get, EStateM.run_set]
  cases hstatus : (llama.decode batch t.context).1 == 0 with
  | true =>
    rw [run_require_true rfl]
    exact ⟨_, rfl⟩
  | false =>
    rw [run_require_false rfl]
    intro h
    rw [h.decode] at hstatus
    cases hstatus

/-! ## The rows of a trajectory -/

/-- A header with this trajectory. -/
def trajectory (prompt inputs : List TokenId) : TraceHeader where
  format := traceFormat
  version := traceVersion
  engine := "llama.cpp"
  checkpointSha256 := ""
  vocabSize := 0
  promptTokens := prompt
  decodeInputs := inputs
  logitsDtype := "f32"
  logitsByteOrder := "little"
  rows := []
  logitsFile := "logits.f32le"

/-- Only the trajectory of a header counts. -/
theorem expectedRow_trajectory (header : TraceHeader) (i : Nat) :
    expectedRow header i = expectedRow (trajectory header.promptTokens header.decodeInputs) i := rfl

theorem expectedRow_zero {prompt inputs : List TokenId} (h : prompt ≠ []) : expectedRow (trajectory prompt inputs) 0 =
    .ok (.prefill, UInt64.ofNat (prompt.length - 1), prompt.getLastD 0) := by
  unfold expectedRow
  rw [if_pos rfl]
  cases hlast : prompt.getLast? with
  | none => exact absurd (List.getLast?_eq_none_iff.mp hlast) h
  | some last => simp [trajectory, hlast, List.getLastD_eq_getLast?]

theorem expectedRow_succ {prompt inputs : List TokenId} {step : Nat} {input : TokenId}
    (hinput : inputs[step]? = some input) (hsize : prompt.length + step < 2 ^ 64) :
    expectedRow (trajectory prompt inputs) (step + 1) =
      .ok (.decode, UInt64.ofNat (prompt.length + step), input) := by
  unfold expectedRow
  rw [if_neg (by omega), if_neg (by simp [trajectory]; omega)]
  simp [trajectory, hinput]

/-- A row stays expected when inputs are added. -/
theorem expectedRow_append {prompt inputs : List TokenId} {i : Nat} {row : TracePhase × UInt64 × TokenId}
    (input : TokenId) (h : expectedRow (trajectory prompt inputs) i = .ok row) :
    expectedRow (trajectory prompt (inputs ++ [input])) i = .ok row := by
  unfold expectedRow at h ⊢
  split
  case isTrue hi =>
    rw [if_pos hi] at h
    exact h
  case isFalse hi =>
    rw [if_neg hi] at h
    by_cases hsize : (trajectory prompt inputs).promptTokens.length + (i - 1) ≥ 2 ^ 64
    · rw [if_pos hsize] at h
      cases h
    · rw [if_neg hsize] at h
      rw [if_neg (show ¬ (trajectory prompt (inputs ++ [input])).promptTokens.length + (i - 1) ≥ 2 ^ 64 from hsize)]
      cases hget : inputs[i - 1]? with
      | none =>
        simp only [trajectory, hget] at h
        cases h
      | some input' =>
        have hlt := (List.getElem?_eq_some_iff.mp hget).1
        simp only [trajectory, hget] at h
        simp only [trajectory, List.getElem?_append_left hlt, hget]
        exact h

/-! ## The loop -/

/-- The rows so far are the trajectory's, recorded with what the engine returned. -/
structure Traced (llama : Llama S) (prompt : List TokenId) (s : RunState S) : Prop where
  rows : ∀ i row, s.rows[i]? = some row →
    expectedRow (trajectory prompt s.decodeInputs) i = .ok (row.phase, row.position, row.inputToken)
  recorded : List.Forall₂ (Written llama.vocabularySize.toInt.toNat) s.rows s.produced
  logits : s.logits = s.produced.flatMap encode
  inputs : ∀ token ∈ s.decodeInputs, token.toNat < llama.vocabularySize.toInt.toNat

section rows

variable {prompt : List TokenId} {s : RunState S}

theorem Traced.push {values : List Binary32} {row : OutputRow} (h : Traced llama prompt s) (context : S)
    (hexpected : expectedRow (trajectory prompt s.decodeInputs) s.rows.length =
      .ok (row.phase, row.position, row.inputToken))
    (hwritten : Written llama.vocabularySize.toInt.toNat row values) :
    Traced llama prompt { s with
      context, logits := s.logits ++ encode values, produced := s.produced ++ [values], rows := s.rows ++ [row] } := by
  refine ⟨fun i row' hget => ?_, List.rel_append h.recorded (.cons hwritten .nil), ?_, h.inputs⟩
  · change (s.rows ++ [row])[i]? = some row' at hget
    rw [List.getElem?_append] at hget
    split at hget
    case isTrue => exact h.rows i row' hget
    case isFalse hi =>
      rw [List.getElem?_singleton] at hget
      split at hget
      case isTrue h0 =>
        obtain rfl : i = s.rows.length := by omega
        cases hget
        exact hexpected
      case isFalse => cases hget
  · show s.logits ++ encode values = (s.produced ++ [values]).flatMap encode
    rw [flatMap_encode_snoc, h.logits]

theorem Traced.input {token : TokenId} (h : Traced llama prompt s)
    (htoken : token.toNat < llama.vocabularySize.toInt.toNat) :
    Traced llama prompt { s with decodeInputs := s.decodeInputs ++ [token] } := by
  refine ⟨fun i row hget => expectedRow_append token (h.rows i row hget), h.recorded, h.logits, fun t ht => ?_⟩
  rcases List.mem_append.mp ht with hin | hlast
  · exact h.inputs t hin
  · rw [List.mem_singleton.mp hlast]
    exact htoken

/-- A batch, its row of logits and the record of it, in front of more. -/
theorem row_spec {α : Type} {phase : TracePhase} {position : UInt64} {input : TokenId}
    {f : TokenId → EStateM String (RunState S) α} {Q : α → RunState S → Prop} (hsound : llama.Sound)
    (hvocab : 0 < llama.vocabularySize.toInt.toNat) (batch : List BatchToken) (failure : String)
    (h : Traced llama prompt s)
    (hexpected : expectedRow (trajectory prompt s.decodeInputs) s.rows.length = .ok (phase, position, input))
    (hf : ∀ argmax t, argmax.toNat < llama.vocabularySize.toInt.toNat → Traced llama prompt t →
      t.rows.length = s.rows.length + 1 → t.decodeInputs = s.decodeInputs →
      Triple (· = t) (f argmax) Q fun _ => ¬ llama.Succeeds) :
    Triple (· = s) (do
      decodeBatch llama batch failure
      let argmax ← writeLogitRow llama
      pushRow { phase, position, inputToken := input, argmax }
      f argmax) Q fun _ => ¬ llama.Succeeds := by
  refine (decodeBatch_spec batch failure s).bind fun _ => Triple.exists fun context => ?_
  refine (writeLogitRow_spec hsound { s with context }).bind fun argmax => Triple.exists fun values => ?_
  refine Triple.assume fun hlength => Triple.assume fun hfinite => Triple.assume fun hargmax => ?_
  subst hargmax
  have hlt : llama.vocabularySize.toInt.toNat < 2 ^ 32 := by
    have := Int32.toInt_lt llama.vocabularySize
    omega
  have hne : values ≠ [] := by
    rw [← List.length_pos_iff, hlength]
    exact hvocab
  have hrow := argmax_lt hne (by rw [hlength]; exact hlt)
  rw [hlength] at hrow
  have hpushed := @Traced.push S llama prompt s values
    { phase, position, inputToken := input, argmax := LogitTrace.argmax values } h context hexpected
    ⟨hlength, hfinite, rfl⟩
  refine Triple.bind (Q := fun _ t => t = _) ?_ fun _ => hf _ _ hrow hpushed (by simp) rfl
  rintro t rfl
  rfl

/-- With the inputs given there is one for each step left; without, one for each step done. -/
def Feeds (explicit : Bool) (inputs : List TokenId) (step n : Nat) : Prop :=
  inputs.length = if explicit then step + n else step

/-- A step's input is that of the trajectory. -/
theorem stepInput_spec {explicit : Bool} {step n : Nat} {current : TokenId} (h : Traced llama prompt s)
    (hfeeds : Feeds explicit s.decodeInputs step (n + 1)) (hcurrent : current.toNat < llama.vocabularySize.toInt.toNat) :
    Triple (· = s) (stepInput explicit step current) (fun input t => Traced llama prompt t ∧ t.rows = s.rows ∧
      t.decodeInputs[step]? = some input ∧ Feeds explicit t.decodeInputs (step + 1) n) fun _ => ¬ llama.Succeeds := by
  rintro t rfl
  unfold Feeds at hfeeds
  cases explicit with
  | true =>
    rw [if_pos rfl] at hfeeds
    have hlt : step < t.decodeInputs.length := by omega
    refine ⟨h, rfl, ?_, by unfold Feeds; rw [if_pos rfl]; omega⟩
    rw [List.getD_eq_getElem?_getD, List.getElem?_eq_getElem hlt]
    rfl
  | false =>
    rw [if_neg Bool.false_ne_true] at hfeeds
    refine ⟨h.input hcurrent, rfl, ?_, ?_⟩
    · show (t.decodeInputs ++ [current])[step]? = some current
      rw [← hfeeds, List.getElem?_concat_length]
    · show (t.decodeInputs ++ [current]).length = _
      rw [List.length_append, hfeeds]
      rfl

theorem decodeRows_spec (hsound : llama.Sound) (hvocab : 0 < llama.vocabularySize.toInt.toNat) {explicit : Bool}
    (n : Nat) : ∀ {step : Nat} {current : TokenId} {s : RunState S}, Traced llama prompt s →
      s.rows.length = step + 1 → Feeds explicit s.decodeInputs step n →
      current.toNat < llama.vocabularySize.toInt.toNat → prompt.length + step + n < 2 ^ 64 →
      Triple (· = s) (decodeRows llama prompt explicit n step current) (fun _ t => Traced llama prompt t ∧
        t.rows.length = t.decodeInputs.length + 1 ∧ t.rows.length = step + n + 1) fun _ => ¬ llama.Succeeds := by
  induction n with
  | zero =>
    intro step current s h hrows hfeeds _ _
    unfold Feeds at hfeeds
    rintro t rfl
    refine ⟨h, ?_, hrows⟩
    rw [hrows, hfeeds]
    split <;> rfl
  | succ n ih =>
    intro step current s h hrows hfeeds hcurrent hsize
    unfold decodeRows
    refine (stepInput_spec h hfeeds hcurrent).bind fun input => Triple.of_forall fun t ht => ?_
    obtain ⟨htraced, hsame, hinput, hnext⟩ := ht
    have hexpected := @expectedRow_succ prompt t.decodeInputs step input hinput (by omega)
    rw [← hrows, ← hsame] at hexpected
    refine row_spec hsound hvocab _ _ htraced hexpected fun argmax u hargmax hu hlength hinputs => ?_
    rw [← hinputs] at hnext
    refine (ih hu (by rw [hlength, hsame, hrows]) hnext hargmax (by omega)).conseq (fun _ h => h) (fun _ v hv => ?_)
      fun _ h => h
    exact ⟨hv.1, hv.2.1, by have := hv.2.2; omega⟩

theorem feeds_start {decode : DecodeRequest} (h : decode.inputs.length < 2 ^ 32) :
    Feeds decode.explicit decode.inputs 0 decode.decodeSteps.toNat := by
  unfold Feeds
  cases decode with
  | tokens inputs =>
    change inputs.length < 2 ^ 32 at h
    have hcast : (UInt32.ofNat inputs.length).toNat = inputs.length := by
      rw [UInt32.toNat_ofNat', Nat.mod_eq_of_lt h]
    show inputs.length = 0 + (UInt32.ofNat inputs.length).toNat
    rw [hcast, Nat.zero_add]
  | steps n => rfl

/-- The rows of a run: one more than the inputs, all as expected. -/
theorem traceRows_spec (hsound : llama.Sound) (hvocab : 0 < llama.vocabularySize.toInt.toNat) {args : RunArgs}
    (hprompt : args.prompt ≠ []) (hsize : args.prompt.length + args.decode.decodeSteps.toNat < 2 ^ 64)
    (hinputs : ∀ token ∈ args.decode.inputs, token.toNat < llama.vocabularySize.toInt.toNat)
    (hlength : args.decode.inputs.length < 2 ^ 32) :
    Triple (· = { context := llama.context, decodeInputs := args.decode.inputs }) (traceRows llama args)
      (fun _ t => Traced llama args.prompt t ∧ t.rows.length = t.decodeInputs.length + 1 ∧
        t.rows.length = args.decode.decodeSteps.toNat + 1) fun _ => ¬ llama.Succeeds := by
  have hstart : Traced llama args.prompt { context := llama.context, decodeInputs := args.decode.inputs } :=
    ⟨fun _ _ h => absurd h (by simp), .nil, rfl, hinputs⟩
  unfold traceRows prefillRow
  simp only [bind_assoc, pure_bind]
  refine row_spec hsound hvocab _ _ hstart (expectedRow_zero hprompt) fun argmax t hargmax ht hrows hsame => ?_
  have hfeeds := feeds_start hlength
  change t.decodeInputs = args.decode.inputs at hsame
  change t.rows.length = 0 + 1 at hrows
  rw [← hsame] at hfeeds
  exact (decodeRows_spec hsound hvocab _ ht hrows hfeeds hargmax (by omega)).conseq (fun _ h => h)
    (fun _ u hu => ⟨hu.1, hu.2.1, by have := hu.2.2; omega⟩) fun _ h => h

end rows

/-! ## The header of a run -/

theorem depth_ofInt (i : Int) : (ofInt i).depth ≤ 0 := by
  unfold ofInt
  split <;> exact Nat.le_refl 0

theorem depth_value (engine : EngineMetadata) : engine.value.depth ≤ 126 := by
  unfold EngineMetadata.value
  rw [Json.depth]
  refine Nat.le_trans (Nat.succ_le_succ (Json.depthObject_le fun f hf => ?_)) (by omega : 0 + 1 ≤ 126)
  simp only [List.mem_cons, List.not_mem_nil, or_false] at hf
  rcases hf with rfl | rfl | rfl | rfl | rfl | rfl | rfl | rfl | rfl | rfl | rfl | rfl | rfl | rfl | rfl | rfl
  case inr.inr.inr.inr.inr.inr.inr.inl => exact depth_ofInt _
  case inr.inr.inr.inr.inr.inr.inr.inr.inl => exact depth_ofInt _
  case inr.inr.inr.inr.inr.inr.inr.inr.inr.inl => exact depth_ofInt _
  all_goals exact Nat.le_refl 0

/-- The records of the rows, numbered from `n` on. -/
theorem records_zipIdx {vocabularySize : Nat} (hvocab : vocabularySize < 2 ^ 32) (forced : Nat → Option TokenId)
    {rows : List OutputRow} {produced : List (List Binary32)}
    (h : List.Forall₂ (Written vocabularySize) rows produced) : ∀ n : Nat,
      List.Forall₂ (Records (UInt32.ofNat vocabularySize))
        ((rows.zipIdx n).map fun row => TraceParts.traceRow row.1 (forced row.2)) produced := by
  induction h with
  | nil => exact fun _ => .nil
  | cons hrow _ ih =>
    intro n
    refine .cons ⟨?_, hrow.finite, hrow.argmax⟩ (ih (n + 1))
    rw [hrow.length, UInt32.toNat_ofNat', Nat.mod_eq_of_lt hvocab]

theorem validateTokens_ok_iff {vocabularySize : Nat} {tokens : List TokenId} {kind : String} :
    validateTokens vocabularySize tokens kind = .ok () ↔ ∀ token ∈ tokens, token.toNat < vocabularySize := by
  unfold validateTokens
  constructor
  · intro h token htoken
    split at h
    case h_1 => cases h
    case h_2 hnone =>
      obtain ⟨i, hi⟩ := List.mem_iff_getElem?.mp htoken
      have hnot := List.find?_eq_none.mp hnone (token, i) (List.mem_zipIdx_iff_getElem?.mpr hi)
      simpa using hnot
  · intro h
    have hnone : tokens.zipIdx.find? (fun t => decide (vocabularySize ≤ t.1.toNat)) = none := by
      rw [List.find?_eq_none]
      intro t ht
      rw [decide_eq_true_eq, not_le]
      exact h t.1 (List.mem_of_getElem? (List.mem_zipIdx_iff_getElem?.mp ht))
    rw [hnone]

theorem checkArgs_ok {args : RunArgs} (h : checkArgs args = .ok ()) : args.requestedContext.toNat < 2 ^ 31 ∧
    args.prompt.length + args.decode.decodeSteps.toNat ≤ args.requestedContext.toNat := by
  unfold checkArgs at h
  obtain ⟨hcontext, h⟩ := Fallible.ite_throw_ok h
  obtain ⟨-, h⟩ := Fallible.ite_throw_ok h
  obtain ⟨-, h⟩ := Fallible.ite_throw_ok h
  obtain ⟨-, h⟩ := Fallible.ite_throw_ok h
  refine ⟨Nat.lt_of_not_le hcontext, ?_⟩
  split at h
  case isTrue => cases h
  case isFalse hfit => omega

/-- The header of a finished run is valid. -/
theorem validateHeader_run {args : RunArgs} {s : RunState S} (hpos : 0 < llama.vocabularySize.toInt.toNat)
    (hprompt : args.prompt ≠ []) (htokens : ∀ token ∈ args.prompt, token.toNat < llama.vocabularySize.toInt.toNat)
    (h : Traced llama args.prompt s) (hcount : s.rows.length = s.decodeInputs.length + 1) :
    validateHeader (traceParts llama args s).header = .ok () := by
  have hlt : llama.vocabularySize.toInt.toNat < 2 ^ 31 := by
    have := Int32.toInt_lt llama.vocabularySize
    omega
  have hvocab : (UInt32.ofNat llama.vocabularySize.toInt.toNat).toNat = llama.vocabularySize.toInt.toNat := by
    rw [UInt32.toNat_ofNat', Nat.mod_eq_of_lt (by omega)]
  have hbelow {token : TokenId} (ht : token.toNat < llama.vocabularySize.toInt.toNat) :
      token < UInt32.ofNat llama.vocabularySize.toInt.toNat := by
    rw [UInt32.lt_iff_toNat_lt, hvocab]
    exact ht
  obtain ⟨hlength, hdigits⟩ := fileSha256_hex args.checkpoint
  rw [← utf8_text (isText_fileSha256 args.checkpoint)] at hlength hdigits
  have hengine : ¬ "llama.cpp".toList.all isWhitespace = true := by decide
  have hfile : isPlainName "logits.f32le" = true := by decide
  refine validateHeader_ok rfl rfl hengine (ensureSha256_ok hlength hdigits) ?_ rfl rfl hfile
    (validateTrajectory_ok hprompt (fun t ht => hbelow (htokens t ht)) fun t ht => hbelow (h.inputs t ht)) ?_
    fun row hrow => ?_
  · intro hzero
    have hnat := congrArg UInt32.toNat hzero
    change (UInt32.ofNat llama.vocabularySize.toInt.toNat).toNat = 0 at hnat
    omega
  · show ((s.rows.zipIdx).map _).length = s.decodeInputs.length + 1
    rw [List.length_map, List.length_zipIdx, hcount]
  · have hget := List.mem_zipIdx_iff_getElem?.mp hrow
    change ((s.rows.zipIdx).map _)[row.2]? = some row.1 at hget
    rw [List.getElem?_map, Option.map_eq_some_iff] at hget
    obtain ⟨v, hv, hmk⟩ := hget
    rw [List.getElem?_zipIdx, Option.map_eq_some_iff] at hv
    obtain ⟨outputRow, hrow', rfl⟩ := hv
    have hexpected := h.rows row.2 outputRow hrow'
    rw [← hmk]
    refine checkRow_ok ?_ (hbelow ?_) ?_
    · rw [expectedRow_trajectory]
      exact hexpected
    · obtain ⟨values, -, hwritten⟩ := Fallible.exists_of_forall₂ h.recorded (List.mem_of_getElem? hrow')
      have hne : values ≠ [] := by
        rw [← List.length_pos_iff, hwritten.length]
        exact hpos
      have hrow := argmax_lt hne (by rw [hwritten.length]; omega)
      rw [hwritten.argmax, hwritten.length] at hrow
      exact hrow
    · show s.decodeInputs[0 + row.2]? = s.decodeInputs[row.2]?
      rw [Nat.zero_add]

/-! ## The directory -/

/-- The directory that a run ends with. -/
def published (llama : Llama S) (args : RunArgs) (s : RunState S) : Directory where
  path := args.destination
  files := fun name =>
    if name = "trace.json" then some (traceParts llama args s).traceText
    else if name = "logits.f32le" then some s.logits else none

/-- The text of the header reads as the header. -/
theorem fromSlice_traceText {json : JsonText} {args : RunArgs} {s : RunState S} (hsound : llama.Sound)
    (hrows : s.rows ≠ [])
    (hread : json.Reads (headerToJson (traceParts llama args s).header) (traceParts llama args s).traceText) :
    json.fromSlice (traceParts llama args s).traceText = .ok (headerToJson (traceParts llama args s).header) := by
  refine hread (TraceParts.document hrows (isText_fileSha256 args.checkpoint) (hsound.report s.context)) ?_
  exact (depth_headerToJson_le_iff _).mpr (depth_value _)

theorem roundTrips_published {json : JsonText} {args : RunArgs} {s : RunState S} (hsound : llama.Sound)
    (hpos : 0 < llama.vocabularySize.toInt.toNat) (hprompt : args.prompt ≠ [])
    (htokens : ∀ token ∈ args.prompt, token.toNat < llama.vocabularySize.toInt.toNat)
    (h : Traced llama args.prompt s) (hcount : s.rows.length = s.decodeInputs.length + 1)
    (hrows : s.rows.length ≤ 2 ^ 31)
    (hread : json.Reads (headerToJson (traceParts llama args s).header) (traceParts llama args s).traceText) :
    RoundTrips json (published llama args s) s.produced := by
  have hvocab : llama.vocabularySize.toInt.toNat ≤ 2 ^ 31 - 1 := by
    have := Int32.toInt_lt llama.vocabularySize
    omega
  have hne : s.rows ≠ [] := by
    rw [← List.length_pos_iff]
    omega
  have hrecords : List.Forall₂ (Records (traceParts llama args s).header.vocabSize)
      (traceParts llama args s).header.rows s.produced :=
    records_zipIdx (by omega) (fun i => s.decodeInputs[i]?) h.recorded 0
  have hlength := length_flatMap_encode hrecords
  have hheader : (traceParts llama args s).header.rows.length = s.rows.length := by
    show ((s.rows.zipIdx).map _).length = s.rows.length
    rw [List.length_map, List.length_zipIdx]
  have hsize : (s.produced.flatMap encode).length < 2 ^ 64 := by
    have hwidth : (traceParts llama args s).header.vocabSize.toNat = llama.vocabularySize.toInt.toNat := by
      show (UInt32.ofNat _).toNat = _
      rw [UInt32.toNat_ofNat', Nat.mod_eq_of_lt (by omega)]
    have hcells := Nat.mul_le_mul hrows hvocab
    rw [hlength, hheader, hwidth]
    omega
  have hopen := (@open_eq json (published llama args s) _ _ _ _ rfl (fromSlice_traceText hsound hne hread)
    (headerOfJson_headerToJson _) (validateHeader_run hpos hprompt htokens h hcount) (congrArg some h.logits)
    hsize).1 hlength
  have hnext := times_next (traceParts llama args s).header hrecords (List.drop_zero ..)
  rw [Nat.zero_add] at hnext
  exact ⟨congrArg some h.logits, _, _, _, hopen, hnext, run_finish hrecords.length_eq.symm⟩

/-- What the checks of a run let through. -/
structure Checked (llama : Llama S) (args : RunArgs) : Prop where
  arguments : checkArgs args = .ok ()
  vocabulary : ¬ llama.vocabularySize ≤ 0
  prompt : validateTokens llama.vocabularySize.toInt.toNat args.prompt "prompt" = .ok ()
  decode : validateTokens llama.vocabularySize.toInt.toNat args.decode.inputs "decode" = .ok ()

theorem Checked.pos {args : RunArgs} (h : Checked llama args) : 0 < llama.vocabularySize.toInt.toNat := by
  have hpos := h.vocabulary
  rw [Int32.le_iff_toInt_le, Int32.toInt_zero] at hpos
  omega

/-- The state that a run starts its rows in. -/
def start (llama : Llama S) (args : RunArgs) : RunState S :=
  { context := llama.context, decodeInputs := args.decode.inputs }

/-- A checked run publishes exactly if its rows are written. -/
theorem runMode_ok_iff {args : RunArgs} {s : RunState S} {directory : Directory} (h : Checked llama args) :
    runMode llama args = .ok (s, directory) ↔
      (traceRows llama args).run (start llama args) = .ok () s ∧ directory = published llama args s := by
  unfold runMode
  rw [h.arguments, Fallible.ok_bind, if_neg h.vocabulary, h.prompt, Fallible.ok_bind, h.decode, Fallible.ok_bind]
  unfold start
  cases (traceRows llama args).run { context := llama.context, decodeInputs := args.decode.inputs } with
  | error e t =>
    constructor
    · intro hrun
      cases hrun
    · intro hrun
      cases hrun.1
  | ok _ t =>
    constructor
    · intro hrun
      cases hrun
      exact ⟨rfl, rfl⟩
    · intro hrun
      obtain ⟨hrows, rfl⟩ := hrun
      cases hrows
      rfl

theorem runMode_ok {args : RunArgs} {s : RunState S} {directory : Directory}
    (h : runMode llama args = .ok (s, directory)) : Checked llama args := by
  unfold runMode at h
  obtain ⟨_, hargs, hrest⟩ := Fallible.bind_ok h
  obtain ⟨hvocab, htokens⟩ := Fallible.ite_throw_ok hrest
  obtain ⟨_, hprompt, hinputs⟩ := Fallible.bind_ok htokens
  obtain ⟨_, hdecode, -⟩ := Fallible.bind_ok hinputs
  exact ⟨hargs, hvocab, hprompt, hdecode⟩

/-- The rows of a checked run. -/
theorem traceRows_checked {args : RunArgs} (hsound : llama.Sound) (hprompt : args.prompt ≠ [])
    (hcontext : args.prompt.length + args.decode.inputs.length ≤ args.requestedContext.toNat)
    (h : Checked llama args) : Triple (· = start llama args) (traceRows llama args)
      (fun _ t => Traced llama args.prompt t ∧ t.rows.length = t.decodeInputs.length + 1 ∧
        t.rows.length = args.decode.decodeSteps.toNat + 1) fun _ => ¬ llama.Succeeds := by
  obtain ⟨hlimit, hfit⟩ := checkArgs_ok h.arguments
  have hinputs := validateTokens_ok_iff.mp h.decode
  exact traceRows_spec hsound h.pos hprompt (by omega) hinputs (by omega)

/-! ## A run of two steps -/

def sampleReport : EngineReport where
  loadedLibllamaPath := utf8 "/lib/libllama.so.7"
  systemInfo := utf8 "CPU"
  modelDescription := utf8 "sample"
  modelSizeBytes := 4
  modelParameterCount := 1
  deviceName := utf8 "CPU"
  deviceDescription := utf8 "host"
  threads := 1
  threadsBatch := 1
  nCtx := 4
  nBatch := 2
  nUbatch := 2

/-- A vocabulary of three tokens, of which the batches so far choose one: its logit is one, and the others' zero. -/
def sampleLlama : Llama Nat where
  vocabularySize := 3
  context := 0
  decode := fun _ batches => (0, batches + 1)
  logits := fun batches => some fun token => if token = batches % 3 then ⟨0x3f800000⟩ else ⟨0⟩
  report := fun _ => sampleReport

def sampleArgs : RunArgs where
  checkpoint := []
  destination := "out/trace"
  prompt := [2, 0]
  requestedContext := 4
  kvType := .f32
  cpu := true
  gpuLayers := 0
  flash := .off
  threads := none
  decode := .steps 2

theorem sampleLlama_sound : sampleLlama.Sound where
  finite := fun _ value h _ _ => by
    cases h
    dsimp only
    split <;> rfl
  report := fun _ => ⟨isText_utf8 _, isText_utf8 _, isText_utf8 _, isText_utf8 _, isText_utf8 _⟩

theorem sampleLlama_succeeds : sampleLlama.Succeeds := ⟨fun _ _ => rfl, fun _ h => by cases h⟩

/-! ## The whole run -/

/-- **The published trace reads back.** A reader opens the directory that a run publishes, and
returns the rows that the engine produced, bit for bit and in order, one more than the decode
steps. A run whose calls to the engine succeed does publish. -/
theorem run_mode_round_trip {json : JsonText} {args : RunArgs} (hsound : llama.Sound) (hprompt : args.prompt ≠ [])
    (hcontext : args.prompt.length + args.decode.inputs.length ≤ args.requestedContext.toNat) :
    (∀ s directory, runMode llama args = .ok (s, directory) →
      json.Reads (headerToJson (traceParts llama args s).header) (traceParts llama args s).traceText →
      RoundTrips json directory s.produced ∧ s.produced.length = args.decode.decodeSteps.toNat + 1) ∧
    (llama.Succeeds → checkArgs args = .ok () → 0 < llama.vocabularySize →
      (∀ token ∈ args.prompt ++ args.decode.inputs, token.toNat < llama.vocabularySize.toInt.toNat) →
      ∃ s directory, runMode llama args = .ok (s, directory)) := by
  constructor
  · intro s directory hrun hread
    have hchecked := runMode_ok hrun
    obtain ⟨hrows, rfl⟩ := (runMode_ok_iff hchecked).mp hrun
    obtain ⟨htraced, hcount, hsteps⟩ := (traceRows_checked hsound hprompt hcontext hchecked).ok rfl hrows
    obtain ⟨hlimit, hfit⟩ := checkArgs_ok hchecked.arguments
    have htokens := validateTokens_ok_iff.mp hchecked.prompt
    have hlength := htraced.recorded.length_eq
    exact ⟨roundTrips_published hsound hchecked.pos hprompt htokens htraced hcount (by omega) hread, by omega⟩
  · intro hsucceeds hargs hvocab htokens
    rw [List.forall_mem_append] at htokens
    have hchecked : Checked llama args :=
      ⟨hargs, Int32.not_le.mpr hvocab, validateTokens_ok_iff.mpr htokens.1, validateTokens_ok_iff.mpr htokens.2⟩
    have hspec := (traceRows_checked hsound hprompt hcontext hchecked).conseq (fun _ h => h) (fun _ _ h => h)
      fun _ h => h hsucceeds
    obtain ⟨_, t, hrows, -⟩ := hspec.returns rfl
    exact ⟨t, published llama args t, (runMode_ok_iff hchecked).mpr ⟨hrows, rfl⟩⟩

/-- A run of two prompt tokens and two steps of its own reads back as three rows. -/
theorem run_mode_round_trip_sample : ∃ json s directory, runMode sampleLlama sampleArgs = .ok (s, directory) ∧
    RoundTrips json directory s.produced ∧ s.produced.length = 3 := by
  have hrun (json : JsonText) := @run_mode_round_trip Nat sampleLlama json sampleArgs sampleLlama_sound (by decide)
    (by decide)
  have htokens : ∀ token ∈ sampleArgs.prompt ++ sampleArgs.decode.inputs,
      token.toNat < sampleLlama.vocabularySize.toInt.toNat := by
    intro token htoken
    obtain rfl | rfl : token = 2 ∨ token = 0 := by simpa [sampleArgs, DecodeRequest.inputs] using htoken
    all_goals decide
  obtain ⟨s, directory, hok⟩ :=
    (hrun ⟨fun _ => [], fun _ => .error "no text"⟩).2 sampleLlama_succeeds rfl (by decide) htokens
  let json : JsonText := ⟨fun _ => [], fun _ => .ok (headerToJson (traceParts sampleLlama sampleArgs s).header)⟩
  exact ⟨json, s, directory, hok, (hrun json).1 s directory hok fun _ _ => rfl⟩

end LlamaLogits

end Dyninfer
