/-
What `TraceReader` makes of a file of logits: rows of one width, each finite
and with the argmax its header records, come out as they went in, and nothing
else comes out.
-/
import Dyninfer.Cli.LogitTrace

namespace Dyninfer

open Bytes Effect

namespace LogitTrace

/-- The bytes of a row. -/
def encode (values : List Binary32) : List UInt8 := values.flatMap Binary32.toLeBytes

/-! ## Values and bytes -/

@[simp] theorem length_encode (values : List Binary32) : (encode values).length = values.length * 4 := by
  induction values with
  | nil => rfl
  | cons v values ih =>
    show (v.toLeBytes ++ encode values).length = _
    rw [List.length_append, ih, Binary32.length_toLeBytes, List.length_cons]
    omega

theorem decodeValues_append (v : Binary32) (rest : List UInt8) :
    decodeValues (v.toLeBytes ++ rest) = v :: decodeValues rest := by
  show Binary32.ofLeBytes v.toLeBytes :: decodeValues rest = _
  rw [Binary32.ofLeBytes_toLeBytes]

@[simp] theorem decodeValues_encode (values : List Binary32) : decodeValues (encode values) = values := by
  induction values with
  | nil => rfl
  | cons v values ih =>
    show decodeValues (v.toLeBytes ++ encode values) = _
    rw [decodeValues_append, ih]

theorem length_decodeValues (n : Nat) : ∀ {bs : List UInt8}, bs.length = n * 4 → (decodeValues bs).length = n := by
  induction n with
  | zero =>
    intro bs h
    obtain rfl := List.length_eq_zero_iff.mp (show bs.length = 0 by omega)
    rfl
  | succ n ih =>
    intro bs h
    obtain ⟨a, rest, rfl⟩ := List.exists_cons_of_length_pos (show 0 < bs.length by omega)
    obtain ⟨b, rest, rfl⟩ := List.exists_cons_of_length_pos (show 0 < rest.length by simp at h; omega)
    obtain ⟨c, rest, rfl⟩ := List.exists_cons_of_length_pos (show 0 < rest.length by simp at h; omega)
    obtain ⟨d, rest, rfl⟩ := List.exists_cons_of_length_pos (show 0 < rest.length by simp at h; omega)
    show (decodeValues rest).length + 1 = n + 1
    rw [ih (by simp at h; omega)]

theorem firstNonFinite_eq_none_iff {values : List Binary32} :
    firstNonFinite values = none ↔ ∀ v ∈ values, v.isFinite = true := by
  unfold firstNonFinite
  rw [List.find?_eq_none]
  constructor
  · intro h v hv
    obtain ⟨i, hi⟩ := List.mem_iff_getElem?.mp hv
    simpa using h (v, i) (List.mem_zipIdx_iff_getElem?.mpr hi)
  · intro h v hv
    simp [h v.1 (List.mem_of_getElem? (List.mem_zipIdx_iff_getElem?.mp hv))]

/-! ## Reading a row -/

section next

variable {reader reader' : TraceReader} {values : List Binary32}

/-- What a row that was read satisfies. -/
theorem next_ok (h : TraceReader.next.run reader = .ok values reader') :
    ∃ row, reader.header.rows[reader.nextRow]? = some row ∧ values.length = reader.header.vocabSize.toNat ∧
      (∀ v ∈ values, v.isFinite = true) ∧ argmax values = row.argmax := by
  unfold TraceReader.next at h
  obtain ⟨_, _, hget, h⟩ := bind_ok h
  cases hget
  split at h
  case h_1 => cases h
  case h_2 row hrow =>
    obtain ⟨_, _, hrequire, h⟩ := bind_ok h
    obtain ⟨hwidth, rfl⟩ := require_ok hrequire
    obtain ⟨_, _, -, h⟩ := bind_ok h
    dsimp only at h
    split at h
    case h_1 => cases h
    case h_2 hfinite =>
      obtain ⟨_, _, hrequire, hlast⟩ := bind_ok h
      obtain ⟨hargmax, rfl⟩ := require_ok hrequire
      cases hlast
      refine ⟨row, hrow, length_decodeValues _ ?_, firstNonFinite_eq_none_iff.mp hfinite, eq_of_beq hargmax⟩
      rw [List.length_take, Nat.min_eq_left (of_decide_eq_true hwidth)]

/-- A row of the header's width, finite, with the argmax it records, is read as it was written. -/
theorem next_encode {row : TraceRow} {rest : List UInt8} (hrow : reader.header.rows[reader.nextRow]? = some row)
    (hlogits : reader.logits = encode values ++ rest) (hlength : values.length = reader.header.vocabSize.toNat)
    (hfinite : ∀ v ∈ values, v.isFinite = true) (hargmax : argmax values = row.argmax) :
    TraceReader.next.run reader = .ok values { reader with logits := rest, nextRow := reader.nextRow + 1 } := by
  have hwidth : reader.header.vocabSize.toNat * 4 = (encode values).length := by rw [length_encode, hlength]
  have hle : decide (reader.header.vocabSize.toNat * 4 ≤ reader.logits.length) = true := by
    rw [hlogits, hwidth, List.length_append]
    exact decide_eq_true (by omega)
  have htake : reader.logits.take (reader.header.vocabSize.toNat * 4) = encode values := by
    rw [hlogits, hwidth, List.take_left]
  have hdrop : reader.logits.drop (reader.header.vocabSize.toNat * 4) = rest := by
    rw [hlogits, hwidth, List.drop_left]
  unfold TraceReader.next
  rw [EStateM.run_bind, EStateM.run_get]
  simp only [hrow]
  simp only [EStateM.run_bind, run_require_true hle, EStateM.run_set, htake, hdrop, decodeValues_encode, firstNonFinite_eq_none_iff.mpr hfinite,
    run_require_true (beq_iff_eq.mpr hargmax)]
  rfl

end next

/-! ## A whole trace -/

/-- The row is the record of these values in a trace of this width. -/
structure Records (vocabSize : UInt32) (row : TraceRow) (values : List Binary32) : Prop where
  length : values.length = vocabSize.toNat
  finite : ∀ v ∈ values, v.isFinite = true
  argmax : LogitTrace.argmax values = row.argmax

theorem length_flatMap_encode {vocabSize : UInt32} {rows : List TraceRow} {recorded : List (List Binary32)}
    (h : List.Forall₂ (Records vocabSize) rows recorded) :
    (recorded.flatMap encode).length = rows.length * vocabSize.toNat * 4 := by
  induction h with
  | nil => simp
  | cons hrow _ ih =>
    rw [List.flatMap_cons, List.length_append, length_encode, ih, hrow.length, List.length_cons, Nat.add_mul,
      Nat.add_mul]
    omega

/-- From any row on, the rows left come out one after the other. -/
theorem times_next (header : TraceHeader) : ∀ {rest : List TraceRow} {recorded : List (List Binary32)},
    List.Forall₂ (Records header.vocabSize) rest recorded → ∀ {n : Nat}, header.rows.drop n = rest →
      (times TraceReader.next recorded.length).run { header, logits := recorded.flatMap encode, nextRow := n } =
        .ok recorded { header, logits := [], nextRow := n + recorded.length } := by
  intro rest recorded h
  induction h with
  | nil => exact fun _ => rfl
  | @cons row values rest recorded hrow _ ih =>
    intro n hdrop
    have hget : header.rows[n]? = some row := by
      rw [← List.head?_drop, hdrop, List.head?_cons]
    have hrest : header.rows.drop (n + 1) = rest := by
      rw [← List.drop_drop, hdrop, List.drop_one, List.tail_cons]
    have hnext : TraceReader.next.run { header, logits := (values :: recorded).flatMap encode, nextRow := n } =
        .ok values { header, logits := recorded.flatMap encode, nextRow := n + 1 } :=
      next_encode hget List.flatMap_cons hrow.length hrow.finite hrow.argmax
    rw [List.length_cons, times]
    simp only [EStateM.run_bind, hnext, ih hrest, EStateM.run_pure]
    rw [Nat.add_right_comm, Nat.add_assoc]

theorem run_finish {header : TraceHeader} {n : Nat} (h : n = header.rows.length) :
    TraceReader.finish.run { header, logits := [], nextRow := n } = .ok () { header, logits := [], nextRow := n } := by
  subst h
  unfold TraceReader.finish
  simp [EStateM.run_bind, EStateM.run_get, EStateM.run_set, require]

/-! ## Valid headers -/

section valid

variable {header : TraceHeader}

theorem ensureSha256_ok {value : String} (hlength : (utf8 value).length = 64)
    (hdigits : (utf8 value).all isHexDigit = true) : ensureSha256 value = .ok () :=
  if_pos ⟨hlength, hdigits⟩

theorem checkTokens_ok {kind : String} {tokens : List TokenId} {vocabSize : UInt32}
    (h : ∀ token ∈ tokens, token < vocabSize) : checkTokens kind tokens vocabSize = .ok () := by
  have hnone : tokens.zipIdx.find? (fun t => decide (vocabSize ≤ t.1)) = none := by
    rw [List.find?_eq_none]
    intro t ht
    rw [decide_eq_true_eq]
    exact UInt32.not_le.mpr (h t.1 (List.mem_of_getElem? (List.mem_zipIdx_iff_getElem?.mp ht)))
  unfold checkTokens
  rw [hnone]

theorem validateTrajectory_ok {prompt decode : List TokenId} {vocabSize : UInt32} (hne : prompt ≠ [])
    (hprompt : ∀ token ∈ prompt, token < vocabSize) (hdecode : ∀ token ∈ decode, token < vocabSize) :
    validateTrajectory prompt decode vocabSize = .ok () := by
  unfold validateTrajectory
  rw [if_neg hne, checkTokens_ok hprompt]
  exact checkTokens_ok hdecode

theorem checkRow_ok {index : Nat} {row : TraceRow}
    (hexpected : expectedRow header index = .ok (row.phase, row.position, row.inputToken))
    (hargmax : row.argmax < header.vocabSize) (hforced : row.forcedToken = header.decodeInputs[index]?) :
    checkRow header index row = .ok () := by
  unfold checkRow
  rw [hexpected, Fallible.ok_bind]
  simp only [not_true_eq_false, if_false, ne_eq]
  rw [if_neg (UInt32.not_le.mpr hargmax), if_neg (not_not.mpr hforced)]
  rfl

theorem validateHeader_ok (hformat : header.format = traceFormat) (hversion : header.version = traceVersion)
    (hengine : ¬ header.engine.toList.all isWhitespace = true) (hsha : ensureSha256 header.checkpointSha256 = .ok ())
    (hvocab : header.vocabSize ≠ 0) (hdtype : header.logitsDtype = "f32") (horder : header.logitsByteOrder = "little")
    (hfile : isPlainName header.logitsFile = true)
    (htrajectory : validateTrajectory header.promptTokens header.decodeInputs header.vocabSize = .ok ())
    (hcount : header.rows.length = header.decodeInputs.length + 1)
    (hrows : ∀ row ∈ header.rows.zipIdx, checkRow header row.2 row.1 = .ok ()) : validateHeader header = .ok () := by
  unfold validateHeader
  rw [if_neg (not_not.mpr hformat), if_neg (not_not.mpr hversion), if_neg hengine, hsha, Fallible.ok_bind, if_neg hvocab,
    if_neg (not_not.mpr hdtype), if_neg (not_not.mpr horder), hfile, if_neg (by simp), htrajectory, Fallible.ok_bind,
    if_neg (not_not.mpr hcount)]
  exact Fallible.forM_ok_iff.mpr hrows

end valid

/-! ## Opening -/

section opening

variable {json : JsonText} {directory : Directory} {text logits : List UInt8} {value : Json} {header : TraceHeader}

theorem open_unreadable {e : String} (htext : directory.files "trace.json" = some text)
    (hvalue : json.fromSlice text = .error e) (reader : TraceReader) : TraceReader.open json directory ≠ .ok reader := by
  unfold TraceReader.open
  simp only [htext, hvalue, context, Fallible.ok_bind]
  intro h
  cases h

/-- A valid header opens its trace exactly if the logits are its rows' size. -/
theorem open_eq (htext : directory.files "trace.json" = some text) (hvalue : json.fromSlice text = .ok value)
    (hheader : headerOfJson value = some header) (hvalid : validateHeader header = .ok ())
    (hlogits : directory.files header.logitsFile = some logits) (hsize : logits.length < 2 ^ 64) :
    (logits.length = header.rows.length * header.vocabSize.toNat * 4 →
      TraceReader.open json directory = .ok { header, logits, nextRow := 0 }) ∧
    ∀ reader, TraceReader.open json directory = .ok reader →
      logits.length = header.rows.length * header.vocabSize.toNat * 4 := by
  have hparse : (json.fromSlice text).toOption.bind headerOfJson = some header := by
    rw [hvalue]
    exact hheader
  have heq : TraceReader.open json directory = (do
      if header.rows.length * header.vocabSize.toNat * 4 ≥ 2 ^ 64 then throw "trace byte size overflows u64"
      if logits.length ≠ header.rows.length * header.vocabSize.toNat * 4 then
        throw s!"trace logits size mismatch: expected {header.rows.length * header.vocabSize.toNat * 4} bytes, found {logits.length} (truncated or trailing data)"
      return { header, logits, nextRow := 0 }) := by
    unfold TraceReader.open
    simp only [htext, hparse, hvalid, hlogits, context, Fallible.ok_bind]
  rw [heq]
  constructor
  · intro h
    rw [if_neg (by omega), if_neg (not_not.mpr h)]
    rfl
  · intro reader h
    obtain ⟨-, hrest⟩ := Fallible.ite_throw_ok h
    exact not_not.mp (Fallible.ite_throw_ok hrest).1

end opening

end LogitTrace

end Dyninfer
