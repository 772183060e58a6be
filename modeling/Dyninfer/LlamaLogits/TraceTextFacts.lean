/-
What the reference runner's header spells: escaping gives the string back, the
digest is 64 hexadecimal digits, and the text is that of the JSON value a
reader of traces expects, field by field.
-/
import Dyninfer.LlamaLogits.TraceText

namespace Dyninfer

open Bytes JsonGrammar LogitTrace

namespace LlamaLogits

/-! ## Bytes that are text -/

/-- The bytes are a string's. -/
def IsText (bytes : List UInt8) : Prop := ∃ t, utf8 t = bytes

theorem isText_utf8 (t : String) : IsText (utf8 t) := ⟨t, rfl⟩

theorem IsText.append {bytes bytes' : List UInt8} (h : IsText bytes) (h' : IsText bytes') :
    IsText (bytes ++ bytes') := by
  obtain ⟨t, rfl⟩ := h
  obtain ⟨t', rfl⟩ := h'
  exact ⟨t ++ t', utf8_append t t'⟩

theorem encodeChar_ascii {c : Char} (h : c.toNat < 0x80) : String.utf8EncodeChar c = [UInt8.ofNat c.toNat] := by
  change c.val.toNat < 0x80 at h
  unfold String.utf8EncodeChar
  simp only
  rw [if_pos (by omega)]
  rfl

theorem le_toNat_ofNat {n : Nat} (hlow : 0x80 ≤ n) (hhigh : n < 0x100) : 0x80 ≤ (UInt8.ofNat n).toNat := by
  rw [UInt8.toNat_ofNat', Nat.mod_eq_of_lt hhigh]
  exact hlow

/-- Every byte of a character that takes more than one has its highest bit set. -/
theorem encodeChar_high {c : Char} (h : 0x80 ≤ c.toNat) : ∀ b ∈ String.utf8EncodeChar c, 0x80 ≤ b.toNat := by
  change 0x80 ≤ c.val.toNat at h
  unfold String.utf8EncodeChar
  simp only
  rw [if_neg (by omega)]
  intro b hb
  split at hb
  case isTrue =>
    simp only [List.mem_cons, List.not_mem_nil, or_false] at hb
    rcases hb with rfl | rfl <;> exact le_toNat_ofNat (by omega) (by omega)
  case isFalse =>
    split at hb
    case isTrue =>
      simp only [List.mem_cons, List.not_mem_nil, or_false] at hb
      rcases hb with rfl | rfl | rfl <;> exact le_toNat_ofNat (by omega) (by omega)
    case isFalse =>
      simp only [List.mem_cons, List.not_mem_nil, or_false] at hb
      rcases hb with rfl | rfl | rfl | rfl <;> exact le_toNat_ofNat (by omega) (by omega)

theorem isText_ascii {bytes : List UInt8} (h : ∀ b ∈ bytes, b.toNat < 0x80) : IsText bytes := by
  refine ⟨String.ofList (bytes.map fun b => Char.ofNat b.toNat), ?_⟩
  rw [utf8_eq, String.toList_ofList]
  induction bytes with
  | nil => rfl
  | cons b bytes ih =>
    rw [List.forall_mem_cons] at h
    have hvalid : b.toNat.isValidChar := .inl (by omega)
    have htoNat : (Char.ofNat b.toNat).toNat = b.toNat := by
      rw [Char.ofNat, dif_pos hvalid]
      rfl
    rw [List.map_cons, List.flatMap_cons, encodeChar_ascii (by omega), htoNat, UInt8.ofNat_toNat, ih h.2]
    rfl

/-! ## Escaping -/

theorem jsonEscapeByte_high {b : UInt8} (h : 0x80 ≤ b.toNat) : jsonEscapeByte b = [b] := by
  have hne (n : UInt8) (hn : n.toNat < 0x80) : b ≠ n := by
    rintro rfl
    omega
  unfold jsonEscapeByte
  rw [if_neg (hne _ (by decide)), if_neg (hne _ (by decide)), if_neg (hne _ (by decide)), if_neg (hne _ (by decide)),
    if_neg (hne _ (by decide)), if_neg (hne _ (by decide)), if_neg (hne _ (by decide)), if_neg]
  rw [UInt8.lt_iff_toNat_lt]
  simp
  omega

theorem escape_high {bytes : List UInt8} (h : ∀ b ∈ bytes, 0x80 ≤ b.toNat) : bytes.flatMap jsonEscapeByte = bytes := by
  induction bytes with
  | nil => rfl
  | cons b bytes ih =>
    rw [List.forall_mem_cons] at h
    rw [List.flatMap_cons, jsonEscapeByte_high h.1, ih h.2]
    rfl

/-- The escapes of one letter that the runner writes. -/
def writtenEscapes : List (Char × UInt8) := shortEscapes.filter (·.1 ≠ '/')

theorem escape_short {e : Char × UInt8} (h : e ∈ writtenEscapes) :
    (String.utf8EncodeChar e.1).flatMap jsonEscapeByte = [0x5c, e.2] := by
  have hall : writtenEscapes.all (fun e => (String.utf8EncodeChar e.1).flatMap jsonEscapeByte == [0x5c, e.2]) = true := by
    decide
  exact eq_of_beq (List.all_eq_true.mp hall e h)

theorem byte_ne {c d : Char} (hc : c.toNat < 0x80) (hd : d.toNat < 0x80) (h : c ≠ d) :
    UInt8.ofNat c.toNat ≠ UInt8.ofNat d.toNat := by
  intro heq
  have hnat := congrArg UInt8.toNat heq
  rw [UInt8.toNat_ofNat', UInt8.toNat_ofNat', Nat.mod_eq_of_lt (by omega), Nat.mod_eq_of_lt (by omega)] at hnat
  exact h (Char.toNat_inj.mp hnat)

theorem escape_ascii {c : Char} (hc : c.toNat < 0x80) (h : ∀ e ∈ writtenEscapes, c ≠ e.1) :
    (String.utf8EncodeChar c).flatMap jsonEscapeByte =
      if c.toNat < 0x20 then utf8 "\\u" ++ hex4 c.toNat else String.utf8EncodeChar c := by
  have hne (d : Char) (letter : UInt8) (hd : d.toNat < 0x80) (hmem : (d, letter) ∈ writtenEscapes) :
      UInt8.ofNat c.toNat ≠ UInt8.ofNat d.toNat := byte_ne hc hd (h _ hmem)
  have hquote : UInt8.ofNat c.toNat ≠ 0x22 := hne '"' 0x22 (by decide) (by decide)
  have hslash : UInt8.ofNat c.toNat ≠ 0x5c := hne '\\' 0x5c (by decide) (by decide)
  have hback : UInt8.ofNat c.toNat ≠ 0x08 := hne '\x08' 0x62 (by decide) (by decide)
  have hfeed : UInt8.ofNat c.toNat ≠ 0x0c := hne '\x0c' 0x66 (by decide) (by decide)
  have hline : UInt8.ofNat c.toNat ≠ 0x0a := hne '\n' 0x6e (by decide) (by decide)
  have hreturn : UInt8.ofNat c.toNat ≠ 0x0d := hne '\r' 0x72 (by decide) (by decide)
  have htab : UInt8.ofNat c.toNat ≠ 0x09 := hne '\t' 0x74 (by decide) (by decide)
  have htoNat : (UInt8.ofNat c.toNat).toNat = c.toNat := by
    rw [UInt8.toNat_ofNat', Nat.mod_eq_of_lt (by omega)]
  rw [encodeChar_ascii hc, List.flatMap_singleton]
  unfold jsonEscapeByte
  rw [if_neg hquote, if_neg hslash, if_neg hback, if_neg hfeed, if_neg hline, if_neg hreturn, if_neg htab, htoNat]
  refine if_congr ?_ rfl rfl
  rw [UInt8.lt_iff_toNat_lt, htoNat]
  rfl

/-- A character escaped is spelled. -/
theorem spellsChars_escape (c : Char) {cs : List Char} {bs : List UInt8} (h : SpellsChars cs bs) :
    SpellsChars (c :: cs) ((String.utf8EncodeChar c).flatMap jsonEscapeByte ++ bs) := by
  by_cases hc : c.toNat < 0x80
  · by_cases hshort : ∃ e ∈ writtenEscapes, c = e.1
    · obtain ⟨e, he, rfl⟩ := hshort
      rw [escape_short he]
      exact .short (List.mem_filter.mp he).1 h
    · have hne : ∀ e ∈ writtenEscapes, c ≠ e.1 := fun e he heq => hshort ⟨e, he, heq⟩
      rw [escape_ascii hc hne]
      by_cases hlow : c.toNat < 0x20
      · rw [if_pos hlow]
        exact .code (by omega) h
      · rw [if_neg hlow]
        exact .plain (by omega) (hne ('"', 0x22) (by decide)) (hne ('\\', 0x5c) (by decide)) h
  · rw [escape_high (encodeChar_high (by omega))]
    refine .plain (by omega) ?_ ?_ h
    · rintro rfl
      exact hc (by decide)
    · rintro rfl
      exact hc (by decide)

/-- An escaped string spells the string. -/
theorem spellsString_jsonEscape (t : String) : SpellsString t (jsonEscape (utf8 t)) := by
  have h (cs : List Char) : SpellsChars cs ((cs.flatMap String.utf8EncodeChar).flatMap jsonEscapeByte) := by
    induction cs with
    | nil => exact .nil
    | cons c cs ih =>
      rw [List.flatMap_cons, List.flatMap_append]
      exact spellsChars_escape c ih
  unfold jsonEscape
  rw [utf8_eq]
  exact .mk (h t.toList)

/-! ## The digest -/

theorem hexDigit_isHexDigit {n : Nat} (h : n < 16) : isHexDigit (hexDigit n) = true := by
  have hall : (List.range 16).all (fun n => isHexDigit (hexDigit n)) = true := by decide
  exact List.all_eq_true.mp hall n (List.mem_range.mpr h)

theorem hexWord_isHexDigit (w : UInt32) : (Sha256.hexWord w).all isHexDigit = true := by
  simp only [Sha256.hexWord, hex4, List.all_append, List.all_cons, List.all_nil, Bool.and_true, Bool.and_eq_true]
  refine ⟨⟨?_, ?_, ?_, ?_⟩, ?_, ?_, ?_, ?_⟩ <;> exact hexDigit_isHexDigit (Nat.mod_lt _ (by omega))

theorem fileSha256_hex (contents : List UInt8) :
    (fileSha256 contents).length = 64 ∧ (fileSha256 contents).all isHexDigit = true := by
  unfold fileSha256 Sha256.final
  constructor
  · rfl
  · simp only [List.flatMap_cons, List.flatMap_nil, List.append_nil, List.all_append, hexWord_isHexDigit, Bool.and_self]

theorem isHexDigit_lt {b : UInt8} (h : isHexDigit b = true) : b.toNat < 0x80 := by
  unfold isHexDigit at h
  simp only [Bool.or_eq_true, Bool.and_eq_true, decide_eq_true_eq] at h
  omega

theorem isText_fileSha256 (contents : List UInt8) : IsText (fileSha256 contents) :=
  isText_ascii fun b hb => isHexDigit_lt (List.all_eq_true.mp (fileSha256_hex contents).2 b hb)

theorem isText_buildNumber (engine : EngineMetadata) : IsText engine.buildNumber := by
  unfold EngineMetadata.buildNumber
  simp only
  split
  case isTrue h =>
    refine isText_ascii fun b hb => ?_
    have hdigit := List.all_eq_true.mp h.2.2 b hb
    rw [Bool.and_eq_true, decide_eq_true_eq, decide_eq_true_eq, UInt8.le_iff_toNat_le, UInt8.le_iff_toNat_le] at hdigit
    have h9 : (0x39 : UInt8).toNat = 0x39 := rfl
    omega
  case isFalse => exact isText_utf8 _

/-! ## Values -/

/-- The string of bytes that are text. -/
def text (bytes : List UInt8) : String := (fromUtf8 bytes).getD ""

theorem utf8_text {bytes : List UInt8} (h : IsText bytes) : utf8 (text bytes) = bytes := by
  obtain ⟨t, rfl⟩ := h
  unfold text
  rw [fromUtf8_utf8, Option.getD_some]

theorem spells_text {bytes : List UInt8} (h : IsText bytes) : Spells (.string (text bytes)) (jsonEscape bytes) := by
  have hs := spellsString_jsonEscape (text bytes)
  rw [utf8_text h] at hs
  exact .string hs

theorem spells_utf8 (s : String) : Spells (.string s) (jsonEscape (utf8 s)) := .string (spellsString_jsonEscape s)

theorem spells_u32 (n : UInt32) : Spells (ofU32 n) (number n.toNat) :=
  spells_ofNat (by have := UInt32.toNat_lt n; omega)

theorem spells_u64 (n : UInt64) : Spells (.number (.posInt n)) (number n.toNat) := .nat n

/-- The number of a signed integer. -/
def ofInt (i : Int) : Json := if 0 ≤ i then .ofNat i.toNat else .number (.negInt i)

theorem spells_i32 (i : Int32) : Spells (ofInt i.toInt) (utf8 (toString i.toInt)) := by
  have hlow := Int32.le_toInt i
  have hhigh := Int32.toInt_lt i
  unfold ofInt
  generalize i.toInt = n at hlow hhigh
  cases n with
  | ofNat n =>
    rw [if_pos (show 0 ≤ Int.ofNat n from Int.natCast_nonneg n)]
    exact spells_ofNat (by omega)
  | negSucc n =>
    rw [if_neg (by omega)]
    have h := @Spells.neg (n + 1) (by omega) (by omega)
    have htext : utf8 (toString (Int.negSucc n)) = 0x2d :: utf8 (toString (n + 1)) := by
      show utf8 ("-" ++ toString (n + 1)) = _
      rw [utf8_append]
      rfl
    rw [htext, Int.negSucc_eq]
    exact h

theorem spells_tokens (tokens : List TokenId) : Spells (.array (tokens.map ofU32)) (jsonArray tokens) := by
  unfold jsonArray
  cases tokens with
  | nil => exact .empty space_nil
  | cons token tokens =>
    have hall : List.Forall₂ Spells (tokens.map ofU32) (tokens.map fun token => number token.toNat) := by
      induction tokens with
      | nil => exact .nil
      | cons token tokens ih => exact .cons (spells_u32 token) ih
    have h := spellsItems_join space_nil space_nil hall space_nil (spells_u32 token)
    rw [List.append_nil] at h
    exact .array h

/-! ## Fields and blocks -/

theorem spellsField_field {key : String} {x : Json} {bs : List UInt8} (hkey : key.toList.all isPlain = true)
    (hx : Spells x bs) : SpellsField (key, x) (field key bs) := by
  have hcolon : utf8 ": " = [0x3a, 0x20] := rfl
  refine ⟨_, [0x20], bs, spellsString_plain hkey, rfl, hx, ?_⟩
  unfold field
  rw [hcolon]

theorem space_append {bs bs' : List UInt8} (h : Space bs) (h' : Space bs') : Space (bs ++ bs') := by
  unfold Space
  rw [List.all_append, show bs.all isSpace = true from h, show bs'.all isSpace = true from h']
  rfl

theorem space_two : Space (utf8 "  ") := rfl

theorem space_four : Space (utf8 "    ") := rfl

section block

variable {indent outdent text : List UInt8} {texts : List (List UInt8)}

theorem block_eq (opening closing : UInt8) (indent outdent : List UInt8) (texts : List (List UInt8)) :
    block opening closing indent outdent texts =
      opening :: ((utf8 "\n" ++ indent) ++ join (0x2c :: (utf8 "\n" ++ indent)) texts ++ (utf8 "\n" ++ outdent)) ++
        [closing] := by
  have hcomma : utf8 ",\n" = 0x2c :: utf8 "\n" := rfl
  simp only [block, hcomma, List.cons_append]

theorem spells_objectBlock {fields : List (String × Json)} (hindent : Space indent) (houtdent : Space outdent)
    {field : String × Json} (hfield : SpellsField field text) (h : List.Forall₂ SpellsField fields texts) :
    Spells (.object (field :: fields)) (block 0x7b 0x7d indent outdent (text :: texts)) := by
  have hline : Space (utf8 "\n") := rfl
  rw [block_eq]
  exact .object (spellsFields_join (space_append hline hindent) (space_append hline houtdent) h
    (space_append hline hindent) hfield)

theorem spells_arrayBlock {xs : List Json} (hindent : Space indent) (houtdent : Space outdent) {x : Json}
    (hx : Spells x text) (h : List.Forall₂ Spells xs texts) :
    Spells (.array (x :: xs)) (block 0x5b 0x5d indent outdent (text :: texts)) := by
  have hline : Space (utf8 "\n") := rfl
  rw [block_eq]
  exact .array (spellsItems_join (space_append hline hindent) (space_append hline houtdent) h
    (space_append hline hindent) hx)

end block

/-! ## The header -/

/-- What the engine and the system say is text. -/
structure EngineReport.Valid (engine : EngineReport) : Prop where
  loadedLibllamaPath : IsText engine.loadedLibllamaPath
  systemInfo : IsText engine.systemInfo
  modelDescription : IsText engine.modelDescription
  deviceName : IsText engine.deviceName
  deviceDescription : IsText engine.deviceDescription

/-- The value of `engine_metadata`. -/
def EngineMetadata.value (engine : EngineMetadata) : Json := .object [
  ("loaded_libllama_path", .string (text engine.loadedLibllamaPath)),
  ("build_number", .string (text engine.buildNumber)),
  ("system_info", .string (text engine.systemInfo)),
  ("model_description", .string (text engine.modelDescription)),
  ("model_size_bytes", .number (.posInt engine.modelSizeBytes)),
  ("model_parameter_count", .number (.posInt engine.modelParameterCount)),
  ("device", .string (text engine.actualDevice)),
  ("gpu_layers", ofInt engine.gpuLayers.toInt),
  ("threads", ofInt engine.threads.toInt),
  ("threads_batch", ofInt engine.threadsBatch.toInt),
  ("n_ctx", ofU32 engine.nCtx),
  ("n_batch", ofU32 engine.nBatch),
  ("n_ubatch", ofU32 engine.nUbatch),
  ("flash_attention", .string engine.flashName),
  ("kv_type_k", .string engine.kvName),
  ("kv_type_v", .string engine.kvName)]

theorem EngineMetadata.spells {engine : EngineMetadata} (h : engine.Valid) :
    Spells engine.value (block 0x7b 0x7d (utf8 "    ") (utf8 "  ") engine.texts) := by
  have hdevice : IsText engine.actualDevice :=
    ((h.deviceName.append (isText_utf8 _)).append h.deviceDescription).append (isText_utf8 _)
  unfold EngineMetadata.value EngineMetadata.texts
  refine spells_objectBlock space_four space_two (spellsField_field rfl (spells_text h.loadedLibllamaPath)) ?_
  exact .cons (spellsField_field rfl (spells_text (isText_buildNumber engine))) <|
    .cons (spellsField_field rfl (spells_text h.systemInfo)) <|
    .cons (spellsField_field rfl (spells_text h.modelDescription)) <|
    .cons (spellsField_field rfl (spells_u64 _)) <| .cons (spellsField_field rfl (spells_u64 _)) <|
    .cons (spellsField_field rfl (spells_text hdevice)) <| .cons (spellsField_field rfl (spells_i32 _)) <|
    .cons (spellsField_field rfl (spells_i32 _)) <| .cons (spellsField_field rfl (spells_i32 _)) <|
    .cons (spellsField_field rfl (spells_u32 _)) <| .cons (spellsField_field rfl (spells_u32 _)) <|
    .cons (spellsField_field rfl (spells_u32 _)) <| .cons (spellsField_field rfl (spells_utf8 _)) <|
    .cons (spellsField_field rfl (spells_utf8 _)) <| .cons (spellsField_field rfl (spells_utf8 _)) .nil

namespace TraceParts

/-- A row of the header. -/
def traceRow (row : OutputRow) (forced : Option TokenId) : TraceRow where
  phase := row.phase
  position := row.position
  inputToken := row.inputToken
  argmax := row.argmax
  forcedToken := forced

/-- The header that the text is of. -/
def header (parts : TraceParts) : TraceHeader where
  format := traceFormat
  version := traceVersion
  engine := "llama.cpp"
  checkpointSha256 := text parts.checkpointSha256
  vocabSize := parts.vocabularySize
  promptTokens := parts.prompt
  decodeInputs := parts.decodeInputs
  logitsDtype := "f32"
  logitsByteOrder := "little"
  rows := parts.rows.zipIdx.map fun row => traceRow row.1 parts.decodeInputs[row.2]?
  logitsFile := "logits.f32le"
  engineMetadata := parts.engine.value

theorem spells_row (row : OutputRow) (forced : Option TokenId) :
    Spells (rowToJson (traceRow row forced)) (rowText row forced) := by
  have hcomma : utf8 ", " = 0x2c :: [0x20] := rfl
  have hforced : List.Forall₂ SpellsField (forced.toList.map fun token => ("forced_token", ofU32 token))
      (forced.toList.map fun token => field "forced_token" (number token.toNat)) := by
    cases forced with
    | none => exact .nil
    | some token => exact .cons (spellsField_field rfl (spells_u32 token)) .nil
  have hphase : SpellsField ("phase", _) (field "phase" _) :=
    spellsField_field rfl (spells_utf8 (TracePhase.name row.phase))
  have hposition : SpellsField ("position", _) (field "position" _) := spellsField_field rfl (spells_u64 row.position)
  have hinput : SpellsField ("input_token", _) (field "input_token" _) :=
    spellsField_field rfl (spells_u32 row.inputToken)
  have hargmax : SpellsField ("argmax", _) (field "argmax" _) := spellsField_field rfl (spells_u32 row.argmax)
  have h := spellsFields_join (show Space [0x20] from rfl) space_nil
    (.cons hposition <| .cons hinput <| .cons hargmax hforced) space_nil hphase
  rw [List.append_nil] at h
  unfold rowText
  rw [hcomma]
  exact .object h

theorem spells_rows {parts : TraceParts} (h : parts.rows ≠ []) : Spells (.array (parts.header.rows.map rowToJson))
    (block 0x5b 0x5d (utf8 "    ") (utf8 "  ")
      (parts.rows.zipIdx.map fun row => rowText row.1 parts.decodeInputs[row.2]?)) := by
  have hall (rows : List (OutputRow × Nat)) : List.Forall₂ Spells
      ((rows.map fun row => traceRow row.1 parts.decodeInputs[row.2]?).map rowToJson)
      (rows.map fun row => rowText row.1 parts.decodeInputs[row.2]?) := by
    induction rows with
    | nil => exact .nil
    | cons row rows ih => exact .cons (spells_row row.1 _) ih
  unfold header
  cases hrows : parts.rows.zipIdx with
  | nil => exact absurd (List.zipIdx_eq_nil_iff.mp hrows) h
  | cons row rows => exact spells_arrayBlock space_four space_two (spells_row row.1 _) (hall rows)

/-- **The text of the header is a JSON text of the header.** -/
theorem document {parts : TraceParts} (hrows : parts.rows ≠ []) (hsha : IsText parts.checkpointSha256)
    (hengine : parts.engine.Valid) : Document (headerToJson parts.header) parts.traceText := by
  have hllama : utf8 "\"llama.cpp\"" = jsonEscape (utf8 "llama.cpp") := by decide
  have hf32 : utf8 "\"f32\"" = jsonEscape (utf8 "f32") := by decide
  have hlittle : utf8 "\"little\"" = jsonEscape (utf8 "little") := by decide
  have hfile : utf8 "\"logits.f32le\"" = jsonEscape (utf8 "logits.f32le") := by decide
  refine ⟨_, utf8 "\n", ?_, rfl, rfl⟩
  unfold texts
  rw [hllama, hf32, hlittle, hfile]
  refine spells_objectBlock space_two space_nil (spellsField_field rfl (spells_utf8 traceFormat)) ?_
  exact .cons (spellsField_field rfl (spells_u32 traceVersion)) <| .cons (spellsField_field rfl (spells_utf8 _)) <|
    .cons (spellsField_field rfl (spells_text hsha)) <| .cons (spellsField_field rfl (spells_u32 _)) <|
    .cons (spellsField_field rfl (spells_tokens _)) <| .cons (spellsField_field rfl (spells_tokens _)) <|
    .cons (spellsField_field rfl (spells_utf8 _)) <| .cons (spellsField_field rfl (spells_utf8 _)) <|
    .cons (spellsField_field rfl (spells_rows hrows)) <| .cons (spellsField_field rfl (spells_utf8 _)) <|
    .cons (spellsField_field rfl (EngineMetadata.spells hengine)) .nil

end TraceParts

end LlamaLogits

end Dyninfer
