/-
When a SentencePiece tokenizer gives a text back. Every ordinary span gets a
mark of its own in front, and the decoder takes off all the white space that
the whole starts with: so the text must not start with any, and the one span
that there may be must stand first, with nothing behind it but special pieces.
-/
import Dyninfer.Runtime.SpecialPieces
import Dyninfer.Runtime.Spelling

namespace Dyninfer

open Utf8 BpeTokenizer

/-! ## Spelled text -/

/-- Each character is spelled as itself, or in its bytes. -/
inductive Spells : List Sign → List Char → Prop where
  | nil : Spells [] []
  | char (ch : Char) {signs : List Sign} {cs : List Char} (h : Spells signs cs) : Spells (.inr ch :: signs) (ch :: cs)
  | bytes (ch : Char) {signs : List Sign} {cs : List Char} (h : Spells signs cs) :
    Spells ((String.utf8EncodeChar ch).map .inl ++ signs) (ch :: cs)

theorem Spells.append {signs signs' : List Sign} {cs cs' : List Char} (h : Spells signs cs) (h' : Spells signs' cs') :
    Spells (signs ++ signs') (cs ++ cs') := by
  induction h with
  | nil => exact h'
  | char ch _ ih => exact .char ch ih
  | bytes ch _ ih =>
    rw [List.append_assoc]
    exact .bytes ch ih

theorem Spells.chars (cs : List Char) : Spells (cs.map .inr) cs := by
  induction cs with
  | nil => exact .nil
  | cons ch cs ih => exact .char ch ih

theorem Spells.spell {signs : List Sign} {cs : List Char} (h : Spells signs cs) : spell signs = cs := by
  -- the bytes that wait are those of whole characters
  have hfrom : ∀ before : List Char, spellFrom (Utf8.encode before) signs = before ++ cs := by
    induction h with
    | nil =>
      intro before
      rw [spellFrom, lossy_encode, List.append_nil]
    | char ch _ ih =>
      intro before
      have hrest := ih []
      rw [spellFrom, lossy_encode]
      exact congrArg (before ++ ch :: ·) hrest
    | bytes ch _ ih =>
      intro before
      have hencode : Utf8.encode before ++ String.utf8EncodeChar ch = Utf8.encode (before ++ [ch]) := by
        simp [Utf8.encode]
      rw [spellFrom_bytes, hencode, ih]
      simp
  exact hfrom []

theorem byteOf_singleton (ch : Char) : byteOf (String.singleton ch) = none := by
  have hstrip : Text.strip (String.singleton ch) "<0x" = none := by
    refine if_neg fun h => ?_
    have hle := (List.isPrefixOf_iff_prefix.mp h).length_le
    simp at hle
  rw [byteOf, hstrip]
  rfl

theorem reading_singleton (ch : Char) : reading (String.singleton ch) = [.inr ch] := by
  rw [reading, byteOf_singleton]
  simp

/-- The digits of a byte, as a piece shows them. -/
theorem parseHexByte_digits (b : UInt8) :
    parseHexByte (String.ofList ([Nat.digitChar (b.toNat / 16), Nat.digitChar (b.toNat % 16)].map Char.toUpper)) =
      some b := by
  have hall : ∀ n < 256, parseHexByte
      (String.ofList ([Nat.digitChar (n / 16), Nat.digitChar (n % 16)].map Char.toUpper)) = some (UInt8.ofNat n) := by
    decide +kernel
  rw [hall b.toNat b.toNat_lt, UInt8.ofNat_toNat]

theorem reading_bytePiece (b : UInt8) : reading (bytePiece b) = [.inl b] := by
  have hstrip : Text.strip (bytePiece b) "<0x" = some (String.ofList
      ([Nat.digitChar (b.toNat / 16), Nat.digitChar (b.toNat % 16)].map Char.toUpper ++ ['>'])) := by
    unfold Text.strip Text.startsWith bytePiece
    simp
  have hend : Text.stripEnd (String.ofList
      ([Nat.digitChar (b.toNat / 16), Nat.digitChar (b.toNat % 16)].map Char.toUpper ++ ['>'])) ">" =
        some (String.ofList ([Nat.digitChar (b.toNat / 16), Nat.digitChar (b.toNat % 16)].map Char.toUpper)) := by
    rw [Text.stripEnd_eq_some, String.ofList_append]
  rw [reading, byteOf, hstrip, Option.bind_some, hend, Option.bind_some, parseHexByte_digits]

theorem reading_literal {piece : String} (h : byteOf piece = none) : reading piece = piece.toList.map .inr := by
  rw [reading, h]

section loading

variable {file : TokenizerFile} {tokenizer : BpeTokenizer}

/-! ## Ordinary spans -/

theorem spells_initialPieces (hfallback : tokenizer.byteFallback = true) (normalized : List Char) :
    Spells ((tokenizer.initialPiecesSp normalized).flatMap reading) normalized := by
  unfold BpeTokenizer.initialPiecesSp
  induction normalized with
  | nil => exact .nil
  | cons ch normalized ih =>
    rw [List.flatMap_cons, List.flatMap_append]
    by_cases hknown : (tokenizer.pieceId (String.singleton ch)).isSome = true
    · rw [if_pos hknown, List.flatMap_cons, reading_singleton]
      exact .char ch ih
    · rw [if_neg hknown, if_pos hfallback, List.flatMap_map]
      have hbytes : ∀ bytes : List UInt8, bytes.flatMap (fun b => reading (bytePiece b)) = bytes.map .inl := by
        intro bytes
        induction bytes with
        | nil => rfl
        | cons b bytes ih => rw [List.flatMap_cons, reading_bytePiece, ih]; rfl
      rw [hbytes]
      exact .bytes ch ih

/-- The vocabulary has every byte token and every merge, and ids tell the entries apart. -/
structure TokenizerFile.SpComplete (file : TokenizerFile) : Prop where
  bytes : ∀ b : UInt8, bytePiece b ∈ file.model.vocab.map (·.1)
  merged : file.MergesKnown
  ids : file.DistinctIds

theorem pieceId_initialPieces (h : Loads file tokenizer) (hcomplete : file.SpComplete)
    (hfallback : tokenizer.byteFallback = true) (normalized : List Char) :
    ∀ p ∈ tokenizer.initialPiecesSp normalized, (tokenizer.pieceId p).isSome := by
  intro p hp
  obtain ⟨ch, -, hp⟩ := List.mem_flatMap.mp hp
  by_cases hknown : (tokenizer.pieceId (String.singleton ch)).isSome = true
  · rw [if_pos hknown] at hp
    rw [List.mem_singleton.mp hp]
    exact hknown
  · rw [if_neg hknown, if_pos hfallback] at hp
    obtain ⟨b, -, rfl⟩ := List.mem_map.mp hp
    exact pieceId_of_mem h (hcomplete.bytes b)

theorem readings_append (ids ids' : List Nat) (skip : Bool) :
    tokenizer.readings (ids ++ ids') skip = tokenizer.readings ids skip ++ tokenizer.readings ids' skip := by
  unfold BpeTokenizer.readings
  rw [List.flatMap_append]

theorem readings_false (ids : List Nat) :
    tokenizer.readings ids false = ids.flatMap fun id => reading (tokenizer.tokenText id) := rfl

theorem readings_encodeOrdinary (h : Loads file tokenizer) (hcomplete : file.SpComplete)
    (hkind : tokenizer.kind = .sentencePiece) (hfallback : tokenizer.byteFallback = true) {text : List Char}
    (hne : text ≠ []) : tokenizer.readings (tokenizer.encodeOrdinary text) false =
      (tokenizer.bpeMerge (tokenizer.initialPiecesSp (normalizeSp text))).flatMap reading := by
  unfold BpeTokenizer.encodeOrdinary
  rw [if_neg (fun hempty => hne (List.isEmpty_iff.mp hempty))]
  simp only [hkind]
  have hknown := bpeMerge_forall (p := fun p => (tokenizer.pieceId p).isSome)
    (fun a b rank => pieceId_merged h hcomplete.merged) (pieceId_initialPieces h hcomplete hfallback (normalizeSp text))
  rw [readings_false, List.flatMap_map]
  exact List.flatMap_congr fun p hp => congrArg reading (tokenText_ids h hcomplete.ids (hknown p hp))

/-! ## Segments -/

/-- Nothing in a segment is read as a byte that does not stand for one, or the other way around. -/
def Segment.Faithful (tokenizer : BpeTokenizer) : Segment → Prop
  | .span text => (tokenizer.bpeMerge (tokenizer.initialPiecesSp (normalizeSp text))).flatMap reading =
      (tokenizer.initialPiecesSp (normalizeSp text)).flatMap reading
  | .special piece _ => byteOf piece = none

/-- The text of a segment as it is normalised. -/
def Segment.marked : Segment → List Char
  | .span text => normalizeSp text
  | .special piece _ => piece.toList

/-- The text of a segment as it comes back. -/
def Segment.spaced : Segment → List Char
  | .span text => ' ' :: text
  | .special piece _ => piece.toList

/-- A segment of some text. -/
def Segment.Filled (segment : Segment) : Prop := segment.text ≠ []

theorem spells_segment (h : Loads file tokenizer) (hcomplete : file.SpComplete)
    (hkind : tokenizer.kind = .sentencePiece) (hfallback : tokenizer.byteFallback = true) {segment : Segment}
    (hfilled : segment.Filled) (hmem : ∀ piece id, segment = .special piece id → (piece, id) ∈ file.pieces)
    (hfaithful : segment.Faithful tokenizer) :
    Spells (tokenizer.readings (segment.ids tokenizer) false) segment.marked := by
  cases segment with
  | span text =>
    have hne : text ≠ [] := hfilled
    rw [Segment.ids, readings_encodeOrdinary h hcomplete hkind hfallback hne]
    unfold Segment.Faithful at hfaithful
    rw [hfaithful]
    exact spells_initialPieces hfallback _
  | special piece id =>
    have htext := tokenText_special h hcomplete.ids (hmem piece id rfl)
    rw [Segment.ids, readings_false, List.flatMap_cons, htext, reading_literal hfaithful]
    rw [List.flatMap_nil, List.append_nil]
    exact Spells.chars piece.toList

theorem unmark_marked {segment : Segment} (hmark : spaceMark ∉ segment.text) :
    segment.marked.map unmark = segment.spaced := by
  have hkeep : ∀ {cs : List Char}, spaceMark ∉ cs → cs.map unmark = cs := by
    intro cs hcs
    have hchar : ∀ ch ∈ cs, unmark ch = ch := by
      intro ch hch
      have hne : ch ≠ spaceMark := fun heq => hcs (heq ▸ hch)
      exact if_neg hne
    rw [List.map_congr_left hchar, List.map_id']
  cases segment with
  | span text =>
    show (normalizeSp text).map unmark = ' ' :: text
    unfold normalizeSp
    rw [List.map_cons, List.map_map]
    have hspace : ∀ ch ∈ text, (unmark ∘ fun ch => if ch = ' ' then spaceMark else ch) ch = ch := by
      intro ch hch
      have hne : ch ≠ spaceMark := fun heq => hmark (heq ▸ hch)
      by_cases hsp : ch = ' '
      · simp [unmark, hsp]
      · simp [unmark, hsp, hne]
    rw [List.map_congr_left hspace, List.map_id']
    rfl
  | special piece id => exact hkeep hmark

theorem Cuts.special_mem {pieces : List (String × Nat)} {text : List Char} {segments : List Segment}
    (h : Cuts pieces text segments) : ∀ piece id, .special piece id ∈ segments → (piece, id) ∈ pieces := by
  have hspans : ∀ {text : List Char} {piece : String} {id : Nat}, .special piece id ∉ spans text := by
    intro text piece id hmem
    unfold spans at hmem
    split at hmem <;> simp at hmem
  induction h with
  | last _ => exact fun piece id hmem => absurd hmem hspans
  | cut he _ _ _ _ ih =>
    intro piece id hmem
    rcases List.mem_append.mp hmem with hmem | hmem
    · exact absurd hmem hspans
    · rcases List.mem_cons.mp hmem with heq | hmem
      · cases heq
        exact he
      · exact ih piece id hmem

/-- The segments of a text, as they come back. -/
theorem rawText_segments (h : Loads file tokenizer) (hcomplete : file.SpComplete)
    (hkind : tokenizer.kind = .sentencePiece) (hfallback : tokenizer.byteFallback = true) {segments : List Segment}
    (hfilled : ∀ s ∈ segments, s.Filled) (hmem : ∀ piece id, .special piece id ∈ segments → (piece, id) ∈ file.pieces)
    (hfaithful : ∀ s ∈ segments, s.Faithful tokenizer) (hmark : ∀ s ∈ segments, spaceMark ∉ s.text) :
    tokenizer.rawText (segments.flatMap (Segment.ids tokenizer)) false = segments.flatMap Segment.spaced := by
  have hspells : Spells (tokenizer.readings (segments.flatMap (Segment.ids tokenizer)) false)
      (segments.flatMap Segment.marked) := by
    induction segments with
    | nil => exact .nil
    | cons segment segments ih =>
      rw [List.forall_mem_cons] at hfilled hfaithful hmark
      rw [List.flatMap_cons, List.flatMap_cons, readings_append]
      refine (spells_segment h hcomplete hkind hfallback hfilled.1 (fun piece id heq => ?_) hfaithful.1).append
        (ih hfilled.2 (fun piece id hin => hmem piece id (List.mem_cons_of_mem _ hin)) hfaithful.2 hmark.2)
      exact hmem piece id (heq ▸ List.mem_cons_self)
  rw [rawText, hspells.spell, List.map_flatMap]
  exact List.flatMap_congr fun s hs => unmark_marked (hmark s hs)

end loading

/-! ## What comes back -/

/-- No span stands behind the first segment. -/
def SpanFirst (segments : List Segment) : Prop := ∀ span, .span span ∉ segments.tail

def Segment.isSpan : Segment → Bool
  | .span _ => true
  | .special _ _ => false

def spanCount (segments : List Segment) : Nat := segments.countP Segment.isSpan

theorem length_spaced (segments : List Segment) :
    (segments.flatMap Segment.spaced).length = (segments.flatMap Segment.text).length + spanCount segments := by
  induction segments with
  | nil => rfl
  | cons segment segments ih =>
    rw [List.flatMap_cons, List.flatMap_cons, List.length_append, List.length_append, ih, spanCount, spanCount,
      List.countP_cons]
    cases segment with
    | span text =>
      simp only [Segment.spaced, Segment.text, Segment.isSpan, List.length_cons, if_true]
      omega
    | special piece id =>
      simp only [Segment.spaced, Segment.text, Segment.isSpan, Bool.false_eq_true, if_false]
      omega

theorem spanCount_eq_zero {segments : List Segment} : spanCount segments = 0 ↔ ∀ span, .span span ∉ segments := by
  unfold spanCount
  rw [List.countP_eq_zero]
  constructor
  · exact fun h span hmem => h _ hmem rfl
  · intro h segment hmem
    cases segment with
    | span text => exact absurd hmem (h text)
    | special piece id => simp [Segment.isSpan]

theorem spaced_of_no_span {segments : List Segment} (h : ∀ span, .span span ∉ segments) :
    segments.flatMap Segment.spaced = segments.flatMap Segment.text := by
  refine List.flatMap_congr fun segment hmem => ?_
  cases segment with
  | span text => exact absurd hmem (h text)
  | special piece id => rfl

/-- Trimming takes the marks of the spans off again when there is one of them, in front of a text that starts with no
white space. -/
theorem trimStart_spaced_iff {segments : List Segment} (hfilled : ∀ s ∈ segments, s.Filled) :
    trimStart (segments.flatMap Segment.spaced) = segments.flatMap Segment.text ↔
      (∀ c ∈ (segments.flatMap Segment.text).head?, isWhiteSpace c = false) ∧ SpanFirst segments := by
  have hstart : trimStart (segments.flatMap Segment.spaced) = segments.flatMap Segment.text →
      ∀ c ∈ (segments.flatMap Segment.text).head?, isWhiteSpace c = false := by
    intro heq
    rw [← heq, ← trimStart_eq_self]
    exact trimStart_trimStart _
  have hcount : ∀ {segments : List Segment}, segments.flatMap Segment.spaced = segments.flatMap Segment.text ↔
      ∀ span, .span span ∉ segments := by
    intro segments
    refine ⟨fun heq => spanCount_eq_zero.mp ?_, spaced_of_no_span⟩
    have hlength := congrArg List.length heq
    rw [length_spaced] at hlength
    omega
  cases segments with
  | nil => simp [trimStart, SpanFirst]
  | cons segment segments =>
    rw [List.forall_mem_cons] at hfilled
    refine ⟨fun heq => ⟨hstart heq, ?_⟩, fun hkept => ?_⟩
    · have hhead := hstart heq
      unfold SpanFirst
      rw [List.tail_cons, ← hcount]
      cases segment with
      | span text =>
        cases text with
        | nil => exact absurd rfl hfilled.1
        | cons c text =>
          have hc : isWhiteSpace c = false := hhead c rfl
          have hspace : isWhiteSpace ' ' = true := by decide
          simp only [List.flatMap_cons, Segment.spaced, Segment.text, List.cons_append, trimStart, List.dropWhile_cons, hspace, if_true,
            hc, Bool.false_eq_true, if_false, List.cons.injEq, true_and] at heq
          exact List.append_cancel_left heq
      | special piece id =>
        have hself : trimStart ((Segment.special piece id :: segments).flatMap Segment.spaced) =
            (Segment.special piece id :: segments).flatMap Segment.spaced := by
          rw [trimStart_eq_self]
          refine fun c hc => hhead c ?_
          have hpiece : piece.toList ≠ [] := hfilled.1
          have hsame : ∀ rest : List Char, (piece.toList ++ rest).head? = piece.toList.head? :=
            fun rest => List.head?_append_of_ne_nil _ hpiece
          exact (hsame _).trans ((hsame _).symm.trans hc)
        rw [hself, List.flatMap_cons, List.flatMap_cons] at heq
        exact List.append_cancel_left heq
    · obtain ⟨hhead, hspans⟩ := hkept
      have hrest := hcount.mpr hspans
      rw [List.tail_cons] at hrest
      rw [List.flatMap_cons, List.flatMap_cons, hrest]
      rw [List.flatMap_cons] at hhead
      cases segment with
      | span text =>
        have hspace : isWhiteSpace ' ' = true := by decide
        show trimStart (' ' :: (text ++ segments.flatMap Segment.text)) = text ++ segments.flatMap Segment.text
        rw [trimStart, List.dropWhile_cons, if_pos hspace]
        exact trimStart_eq_self.mpr hhead
      | special piece id => exact trimStart_eq_self.mpr hhead

/-! ## Where the spans stand -/

/-- Ordinary text up to the first special piece, if any, and then nothing but special pieces. -/
def SpecialsLast (pieces : List (String × Nat)) (text : List Char) : Prop :=
  ∃ before after, text = before ++ after ∧ LongestCut pieces after ∧
    (before ≠ [] → ∀ e ∈ pieces, ∀ x y, text = x ++ e.1.toList ++ y → before.length ≤ x.length)

theorem toList_ne_nil {piece : String} : piece.toList ≠ [] ↔ piece ≠ "" := by
  rw [ne_eq, ne_eq, ← String.toList_inj]
  exact Iff.rfl

/-- What is left behind the first piece. -/
theorem LongestCut.drop {pieces : List (String × Nat)} {e : String × Nat} {after : List Char} (he : e ∈ pieces)
    (hne : e.1 ≠ "") (hlongest : ∀ e' ∈ pieces, e'.1.toList <+: e.1.toList ++ after → e'.1.toList.length ≤ e.1.toList.length)
    (h : LongestCut pieces (e.1.toList ++ after)) : LongestCut pieces after := by
  generalize htext : e.1.toList ++ after = text at h
  cases h with
  | nil => exact absurd (List.append_eq_nil_iff.mp htext).1 (toList_ne_nil.mpr hne)
  | @cons e' after' he' _ hlongest' hafter =>
    have hle := hlongest e' he' (htext ▸ List.prefix_append _ _)
    have hge := hlongest' e he (htext ▸ List.prefix_append _ _)
    rw [(List.append_inj htext (Nat.le_antisymm hge hle)).2]
    exact hafter

theorem Cuts.no_span_of_longestCut {pieces : List (String × Nat)} {text : List Char} {segments : List Segment}
    (hcuts : Cuts pieces text segments) (hne : ∀ piece id, .special piece id ∈ segments → piece ≠ "")
    (h : LongestCut pieces text) : ∀ span, .span span ∉ segments := by
  induction hcuts with
  | last hordinary =>
    cases h with
    | nil => exact fun span hmem => absurd hmem List.not_mem_nil
    | cons he hpiece _ _ =>
      refine absurd ⟨[], _, rfl⟩ (hordinary (fun hnil => ?_) _ he)
      exact toList_ne_nil.mpr hpiece (List.append_eq_nil_iff.mp hnil).1
  | @cut before after e segments he hfirst hlongest _ _ ih =>
    have hpiece : e.1 ≠ "" := hne e.1 e.2 (by simp)
    have hbefore : before = [] := by
      generalize htext : before ++ e.1.toList ++ after = text' at h
      cases h with
      | nil => exact (List.append_eq_nil_iff.mp (List.append_eq_nil_iff.mp htext).1).1
      | cons he' _ _ _ => exact List.length_eq_zero_iff.mp (Nat.le_zero.mp (hfirst _ he' [] _ htext))
    subst hbefore
    rw [List.nil_append] at h hlongest
    have hafter : LongestCut pieces after := h.drop he hpiece fun e' he' hprefix => by
      obtain ⟨after', hafter'⟩ := hprefix
      exact hlongest e' he' after' hafter'.symm
    have hrest := ih (fun piece id hmem => hne piece id (by simp [hmem])) hafter
    intro span hmem
    rcases List.mem_cons.mp hmem with heq | hmem
    · cases heq
    · exact hrest span hmem

theorem Cuts.longestCut_of_no_span {pieces : List (String × Nat)} {text : List Char} {segments : List Segment}
    (hcuts : Cuts pieces text segments) (hne : ∀ piece id, .special piece id ∈ segments → piece ≠ "")
    (hspans : ∀ span, .span span ∉ segments) : LongestCut pieces text := by
  have hempty : ∀ {text : List Char}, (∀ span, .span span ∉ spans text) → text = [] := by
    intro text h
    by_contra htext
    refine h text ?_
    rw [spans, if_neg (fun hnil => htext (List.isEmpty_iff.mp hnil))]
    exact List.mem_singleton.mpr rfl
  induction hcuts with
  | last _ =>
    rw [hempty hspans]
    exact .nil
  | @cut before after e segments he _ hlongest _ _ ih =>
    have hbefore : before = [] := hempty fun span hmem => hspans span (List.mem_append_left _ hmem)
    subst hbefore
    rw [List.nil_append] at hlongest ⊢
    refine .cons he (hne e.1 e.2 (by simp)) (fun e' he' hprefix => ?_) (ih ?_ ?_)
    · obtain ⟨after', hafter'⟩ := hprefix
      exact hlongest e' he' after' hafter'.symm
    · exact fun piece id hmem => hne piece id (by simp [hmem])
    · exact fun span hmem => hspans span (by simp [hmem])

theorem Cuts.spanFirst_iff {pieces : List (String × Nat)} {text : List Char} {segments : List Segment}
    (hcuts : Cuts pieces text segments) (hne : ∀ piece id, .special piece id ∈ segments → piece ≠ "") :
    SpanFirst segments ↔ SpecialsLast pieces text := by
  cases hcuts with
  | last hordinary =>
    refine iff_of_true (fun span hmem => ?_) ⟨text, [], (List.append_nil _).symm, .nil, fun htext e he x y heq => ?_⟩
    · unfold spans at hmem
      split at hmem <;> simp at hmem
    · exact absurd ⟨x, y, heq.symm⟩ (hordinary htext e he)
  | @cut before after e segments he hfirst hlongest hordinary hafter =>
    have hpiece : e.1 ≠ "" := hne e.1 e.2 (by simp)
    have hne' : ∀ piece id, .special piece id ∈ segments → piece ≠ "" := fun piece id hmem => hne piece id (by simp [hmem])
    have hlongest' : ∀ e' ∈ pieces, e'.1.toList <+: e.1.toList ++ after → e'.1.toList.length ≤ e.1.toList.length := by
      intro e' he' hprefix
      obtain ⟨after', hafter'⟩ := hprefix
      exact hlongest e' he' after' (by rw [List.append_assoc, List.append_assoc, hafter'])
    have hrest : SpanFirst (spans before ++ .special e.1 e.2 :: segments) ↔ ∀ span, .span span ∉ segments := by
      unfold SpanFirst spans
      split <;> simp
    rw [hrest]
    constructor
    · intro hspans
      refine ⟨before, e.1.toList ++ after, List.append_assoc _ _ _, .cons he hpiece hlongest' ?_, fun _ => hfirst⟩
      exact hafter.longestCut_of_no_span hne' hspans
    · rintro ⟨before', after', htext, hcut, hstart⟩
      have hsame : before = before' ∧ e.1.toList ++ after = after' := by
        rw [List.append_assoc] at htext
        refine List.append_inj htext (Nat.le_antisymm ?_ ?_)
        · cases hcut with
          | nil =>
            have hlength := congrArg List.length htext
            simp only [List.length_append, List.length_nil] at hlength
            omega
          | @cons e' after' he' _ _ _ =>
            refine hfirst e' he' before' after' ?_
            rw [List.append_assoc, htext, List.append_assoc]
        · by_cases hbefore : before' = []
          · simp [hbefore]
          · exact hstart hbefore e he before after rfl
      obtain ⟨rfl, rfl⟩ := hsame
      exact hafter.no_span_of_longestCut hne' (hcut.drop he hpiece hlongest')

/-! ## A text and back -/

section loading

variable {file : TokenizerFile} {tokenizer : BpeTokenizer}

theorem Cuts.filled {pieces : List (String × Nat)} {text : List Char} {segments : List Segment}
    (hcuts : Cuts pieces text segments) (hne : ∀ piece id, .special piece id ∈ segments → piece ≠ "") :
    ∀ s ∈ segments, s.Filled := by
  have hspans : ∀ {text : List Char}, ∀ s ∈ spans text, s.Filled := by
    intro text s hs
    unfold spans at hs
    split at hs
    · cases hs
    · next hne =>
      rw [List.mem_singleton.mp hs]
      exact fun hnil => hne (List.isEmpty_iff.mpr hnil)
  induction hcuts with
  | last _ => exact hspans
  | cut _ _ _ _ _ ih =>
    intro s hs
    rcases List.mem_append.mp hs with hs | hs
    · exact hspans s hs
    · rcases List.mem_cons.mp hs with rfl | hs
      · exact toList_ne_nil.mpr (hne _ _ (List.mem_append_right _ List.mem_cons_self))
      · exact ih (fun piece id hmem => hne piece id (by simp [hmem])) s hs

/-- Nothing in the text is read as a byte that does not stand for one, or the other way around. -/
def FaithfulText (file : TokenizerFile) (tokenizer : BpeTokenizer) (text : List Char) : Prop :=
  ∀ segments, Cuts file.pieces text segments → ∀ s ∈ segments, s.Faithful tokenizer

/-- So it is with any text when no merge has a byte token as a side or for its result, and no special piece is one. -/
theorem faithfulText_of_merges (h : Loads file tokenizer)
    (hmerges : ∀ entry ∈ file.model.merges, ∀ sides, entry.sides = some sides →
      reading (sides.1 ++ sides.2) = reading sides.1 ++ reading sides.2)
    (hpieces : ∀ e ∈ file.pieces, byteOf e.1 = none) (text : List Char) : FaithfulText file tokenizer text := by
  intro segments hcuts s hs
  cases s with
  | span text =>
    refine bpeMerge_flatMap (fun a b rank hrank => ?_) _
    obtain ⟨entry, hentry, hsides⟩ := exists_merge h hrank
    exact hmerges entry hentry (a, b) hsides
  | special piece id => exact hpieces (piece, id) (hcuts.special_mem piece id hs)

/-- Encoding ends where special pieces stand last. -/
theorem exists_ids (h : Loads file tokenizer) {text : List Char} (hlast : SpecialsLast file.pieces text) :
    ∃ ids, tokenizer.encodeLoop text.length text = some ids := by
  have hsorted := sorted_specialPieces h
  have hpieces : ∀ e, e ∈ file.pieces ↔ e ∈ tokenizer.specialPieces := fun e => (mem_specialPieces h).symm
  by_cases hne : ∀ e ∈ tokenizer.specialPieces, e.1 ≠ ""
  · exact ends_of_nonempty hsorted hne (Nat.le_refl _)
  · simp only [not_forall, not_not] at hne
    obtain ⟨e, he, hempty⟩ := hne
    obtain ⟨before, after, rfl, hcut, hstart⟩ := hlast
    -- the empty piece stands at the very start
    have hbefore : before = [] := by
      by_contra hbefore
      have hle := hstart hbefore e ((hpieces e).mpr he) [] (before ++ after) (by simp [hempty])
      exact hbefore (List.length_eq_zero_iff.mp (Nat.le_zero.mp hle))
    rw [hbefore, List.nil_append]
    exact (hcut.congr hpieces).ends hsorted ⟨e, he, hempty⟩ (Nat.le_refl _)

theorem decode_encode_iff (h : Loads file tokenizer) (hcomplete : file.SpComplete)
    (hkind : tokenizer.kind = .sentencePiece) (hfallback : tokenizer.byteFallback = true) {text : String}
    (hmark : spaceMark ∉ text.toList) (hfaithful : FaithfulText file tokenizer text.toList) :
    (∃ ids, tokenizer.encode text false = some ids ∧ tokenizer.decode ids false = text) ↔
      (∀ c ∈ text.toList.head?, isWhiteSpace c = false) ∧ SpecialsLast file.pieces text.toList := by
  have hback : ∀ ids, tokenizer.encodeLoop text.toList.length text.toList = some ids →
      (tokenizer.decode ids false = text ↔
        (∀ c ∈ text.toList.head?, isWhiteSpace c = false) ∧ SpecialsLast file.pieces text.toList) := by
    intro ids hids
    obtain ⟨segments, hcuts, rfl, hne⟩ := cuts_of_encodeLoop (sorted_specialPieces h) hids
    have hcuts' : Cuts file.pieces text.toList segments := hcuts.congr fun e => mem_specialPieces h
    have hmarks : ∀ s ∈ segments, spaceMark ∉ s.text := by
      intro s hs hin
      refine hmark ?_
      rw [← hcuts.text]
      exact List.mem_flatMap.mpr ⟨s, hs, hin⟩
    have hraw := rawText_segments h hcomplete hkind hfallback (hcuts.filled hne) hcuts'.special_mem
      (hfaithful segments hcuts') hmarks
    rw [BpeTokenizer.decode, hkind]
    simp only
    rw [decodeSp_eq, hraw, ← hcuts'.spanFirst_iff hne, ← String.toList_inj, String.toList_ofList]
    have hiff := trimStart_spaced_iff (hcuts.filled hne)
    rwa [hcuts.text] at hiff
  rw [encode_eq]
  constructor
  · rintro ⟨ids, hids, htext⟩
    exact (hback ids hids).mp htext
  · intro hkept
    obtain ⟨ids, hids⟩ := exists_ids h hkept.2
    exact ⟨ids, hids, (hback ids hids).mpr hkept⟩

/-- **Losslessness.** A text comes back just when it does not start with white space, and no ordinary text stands behind
a special piece in it. -/
theorem sp_lossless_iff {parse : List UInt8 → Except String TokenizerFile} {bytes : List UInt8}
    (hparse : parse bytes = .ok file) (hload : BpeTokenizer.fromBytes parse bytes = .ok tokenizer)
    (hkind : tokenizer.kind = .sentencePiece) (hfallback : tokenizer.byteFallback = true) (hcomplete : file.SpComplete)
    (text : String) (hmark : spaceMark ∉ text.toList) (hfaithful : FaithfulText file tokenizer text.toList) :
    (∃ ids, tokenizer.encode text false = some ids ∧ tokenizer.decode ids false = text) ↔
      (∀ c ∈ text.toList.head?, isWhiteSpace c = false) ∧ SpecialsLast file.pieces text.toList :=
  decode_encode_iff (loads_of_fromBytes hparse hload) hcomplete hkind hfallback hmark hfaithful

end loading

section small

theorem bytePiece_ofNat_inj {n m : Nat} (hn : n < 256) (hm : m < 256)
    (h : bytePiece (UInt8.ofNat n) = bytePiece (UInt8.ofNat m)) : n = m := by
  have hreading := congrArg reading h
  rw [reading_bytePiece, reading_bytePiece, List.cons.injEq, Sum.inl.injEq] at hreading
  have hnat := congrArg UInt8.toNat hreading.1
  rwa [UInt8.toNat_ofNat_of_lt' hn, UInt8.toNat_ofNat_of_lt' hm] at hnat

theorem nodup_bytePieces : (((List.range 256).map fun n => (bytePiece (UInt8.ofNat n), n)).map (·.1)).Nodup := by
  rw [List.map_map]
  refine List.Nodup.map_on (fun n hn m hm h => ?_) List.nodup_range
  exact bytePiece_ofNat_inj (List.mem_range.mp hn) (List.mem_range.mp hm) h

/-- A vocabulary of the byte tokens alone, with one special piece. -/
def spFile (content : String) : TokenizerFile where
  addedTokens := [⟨256, content, true⟩]
  model :=
    { vocab := (List.range 256).map fun n => (bytePiece (UInt8.ofNat n), n)
      merges := []
      byteFallback := true
      vocabKeys := nodup_bytePieces }

theorem spComplete_spFile (content : String) : (spFile content).SpComplete := by
  constructor
  case bytes =>
    intro b
    simp only [spFile, List.map_map, List.mem_map, List.mem_range]
    exact ⟨b.toNat, b.toNat_lt, by simp⟩
  case merged => exact fun entry hentry => absurd hentry List.not_mem_nil
  case ids =>
    intro e he e' he' hid
    simp only [TokenizerFile.entries, spFile, List.mem_append, List.mem_map, List.mem_range, List.mem_singleton,
      List.map_singleton] at he he'
    rcases he with ⟨n, hn, rfl⟩ | rfl
    · rcases he' with ⟨m, hm, rfl⟩ | rfl
      · cases hid
        rfl
      · exact absurd hid (Nat.ne_of_lt hn)
    · rcases he' with ⟨m, hm, rfl⟩ | rfl
      · exact absurd hid (Nat.ne_of_gt hm)
      · rfl

theorem exists_spFile (content : String) : ∃ tokenizer, BpeTokenizer.fromBytes (fun _ => .ok (spFile content)) [] = .ok tokenizer ∧
    tokenizer.kind = .sentencePiece ∧ tokenizer.byteFallback = true := by
  have hvocab : ¬ (spFile content).model.vocab.isEmpty = true := by simp [spFile]
  have hstart : ∀ (start : String) (c : Char), start.toList.head? = some c → c ≠ '<' →
      ((spFile content).model.vocab.any fun e => Text.startsWith e.1 start) = false := by
    intro start c hc hne
    rw [List.any_eq_false]
    intro e he hstarts
    obtain ⟨n, -, rfl⟩ := List.mem_map.mp he
    have hhead : (bytePiece (UInt8.ofNat n)).toList.head? = some c := Text.head_of_startsWith hstarts hc
    have hfirst : (bytePiece (UInt8.ofNat n)).toList.head? = some '<' := by
      unfold bytePiece
      simp
    rw [hfirst, Option.some_inj] at hhead
    exact hne hhead.symm
  have hkind : detectKind (spFile content) = .sentencePiece := by
    have hdecoder : ¬ (spFile content).decoder.any decoderIsByteLevel = true := Bool.false_ne_true
    have hgpt2 : ((spFile content).model.vocab.any fun e => Text.startsWith e.1 "\u0120") = false :=
      hstart "\u0120" '\u0120' rfl (by decide)
    unfold detectKind
    simp only
    rw [if_neg hdecoder, hgpt2, Bool.false_and, if_neg Bool.false_ne_true]
  unfold BpeTokenizer.fromBytes BpeTokenizer.fromFile
  simp only
  rw [if_neg hvocab, hkind]
  exact ⟨_, rfl, rfl, rfl⟩

theorem faithfulText_spFile {tokenizer : BpeTokenizer} {content : String}
    (hload : BpeTokenizer.fromBytes (fun _ => .ok (spFile content)) [] = .ok tokenizer) (hcontent : byteOf content = none)
    (text : List Char) : FaithfulText (spFile content) tokenizer text := by
  refine faithfulText_of_merges (loads_of_fromBytes rfl hload) (fun entry hentry => absurd hentry List.not_mem_nil)
    (fun e he => ?_) text
  cases List.mem_singleton.mp he
  exact hcontent

theorem sp_lossless_iff_end : ∃ tokenizer, BpeTokenizer.fromBytes (fun _ => .ok (spFile "<|end|>")) [] = .ok tokenizer ∧
    ∃ ids, tokenizer.encode "a<|end|>" false = some ids ∧ tokenizer.decode ids false = "a<|end|>" := by
  obtain ⟨tokenizer, hload, hkind, hfallback⟩ := exists_spFile "<|end|>"
  refine ⟨tokenizer, hload, (sp_lossless_iff rfl hload hkind hfallback (spComplete_spFile _) "a<|end|>" (by decide)
    (faithfulText_spFile hload (by decide) _)).mpr ⟨?_, ['a'], "<|end|>".toList, rfl, ?_, ?_⟩⟩
  · intro c hc
    cases hc
    decide
  · have hrow : LongestCut (spFile "<|end|>").pieces ("<|end|>".toList ++ []) := by
      refine .cons (e := ("<|end|>", 256)) (List.mem_singleton.mpr rfl) (by decide) (fun e he _ => ?_) .nil
      cases List.mem_singleton.mp he
      exact Nat.le_refl _
    exact hrow
  · intro _ e he x y htext
    cases List.mem_singleton.mp he
    cases x with
    | nil => cases htext
    | cons c x => simp

/-- White space in front is lost, and text behind a special piece gets a space more. -/
theorem sp_spaces_changed : ∃ tokenizer,
    BpeTokenizer.fromBytes (fun _ => .ok (spFile "<|end|>")) [] = .ok tokenizer ∧ tokenizer.kind = .sentencePiece ∧
      tokenizer.byteFallback = true ∧ (spFile "<|end|>").SpComplete ∧
      (¬ ∃ ids, tokenizer.encode " a" false = some ids ∧ tokenizer.decode ids false = " a") ∧
      ¬ ∃ ids, tokenizer.encode "<|end|>a" false = some ids ∧ tokenizer.decode ids false = "<|end|>a" := by
  obtain ⟨tokenizer, hload, hkind, hfallback⟩ := exists_spFile "<|end|>"
  have hcomplete := spComplete_spFile "<|end|>"
  have hiff : ∀ text : String, spaceMark ∉ text.toList →
      ((∃ ids, tokenizer.encode text false = some ids ∧ tokenizer.decode ids false = text) ↔ _) := fun text hmark =>
    decode_encode_iff (loads_of_fromBytes rfl hload) hcomplete hkind hfallback hmark
      (faithfulText_spFile hload (by decide) _)
  refine ⟨tokenizer, hload, hkind, hfallback, hcomplete, ?_, ?_⟩
  · rw [hiff " a" (by decide)]
    intro hkept
    have hspace := hkept.1 ' ' rfl
    revert hspace
    decide
  · rw [hiff "<|end|>a" (by decide)]
    intro hkept
    obtain ⟨-, before, after, htext, hcut, hstart⟩ := hkept
    have hpiece : ("<|end|>", 256) ∈ (spFile "<|end|>").pieces := List.mem_singleton.mpr rfl
    have hbefore : before = [] := by
      by_contra hne
      exact hne (List.length_eq_zero_iff.mp (Nat.le_zero.mp (hstart hne _ hpiece [] ['a'] rfl)))
    -- a row of these pieces has a length that seven divides
    have hlength : ∀ {text : List Char}, LongestCut (spFile "<|end|>").pieces text → 7 ∣ text.length := by
      intro text hcut
      induction hcut with
      | nil => exact Nat.dvd_zero 7
      | cons he _ _ _ ih =>
        cases List.mem_singleton.mp he
        rw [List.length_append]
        exact Nat.dvd_add (by decide) ih
    rw [hbefore, List.nil_append] at htext
    have hseven := hlength hcut
    rw [← htext] at hseven
    revert hseven
    decide

end small

end Dyninfer
