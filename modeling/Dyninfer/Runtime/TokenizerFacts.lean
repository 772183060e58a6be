/-
When the tokenizer gives a text back. The pieces of an ordinary span stand for
its bytes, whatever merges are made; a special piece is literal text, and is
read by the byte decoder all the same, which misreads the characters that are
symbols of other bytes.
-/
import Dyninfer.Runtime.Tokenizer

namespace Dyninfer

open Utf8

/-! ## Symbols -/

/-- The characters that stand for a byte other than their own. -/
def Misread (c : Char) : Prop := 0xa1 ≤ c.toNat ∧ c.toNat ≤ 0x143 ∧ c.toNat ≠ 0xad

instance (c : Char) : Decidable (Misread c) := inferInstanceAs (Decidable (_ ∧ _ ∧ _))

/-- The code points that stand for the bytes. -/
def symbolPoints : List Nat := plainBytes ++ List.range' 256 shiftedBytes.length

theorem mem_plainBytes {n : Nat} : n ∈ plainBytes ↔ (0x21 ≤ n ∧ n ≤ 0x7e) ∨ (0xa1 ≤ n ∧ n ≤ 0xff ∧ n ≠ 0xad) := by
  unfold plainBytes
  simp only [List.mem_append, List.mem_range'_1]
  omega

theorem length_shiftedBytes : shiftedBytes.length = 68 := by
  have hshifted : shiftedBytes = (List.range 256).filter fun n =>
      decide ¬((0x21 ≤ n ∧ n ≤ 0x7e) ∨ (0xa1 ≤ n ∧ n ≤ 0xff ∧ n ≠ 0xad)) := by
    refine List.filter_congr fun n _ => ?_
    rw [Bool.eq_iff_iff]
    simp only [Bool.not_eq_true', List.contains_eq_mem, decide_eq_false_iff_not, decide_eq_true_eq, mem_plainBytes]
  rw [hshifted]
  decide +kernel

theorem nodup_plainBytes : plainBytes.Nodup := by
  unfold plainBytes
  refine List.nodup_append.mpr ⟨List.nodup_append.mpr ⟨List.nodup_range', List.nodup_range', fun n hn m hm => ?_⟩,
    List.nodup_range', fun n hn m hm => ?_⟩
  · rw [List.mem_range'_1] at hn hm
    omega
  · rw [List.mem_append, List.mem_range'_1, List.mem_range'_1] at hn
    rw [List.mem_range'_1] at hm
    omega

theorem mem_symbolPoints {n : Nat} : n ∈ symbolPoints ↔ (0x21 ≤ n ∧ n ≤ 0x7e) ∨ (0xa1 ≤ n ∧ n ≤ 0x143 ∧ n ≠ 0xad) := by
  unfold symbolPoints
  rw [List.mem_append, mem_plainBytes, length_shiftedBytes, List.mem_range'_1]
  omega

theorem nodup_symbolPoints : symbolPoints.Nodup := by
  unfold symbolPoints
  rw [length_shiftedBytes, List.nodup_append]
  refine ⟨nodup_plainBytes, List.nodup_range', fun n hn m hm => ?_⟩
  rw [mem_plainBytes] at hn
  rw [List.mem_range'_1] at hm
  omega

theorem map_fst_gpt2BytesToUnicode :
    gpt2BytesToUnicode.map Prod.fst = (plainBytes ++ shiftedBytes).map UInt8.ofNat := by
  unfold gpt2BytesToUnicode
  rw [List.map_map]
  show List.map (UInt8.ofNat ∘ Prod.fst) _ = _
  rw [← List.map_map, List.map_fst_zip (by simp)]

theorem map_fst_gpt2UnicodeToBytes : gpt2UnicodeToBytes.map Prod.fst = symbolPoints.map Char.ofNat := by
  unfold gpt2UnicodeToBytes gpt2BytesToUnicode
  rw [List.map_map, List.map_map]
  show List.map (Char.ofNat ∘ Prod.snd) _ = _
  rw [← List.map_map, List.map_snd_zip (by simp)]
  rfl

theorem toNat_ofNat_of_lt {n : Nat} (h : n < 0xd800) : (Char.ofNat n).toNat = n := by
  rw [Char.ofNat, dif_pos (Or.inl h)]
  rfl

theorem nodup_symbols : (gpt2UnicodeToBytes.map Prod.fst).Nodup := by
  rw [map_fst_gpt2UnicodeToBytes]
  refine List.Nodup.map_on (fun n hn m hm h => ?_) nodup_symbolPoints
  rw [mem_symbolPoints] at hn hm
  rw [← toNat_ofNat_of_lt (n := n) (by omega), h, toNat_ofNat_of_lt (by omega)]

theorem exists_symbol (b : UInt8) : ∃ c, (b, c) ∈ gpt2BytesToUnicode := by
  have hmem : b ∈ gpt2BytesToUnicode.map Prod.fst := by
    rw [map_fst_gpt2BytesToUnicode, List.mem_map]
    refine ⟨b.toNat, ?_, UInt8.ofNat_toNat⟩
    rw [List.mem_append]
    by_cases h : b.toNat ∈ plainBytes
    · exact .inl h
    · exact .inr (List.mem_filter.mpr ⟨List.mem_range.mpr b.toNat_lt, by simpa using h⟩)
  obtain ⟨e, he, rfl⟩ := List.mem_map.mp hmem
  exact ⟨e.2, he⟩

theorem mem_gpt2UnicodeToBytes {c : Char} {b : UInt8} : (c, b) ∈ gpt2UnicodeToBytes ↔ (b, c) ∈ gpt2BytesToUnicode := by
  unfold gpt2UnicodeToBytes
  rw [List.mem_map]
  constructor
  · rintro ⟨e, he, heq⟩
    cases heq
    exact he
  · exact fun h => ⟨(b, c), h, rfl⟩

theorem gpt2UnicodeToBytes_byteSymbol (b : UInt8) : gpt2UnicodeToBytes.get (byteSymbol b) = some b := by
  obtain ⟨c, hc⟩ := exists_symbol b
  obtain ⟨c', hc'⟩ := Option.isSome_iff_exists.mp (AssocMap.get_isSome_of_mem hc)
  rw [byteSymbol, hc', Option.getD_some]
  exact AssocMap.get_of_mem nodup_symbols (mem_gpt2UnicodeToBytes.mpr (AssocMap.mem_of_get hc'))

theorem gpt2UnicodeToBytes_misread {c : Char} (h : Misread c) : (gpt2UnicodeToBytes.get c).isSome := by
  have hmem : c ∈ gpt2UnicodeToBytes.map Prod.fst := by
    rw [map_fst_gpt2UnicodeToBytes, List.mem_map]
    exact ⟨c.toNat, mem_symbolPoints.mpr (.inr h), Char.ofNat_toNat c⟩
  obtain ⟨e, he, rfl⟩ := List.mem_map.mp hmem
  exact AssocMap.get_isSome_of_mem he

theorem utf8EncodeChar_of_get {c : Char} {b : UInt8} (h : gpt2UnicodeToBytes.get c = some b) (hc : ¬ Misread c) :
    String.utf8EncodeChar c = [b] := by
  have hmem := mem_gpt2UnicodeToBytes.mp (AssocMap.mem_of_get h)
  unfold gpt2BytesToUnicode at hmem
  rw [List.zip_append rfl, List.mem_map] at hmem
  obtain ⟨e, he, heq⟩ := hmem
  cases heq
  have hpoint : e.2 ∈ symbolPoints := by
    rw [← List.zip_append rfl] at he
    exact (List.of_mem_zip he).2
  rw [mem_symbolPoints] at hpoint
  have hascii : e.2 ≤ 0x7e := by
    unfold Misread at hc
    rw [toNat_ofNat_of_lt (by omega)] at hc
    omega
  have hsame : e.1 = e.2 := by
    rcases List.mem_append.mp he with he | he
    · obtain ⟨i, hi, rfl⟩ := List.mem_iff_getElem.mp he
      rw [List.getElem_zip]
    · have hshifted := (List.of_mem_zip he).2
      rw [List.mem_range'_1] at hshifted
      omega
  have hall : ∀ n < 0x7f, String.utf8EncodeChar (Char.ofNat n) = [UInt8.ofNat n] := by decide +kernel
  rw [hsame]
  exact hall e.2 (by omega)

theorem not_misread_of_all {cs : List Char} (h : (cs.all fun c => !decide (Misread c)) = true) :
    ∀ c ∈ cs, ¬ Misread c := by simpa using h

theorem length_utf8EncodeChar_misread {c : Char} (h : Misread c) : (String.utf8EncodeChar c).length = 2 := by
  rw [String.length_utf8EncodeChar, Char.utf8Size_eq_two_iff]
  obtain ⟨hlow, hhigh, -⟩ := h
  unfold Char.toNat at hlow hhigh
  constructor
  · exact UInt32.lt_iff_toNat_lt.mpr (by simpa using (by omega : 127 < c.val.toNat))
  · exact UInt32.le_iff_toNat_le.mpr (by simpa using (by omega : c.val.toNat ≤ 2047))

section decoding

variable {tokenizer : BpeTokenizer} (hdecoder : tokenizer.byteDecoder = gpt2UnicodeToBytes)

include hdecoder

theorem symbolBytes_byteSymbol (b : UInt8) : tokenizer.symbolBytes (byteSymbol b) = [b] := by
  rw [BpeTokenizer.symbolBytes, hdecoder, gpt2UnicodeToBytes_byteSymbol]

theorem symbolBytes_of_not_misread {c : Char} (h : ¬ Misread c) : tokenizer.symbolBytes c = String.utf8EncodeChar c := by
  unfold BpeTokenizer.symbolBytes
  rw [hdecoder]
  cases hget : gpt2UnicodeToBytes.get c with
  | some b => exact (utf8EncodeChar_of_get hget h).symm
  | none =>
    have hspace : c ≠ gpt2Space := by
      rintro rfl
      exact h (by decide)
    exact if_neg hspace

theorem length_symbolBytes_misread {c : Char} (h : Misread c) : (tokenizer.symbolBytes c).length = 1 := by
  obtain ⟨b, hb⟩ := Option.isSome_iff_exists.mp (gpt2UnicodeToBytes_misread h)
  rw [BpeTokenizer.symbolBytes, hdecoder, hb]
  rfl

theorem flatMap_symbolBytes {cs : List Char} (h : ∀ c ∈ cs, ¬ Misread c) :
    cs.flatMap tokenizer.symbolBytes = encode cs := by
  unfold encode
  exact List.flatMap_congr fun c hc => symbolBytes_of_not_misread hdecoder (h c hc)

theorem count_le_marks (cs : List Char) : cs.count replacement ≤ marks (cs.flatMap tokenizer.symbolBytes) := by
  induction cs with
  | nil => exact Nat.le_refl _
  | cons c cs ih =>
    rw [List.flatMap_cons, List.count_cons]
    have hrest := marks_le_append (tokenizer.symbolBytes c) (cs.flatMap tokenizer.symbolBytes)
    split
    · next hc =>
      have hreplacement : ¬ Misread replacement := by decide
      rw [beq_iff_eq.mp hc, symbolBytes_of_not_misread hdecoder hreplacement]
      have hone := marks_replacement (cs.flatMap tokenizer.symbolBytes)
      omega
    · omega

/-- A text with a symbol in it is not what the bytes of its symbols decode to. -/
theorem lossy_ne_of_misread {cs : List Char} {c : Char} (hmem : c ∈ cs) (hc : Misread c) :
    lossy (cs.flatMap tokenizer.symbolBytes) ≠ cs := by
  have hle : ∀ c, (tokenizer.symbolBytes c).length ≤ (String.utf8EncodeChar c).length := by
    intro c
    by_cases h : Misread c
    · rw [length_symbolBytes_misread hdecoder h, length_utf8EncodeChar_misread h]
      decide
    · rw [symbolBytes_of_not_misread hdecoder h]
  refine lossy_ne (count_le_marks hdecoder cs) ?_
  obtain ⟨before, after, rfl⟩ := List.append_of_mem hmem
  have hsum : ∀ cs : List Char, (cs.flatMap tokenizer.symbolBytes).length ≤ (encode cs).length := by
    intro cs
    unfold encode
    induction cs with
    | nil => exact Nat.le_refl _
    | cons c cs ih =>
      have hchar := hle c
      rw [List.flatMap_cons, List.flatMap_cons, List.length_append, List.length_append]
      omega
  have hbefore := hsum before
  have hafter := hsum after
  unfold encode at hbefore hafter ⊢
  rw [List.flatMap_append, List.flatMap_append, List.flatMap_cons, List.flatMap_cons]
  simp only [List.length_append, length_symbolBytes_misread hdecoder hc, length_utf8EncodeChar_misread hc]
  omega

end decoding

/-! ## A loaded tokenizer -/

/-- Ids tell the entries apart. -/
def TokenizerFile.DistinctIds (file : TokenizerFile) : Prop := ∀ e ∈ file.entries, ∀ e' ∈ file.entries, e.2 = e'.2 → e.1 = e'.1

/-- The vocabulary has every merge. -/
def TokenizerFile.MergesKnown (file : TokenizerFile) : Prop :=
  ∀ entry ∈ file.model.merges, ∀ sides, entry.sides = some sides → sides.1 ++ sides.2 ∈ file.model.vocab.map (·.1)

/-- The vocabulary has every byte and every merge, ids tell the entries apart, and no special piece is empty. -/
structure TokenizerFile.Complete (file : TokenizerFile) : Prop where
  symbols : ∀ b : UInt8, String.singleton (byteSymbol b) ∈ file.model.vocab.map (·.1)
  merged : ∀ entry ∈ file.model.merges, ∀ sides, entry.sides = some sides →
    sides.1 ++ sides.2 ∈ file.model.vocab.map (·.1)
  ids : ∀ e ∈ file.entries, ∀ e' ∈ file.entries, e.2 = e'.2 → e.1 = e'.1
  nonempty : ∀ e ∈ file.pieces, e.1 ≠ ""

section loading

variable {file : TokenizerFile} {tokenizer : BpeTokenizer}

/-- What loading makes of a file, of the fields that the text depends on. -/
structure Loads (file : TokenizerFile) (tokenizer : BpeTokenizer) : Prop where
  kind : tokenizer.kind = detectKind file
  tokenToId : tokenizer.tokenToId = file.model.vocab.insertAll (·.content) (·.id) file.addedTokens
  idToToken : ∃ tokens, tokenizer.idToToken = file.entries.foldl setToken tokens
  merges : tokenizer.merges = file.mergeTable
  specialPieces : tokenizer.specialPieces =
    file.pieces.mergeSort fun a b => decide (b.1.utf8ByteSize ≤ a.1.utf8ByteSize)
  byteDecoder : tokenizer.byteDecoder = if detectKind file = .byteLevel then gpt2UnicodeToBytes else []

theorem loads_of_fromFile (h : BpeTokenizer.fromFile file = .ok tokenizer) : Loads file tokenizer := by
  unfold BpeTokenizer.fromFile at h
  simp only at h
  split at h
  · cases h
  · cases h
    exact ⟨rfl, rfl, ⟨_, rfl⟩, rfl, rfl, rfl⟩

theorem loads_of_fromBytes {parse : List UInt8 → Except String TokenizerFile} {bytes : List UInt8}
    (hparse : parse bytes = .ok file) (hload : BpeTokenizer.fromBytes parse bytes = .ok tokenizer) :
    Loads file tokenizer := by
  unfold BpeTokenizer.fromBytes at hload
  rw [hparse] at hload
  exact loads_of_fromFile hload

theorem Loads.decoder (h : Loads file tokenizer) (hkind : tokenizer.kind = .byteLevel) :
    tokenizer.byteDecoder = gpt2UnicodeToBytes := by
  rw [h.byteDecoder, if_pos (h.kind.symm.trans hkind)]

theorem getElem?_setToken (tokens : List String) (e : String × Nat) : (setToken tokens e)[e.2]? = some e.1 := by
  unfold setToken
  split
  · next h =>
    rw [List.getElem?_set_self]
    simp only [List.length_append, List.length_replicate]
    omega
  · next h =>
    rw [List.getElem?_set_self]
    omega

theorem getElem?_setToken_of_ne {tokens : List String} {e : String × Nat} {i : Nat} {t : String} (hi : i ≠ e.2)
    (h : tokens[i]? = some t) : (setToken tokens e)[i]? = some t := by
  unfold setToken
  split
  · rw [List.getElem?_set_ne (Ne.symm hi), List.getElem?_append_left (List.getElem?_eq_some_iff.mp h).1, h]
  · rw [List.getElem?_set_ne (Ne.symm hi), h]

/-- An id has the text that all its entries agree on. -/
theorem getElem?_foldl_setToken {es : List (String × Nat)} {id : Nat} {t : String}
    (hall : ∀ e ∈ es, e.2 = id → e.1 = t) (tokens : List String)
    (hset : tokens[id]? = some t ∨ ∃ e ∈ es, e.2 = id) : (es.foldl setToken tokens)[id]? = some t := by
  induction es generalizing tokens with
  | nil =>
    rcases hset with hset | ⟨e, he, -⟩
    · exact hset
    · cases he
  | cons e es ih =>
    rw [List.forall_mem_cons] at hall
    refine ih hall.2 _ ?_
    by_cases he : e.2 = id
    · exact .inl (by rw [← he, getElem?_setToken, hall.1 he])
    · rcases hset with hset | ⟨e', he', hid⟩
      · exact .inl (getElem?_setToken_of_ne (Ne.symm he) hset)
      · rcases List.mem_cons.mp he' with rfl | he'
        · exact absurd hid he
        · exact .inr ⟨e', he', hid⟩

theorem tokenText_of_mem (h : Loads file tokenizer) (hids : file.DistinctIds) {e : String × Nat}
    (he : e ∈ file.entries) : tokenizer.tokenText e.2 = e.1 := by
  obtain ⟨tokens, htokens⟩ := h.idToToken
  have hget := getElem?_foldl_setToken (fun e' he' hid => hids e' he' e he hid) tokens (.inr ⟨e, he, rfl⟩)
  rw [BpeTokenizer.tokenText, htokens, hget, Option.getD_some]

/-- The id of a piece has its text. -/
theorem tokenText_of_pieceId (h : Loads file tokenizer) (hids : file.DistinctIds) {piece : String} {id : Nat}
    (hid : tokenizer.pieceId piece = some id) : tokenizer.tokenText id = piece := by
  have hmem : (piece, id) ∈ file.entries := by
    unfold BpeTokenizer.pieceId at hid
    unfold TokenizerFile.entries
    rw [h.tokenToId] at hid
    obtain ⟨-, hget⟩ | ⟨before, token, after, htokens, hcontent, -, hget⟩ := AssocMap.get_insertAll_cases
      file.model.vocab AddedToken.content AddedToken.id file.addedTokens piece
    · exact List.mem_append_left _ (AssocMap.mem_of_get (hget.symm.trans hid))
    · rw [hget, Option.some_inj] at hid
      refine List.mem_append_right _ (List.mem_map.mpr ⟨token, ?_, ?_⟩)
      · rw [htokens]
        simp
      · rw [hcontent, hid]
  exact tokenText_of_mem h hids hmem

theorem pieceId_of_mem (h : Loads file tokenizer) {piece : String} (hpiece : piece ∈ file.model.vocab.map (·.1)) :
    (tokenizer.pieceId piece).isSome := by
  unfold BpeTokenizer.pieceId
  rw [h.tokenToId]
  obtain ⟨-, hget⟩ | ⟨before, token, after, -, -, -, hget⟩ := AssocMap.get_insertAll_cases
    file.model.vocab AddedToken.content AddedToken.id file.addedTokens piece
  · rw [hget]
    obtain ⟨e, he, rfl⟩ := List.mem_map.mp hpiece
    exact AssocMap.get_isSome_of_mem he
  · rw [hget]
    rfl

/-- The texts of the ids that pieces get. -/
theorem tokenText_ids (h : Loads file tokenizer) (hids : file.DistinctIds) {p : String}
    (hknown : (tokenizer.pieceId p).isSome) :
    tokenizer.tokenText (((tokenizer.pieceId p).or (tokenizer.pieceId "<unk>")).getD 0) = p := by
  obtain ⟨id, hid⟩ := Option.isSome_iff_exists.mp hknown
  rw [hid, Option.some_or, Option.getD_some, tokenText_of_pieceId h hids hid]

/-! ## Merges -/

theorem bestMerge_spec {pieces : List String} {i : Nat} (hbest : (tokenizer.bestMerge pieces).2 = some i) :
    i + 1 < pieces.length ∧ ∃ rank, tokenizer.merges.get (pieces.getD i "", pieces.getD (i + 1) "") = some rank := by
  have hfold : ∀ i, (tokenizer.bestMerge pieces).2 = some i → i ∈ List.range (pieces.length - 1) ∧
      ∃ rank, tokenizer.merges.get (pieces.getD i "", pieces.getD (i + 1) "") = some rank := by
    unfold BpeTokenizer.bestMerge
    refine List.foldlRecOn (motive := fun best : Nat × Option Nat => ∀ i, best.2 = some i →
      i ∈ List.range (pieces.length - 1) ∧
        ∃ rank, tokenizer.merges.get (pieces.getD i "", pieces.getD (i + 1) "") = some rank) _ _ nofun
      fun best ih j hj => ?_
    intro i hi
    unfold BpeTokenizer.bestStep at hi
    split at hi
    · next rank hrank =>
      split at hi
      · cases hi
        exact ⟨hj, rank, hrank⟩
      · exact ih i hi
    · exact ih i hi
  obtain ⟨hi, hrank⟩ := hfold i hbest
  rw [List.mem_range] at hi
  exact ⟨by omega, hrank⟩

/-- A merge puts two neighbours together. -/
theorem exists_of_getD {pieces : List String} {i : Nat} (hi : i + 1 < pieces.length) :
    pieces = pieces.take i ++ pieces.getD i "" :: pieces.getD (i + 1) "" :: pieces.drop (i + 2) := by
  have hget : ∀ j (hj : j < pieces.length), pieces.getD j "" = pieces[j] := by
    intro j hj
    rw [List.getD_eq_getElem?_getD, List.getElem?_eq_getElem hj, Option.getD_some]
  have hlt : i < pieces.length := by omega
  rw [hget i hlt, hget (i + 1) hi, ← List.drop_eq_getElem_cons hi, ← List.drop_eq_getElem_cons hlt,
    List.take_append_drop]

/-- What has a rank is a merge of the file. -/
theorem exists_merge (h : Loads file tokenizer) {a b : String} {rank : Nat}
    (hrank : tokenizer.merges.get (a, b) = some rank) : ∃ entry ∈ file.model.merges, entry.sides = some (a, b) := by
  rw [h.merges, TokenizerFile.mergeTable] at hrank
  obtain ⟨-, hget⟩ | ⟨before, pair, after, hpairs, hkey, -, -⟩ := AssocMap.get_insertAll_cases []
    Prod.fst Prod.snd (file.model.merges.zipIdx.filterMap fun entry =>
      entry.1.sides.map fun sides => (sides, entry.2 % 2 ^ 32)) (a, b)
  · rw [hget] at hrank
    cases hrank
  · have hpair : pair ∈ file.model.merges.zipIdx.filterMap fun entry =>
        entry.1.sides.map fun sides => (sides, entry.2 % 2 ^ 32) := by
      rw [hpairs]
      simp
    obtain ⟨entry, hentry, hsides⟩ := List.mem_filterMap.mp hpair
    obtain ⟨sides, hentrysides, rfl⟩ := Option.map_eq_some_iff.mp hsides
    cases hkey
    exact ⟨entry.1, List.fst_mem_of_mem_zipIdx hentry, hentrysides⟩

theorem pieceId_merged (h : Loads file tokenizer) (hmerges : file.MergesKnown) {a b : String} {rank : Nat}
    (hrank : tokenizer.merges.get (a, b) = some rank) : (tokenizer.pieceId (a ++ b)).isSome := by
  obtain ⟨entry, hentry, hsides⟩ := exists_merge h hrank
  exact pieceId_of_mem h (hmerges entry hentry (a, b) hsides)

/-- What holds of the pieces and of every merge holds of the merged pieces. -/
theorem mergeLoop_forall {p : String → Prop} (hmerge : ∀ a b rank, tokenizer.merges.get (a, b) = some rank → p (a ++ b))
    (n : Nat) {pieces : List String} (hall : ∀ x ∈ pieces, p x) : ∀ x ∈ tokenizer.mergeLoop n pieces, p x := by
  induction n generalizing pieces with
  | zero => exact hall
  | succ n ih =>
    rw [BpeTokenizer.mergeLoop]
    split
    · exact hall
    · next i hbest =>
      obtain ⟨-, rank, hrank⟩ := bestMerge_spec hbest
      refine ih fun x hx => ?_
      rcases List.mem_append.mp hx with hx | hx
      · exact hall x (List.mem_of_mem_take hx)
      · rcases List.mem_cons.mp hx with rfl | hx
        · exact hmerge _ _ rank hrank
        · exact hall x (List.mem_of_mem_drop hx)

/-- What every merge reads as its two sides is read of the merged pieces as before. -/
theorem mergeLoop_flatMap {β : Type} {f : String → List β}
    (hmerge : ∀ a b rank, tokenizer.merges.get (a, b) = some rank → f (a ++ b) = f a ++ f b) (n : Nat)
    (pieces : List String) : (tokenizer.mergeLoop n pieces).flatMap f = pieces.flatMap f := by
  induction n generalizing pieces with
  | zero => rfl
  | succ n ih =>
    rw [BpeTokenizer.mergeLoop]
    split
    · rfl
    · next i hbest =>
      obtain ⟨hi, rank, hrank⟩ := bestMerge_spec hbest
      rw [ih]
      conv_rhs => rw [exists_of_getD hi]
      rw [List.flatMap_append, List.flatMap_append, List.flatMap_cons, List.flatMap_cons, List.flatMap_cons,
        hmerge _ _ rank hrank, List.append_assoc]

theorem bpeMerge_forall {p : String → Prop} (hmerge : ∀ a b rank, tokenizer.merges.get (a, b) = some rank → p (a ++ b))
    {pieces : List String} (hall : ∀ x ∈ pieces, p x) : ∀ x ∈ tokenizer.bpeMerge pieces, p x := by
  unfold BpeTokenizer.bpeMerge
  split
  · exact hall
  · exact mergeLoop_forall hmerge _ hall

theorem bpeMerge_flatMap {β : Type} {f : String → List β}
    (hmerge : ∀ a b rank, tokenizer.merges.get (a, b) = some rank → f (a ++ b) = f a ++ f b) (pieces : List String) :
    (tokenizer.bpeMerge pieces).flatMap f = pieces.flatMap f := by
  unfold BpeTokenizer.bpeMerge
  split
  · rfl
  · exact mergeLoop_flatMap hmerge _ pieces

/-! ## Ordinary text -/

/-- The bytes that ids stand for. -/
def BpeTokenizer.bytes (tokenizer : BpeTokenizer) (ids : List Nat) : List UInt8 :=
  (tokenizer.symbols ids false).flatMap tokenizer.symbolBytes

theorem symbols_false (ids : List Nat) :
    tokenizer.symbols ids false = ids.flatMap fun id => (tokenizer.tokenText id).toList := by
  unfold BpeTokenizer.symbols
  refine List.flatMap_congr fun id _ => ?_
  simp only [Bool.false_and, Bool.false_eq_true, if_false]
  split
  · next h => simp [String.isEmpty_iff.mp h]
  · simp

theorem bytes_append (ids ids' : List Nat) : tokenizer.bytes (ids ++ ids') = tokenizer.bytes ids ++ tokenizer.bytes ids' := by
  unfold BpeTokenizer.bytes
  rw [symbols_false, symbols_false, symbols_false, List.flatMap_append, List.flatMap_append]

theorem bytes_cons (id : Nat) (ids : List Nat) : tokenizer.bytes (id :: ids) =
    (tokenizer.tokenText id).toList.flatMap tokenizer.symbolBytes ++ tokenizer.bytes ids := by
  unfold BpeTokenizer.bytes
  rw [symbols_false, symbols_false, List.flatMap_cons, List.flatMap_append]

/-- The ids of an ordinary span stand for its bytes. -/
theorem bytes_encodeOrdinary (h : Loads file tokenizer) (hcomplete : file.Complete) (hkind : tokenizer.kind = .byteLevel)
    (text : List Char) : tokenizer.bytes (tokenizer.encodeOrdinary text) = encode text := by
  have hdecoder := h.decoder hkind
  unfold BpeTokenizer.encodeOrdinary
  split
  · next hempty =>
    rw [List.isEmpty_iff.mp hempty]
    rfl
  simp only [hkind]
  have hinitial : ∀ p ∈ BpeTokenizer.initialPiecesByteLevel text, (tokenizer.pieceId p).isSome := by
    intro p hp
    obtain ⟨b, -, rfl⟩ := List.mem_map.mp hp
    exact pieceId_of_mem h (hcomplete.symbols b)
  have hknown := bpeMerge_forall (p := fun p => (tokenizer.pieceId p).isSome)
    (fun a b rank => pieceId_merged h hcomplete.merged) hinitial
  have htokens : ∀ p ∈ tokenizer.bpeMerge (BpeTokenizer.initialPiecesByteLevel text),
      tokenizer.tokenText (((tokenizer.pieceId p).or (tokenizer.pieceId "<unk>")).getD 0) = p :=
    fun p hp => tokenText_ids h hcomplete.ids (hknown p hp)
  have htext := @bpeMerge_flatMap tokenizer Char String.toList (fun _ _ _ _ => String.toList_append)
    (BpeTokenizer.initialPiecesByteLevel text)
  have hsymbols : (BpeTokenizer.initialPiecesByteLevel text).flatMap String.toList = (encode text).map byteSymbol := by
    unfold BpeTokenizer.initialPiecesByteLevel
    induction encode text with
    | nil => rfl
    | cons b bytes ih => simpa using ih
  unfold BpeTokenizer.bytes
  rw [symbols_false, List.flatMap_map, List.flatMap_congr fun p hp => congrArg String.toList (htokens p hp), htext,
    hsymbols, List.flatMap_map]
  have hbytes : (encode text).flatMap (fun b => tokenizer.symbolBytes (byteSymbol b)) = (encode text).flatMap fun b => [b] :=
    List.flatMap_congr fun b _ => symbolBytes_byteSymbol hdecoder b
  rw [hbytes, List.flatMap_singleton']

/-! ## Special pieces -/

/-- The special piece that is found is one of the list. -/
theorem specialAt_mem {rest : List Char} {pieces : List (String × Nat)} {pos : Nat} {e : String × Nat}
    (h : BpeTokenizer.specialAt rest pieces = some (pos, e)) : e ∈ pieces ∧ Text.find e.1.toList rest = some pos := by
  have hfold : ∀ pos e, BpeTokenizer.specialAt rest pieces = some (pos, e) →
      e ∈ pieces ∧ Text.find e.1.toList rest = some pos := by
    unfold BpeTokenizer.specialAt
    refine List.foldlRecOn (motive := fun best => ∀ pos e, best = some (pos, e) →
      e ∈ pieces ∧ Text.find e.1.toList rest = some pos) _ _ nofun fun best ih e' he' => ?_
    intro pos e hfound
    unfold BpeTokenizer.specialStep at hfound
    split at hfound
    · next pos' hfind =>
      split at hfound
      · cases hfound
        exact ⟨he', hfind⟩
      · exact ih pos e hfound
    · exact ih pos e hfound
  exact hfold pos e h

/-- A piece at the start of a text is kept to the end of the list. -/
theorem specialStep_start (rest : List Char) (pieces : List (String × Nat)) (e : String × Nat) :
    pieces.foldl (BpeTokenizer.specialStep rest) (some (0, e)) = some (0, e) := by
  induction pieces with
  | nil => rfl
  | cons e' pieces ih =>
    have hstep : BpeTokenizer.specialStep rest (some (0, e)) e' = some (0, e) := by
      unfold BpeTokenizer.specialStep
      split <;> simp
    rw [List.foldl_cons, hstep, ih]

/-- A piece that starts a text and is no shorter is the whole of it. -/
theorem eq_of_find_start {piece text : String} (h : Text.find piece.toList text.toList = some 0)
    (hsize : text.utf8ByteSize ≤ piece.utf8ByteSize) : piece = text := by
  obtain ⟨before, after, htext, hbefore⟩ := Text.find_some h
  cases List.length_eq_zero_iff.mp hbefore
  have hstring : text = piece ++ String.ofList after := by
    rw [← String.toList_inj, String.toList_append, String.toList_ofList, htext, List.nil_append]
  rw [hstring, String.utf8ByteSize_append] at hsize
  have hempty : String.ofList after = "" := String.utf8ByteSize_eq_zero_iff.mp (by omega)
  rw [hstring, hempty, String.append_empty]

/-- A text that is a special piece is found as a whole. -/
theorem specialAt_self {pieces : List (String × Nat)} {e : String × Nat} (he : e ∈ pieces)
    (hsorted : pieces.Pairwise fun a b => b.1.utf8ByteSize ≤ a.1.utf8ByteSize) :
    ∃ e' ∈ pieces, e'.1 = e.1 ∧ BpeTokenizer.specialAt e.1.toList pieces = some (0, e') := by
  have hfold : ∀ best : Option (Nat × String × Nat), (∀ found, best = some found → 0 < found.1) →
      ∃ e' ∈ pieces, e'.1 = e.1 ∧ pieces.foldl (BpeTokenizer.specialStep e.1.toList) best = some (0, e') := by
    induction pieces with
    | nil => cases he
    | cons e' pieces ih =>
      rw [List.pairwise_cons] at hsorted
      intro best hbest
      rw [List.foldl_cons]
      by_cases hstart : Text.find e'.1.toList e.1.toList = some 0
      · have hfirst : BpeTokenizer.specialStep e.1.toList best e' = some (0, e') := by
          have hbefore : (best.all fun found => decide (0 < found.1)) = true := by
            cases best with
            | none => rfl
            | some found => exact decide_eq_true (hbest found rfl)
          simp only [BpeTokenizer.specialStep, hstart, hbefore, if_true]
        refine ⟨e', List.mem_cons_self, eq_of_find_start hstart ?_, ?_⟩
        · rcases List.mem_cons.mp he with rfl | hmem
          · exact Nat.le_refl _
          · exact hsorted.1 e hmem
        · rw [hfirst, specialStep_start]
      · have hmem : e ∈ pieces := by
          rcases List.mem_cons.mp he with rfl | hmem
          · exact absurd (Text.find_self _) hstart
          · exact hmem
        obtain ⟨e'', hmem'', hsame, hfound⟩ := ih hmem hsorted.2
          (BpeTokenizer.specialStep e.1.toList best e') fun found hfound => by
            unfold BpeTokenizer.specialStep at hfound
            split at hfound
            · next pos hfind =>
              split at hfound
              · cases hfound
                exact Nat.pos_of_ne_zero fun hzero => hstart (hzero ▸ hfind)
              · exact hbest found hfound
            · exact hbest found hfound
        exact ⟨e'', List.mem_cons_of_mem _ hmem'', hsame, hfound⟩
  exact hfold none nofun

/-! ## A text and back -/

theorem mem_specialPieces (h : Loads file tokenizer) {e : String × Nat} :
    e ∈ tokenizer.specialPieces ↔ e ∈ file.pieces := by
  rw [h.specialPieces, List.mem_mergeSort]

theorem tokenText_special (h : Loads file tokenizer) (hids : file.DistinctIds) {e : String × Nat}
    (he : e ∈ file.pieces) : tokenizer.tokenText e.2 = e.1 := by
  obtain ⟨token, htoken, rfl⟩ := List.mem_map.mp he
  exact tokenText_of_mem h hids
    (List.mem_append_right _ (List.mem_map_of_mem (List.mem_of_mem_filter htoken)))

/-- Encoding returns; and the ids stand for the bytes of the text, where no special piece is misread. -/
theorem encodeLoop_spec (h : Loads file tokenizer) (hcomplete : file.Complete) (hkind : tokenizer.kind = .byteLevel)
    (hplain : ∀ e ∈ file.pieces, ∀ c ∈ e.1.toList, ¬ Misread c) {n : Nat} {rest : List Char} (hn : rest.length ≤ n) :
    ∃ ids, tokenizer.encodeLoop n rest = some ids ∧ tokenizer.bytes ids = encode rest := by
  have hdecoder := h.decoder hkind
  induction n generalizing rest with
  | zero =>
    cases List.length_eq_zero_iff.mp (Nat.le_zero.mp hn)
    exact ⟨[], by rw [BpeTokenizer.encodeLoop], rfl⟩
  | succ n ih =>
    cases rest with
    | nil => exact ⟨[], by rw [BpeTokenizer.encodeLoop], rfl⟩
    | cons c rest =>
      rw [BpeTokenizer.encodeLoop]
      split
      · exact ⟨_, rfl, bytes_encodeOrdinary h hcomplete hkind _⟩
      · next pos piece id hspecial =>
        obtain ⟨hmem, hfind⟩ := specialAt_mem hspecial
        rw [mem_specialPieces h] at hmem
        obtain ⟨before, after, htext, rfl⟩ := Text.find_some hfind
        have hpiece : 0 < piece.toList.length := by
          refine List.length_pos_iff.mpr fun hempty => hcomplete.nonempty _ hmem ?_
          rw [← String.toList_inj, hempty]
          rfl
        have hafter : (c :: rest).drop (before.length + piece.toList.length) = after := by
          rw [htext, ← List.length_append, List.drop_left]
        have hshort : after.length ≤ n := by
          have hlength := congrArg List.length htext
          simp only [List.length_append] at hlength
          omega
        obtain ⟨ids, hids, hbytes⟩ := ih hshort
        have hbefore : tokenizer.bytes (if before.length > 0 then
            tokenizer.encodeOrdinary ((c :: rest).take before.length) else []) = encode before := by
          split
          · rw [bytes_encodeOrdinary h hcomplete hkind, htext, List.append_assoc, List.take_left]
          · next hzero =>
            cases List.length_eq_zero_iff.mp (Nat.eq_zero_of_not_pos hzero)
            rfl
        rw [hafter, hids]
        refine ⟨_, rfl, ?_⟩
        rw [bytes_append, bytes_cons, hbefore, hbytes, tokenText_special h hcomplete.ids hmem,
          flatMap_symbolBytes hdecoder (hplain _ hmem), htext]
        simp [encode]

/-- A special piece is one id. -/
theorem encodeLoop_special (h : Loads file tokenizer) {e : String × Nat} (he : e ∈ file.pieces) (hne : e.1 ≠ "") :
    ∃ id, tokenizer.encodeLoop e.1.toList.length e.1.toList = some [id] ∧ (e.1, id) ∈ file.pieces := by
  have hsorted : tokenizer.specialPieces.Pairwise fun a b => b.1.utf8ByteSize ≤ a.1.utf8ByteSize := by
    rw [h.specialPieces]
    refine (List.pairwise_mergeSort (fun a b c hab hbc => ?_) (fun a b => ?_) _).imp fun h => of_decide_eq_true h
    · exact decide_eq_true ((of_decide_eq_true hbc).trans (of_decide_eq_true hab))
    · simpa using Nat.le_total _ _
  obtain ⟨⟨content, id⟩, hmem, hsame, hspecial⟩ := specialAt_self ((mem_specialPieces h).mpr he) hsorted
  cases hsame
  refine ⟨id, ?_, (mem_specialPieces h).mp hmem⟩
  cases htext : e.1.toList with
  | nil =>
    refine absurd ?_ hne
    rw [← String.toList_inj, htext]
    rfl
  | cons c rest =>
    rw [htext] at hspecial
    rw [List.length_cons, BpeTokenizer.encodeLoop, hspecial]
    simp [htext, BpeTokenizer.encodeLoop]

theorem encode_eq (text : String) :
    tokenizer.encode text false = tokenizer.encodeLoop text.toList.length text.toList := by
  unfold BpeTokenizer.encode
  cases tokenizer.encodeLoop text.toList.length text.toList <;> rfl

theorem decode_eq (hkind : tokenizer.kind = .byteLevel) (ids : List Nat) :
    tokenizer.decode ids false = String.ofList (lossy (tokenizer.bytes ids)) := by
  rw [BpeTokenizer.decode, hkind]
  rfl

/-- A special piece with a symbol in it does not come back. -/
theorem exists_lost (h : Loads file tokenizer) (hcomplete : file.Complete) (hkind : tokenizer.kind = .byteLevel)
    {e : String × Nat} (he : e ∈ file.pieces) {c : Char} (hc : c ∈ e.1.toList) (hmisread : Misread c) :
    ∃ ids, tokenizer.encode e.1 false = some ids ∧ tokenizer.decode ids false ≠ e.1 := by
  have hdecoder := h.decoder hkind
  obtain ⟨id, hid, hmem⟩ := encodeLoop_special h he (hcomplete.nonempty e he)
  have hbytes : tokenizer.bytes [id] = e.1.toList.flatMap tokenizer.symbolBytes := by
    rw [bytes_cons, tokenText_special h hcomplete.ids hmem]
    exact List.append_nil _
  refine ⟨[id], (encode_eq e.1).trans hid, fun htext => ?_⟩
  rw [decode_eq hkind, hbytes, ← String.toList_inj, String.toList_ofList] at htext
  exact lossy_ne_of_misread hdecoder hc hmisread htext

/-- **Losslessness.** Every text comes back just when no special piece has a symbol in it. -/
theorem lossless_iff {parse : List UInt8 → Except String TokenizerFile} {bytes : List UInt8}
    (hparse : parse bytes = .ok file) (hload : BpeTokenizer.fromBytes parse bytes = .ok tokenizer)
    (hkind : tokenizer.kind = .byteLevel) (hcomplete : file.Complete) :
    (∀ text : String, ∃ ids, tokenizer.encode text false = some ids ∧ tokenizer.decode ids false = text) ↔
      ∀ e ∈ file.pieces, ∀ c ∈ e.1.toList, ¬ Misread c := by
  have h := loads_of_fromBytes hparse hload
  constructor
  · intro hlossless e he c hc hmisread
    obtain ⟨ids, hids, hlost⟩ := exists_lost h hcomplete hkind he hc hmisread
    obtain ⟨ids', hids', htext⟩ := hlossless e.1
    rw [hids, Option.some_inj] at hids'
    exact hlost (hids' ▸ htext)
  · intro hplain text
    obtain ⟨ids, hids, hbytes⟩ := encodeLoop_spec h hcomplete hkind hplain (Nat.le_refl text.toList.length)
    refine ⟨ids, (encode_eq text).trans hids, ?_⟩
    rw [decode_eq hkind, hbytes, lossy_encode, String.ofList_toList]

end loading

section small

theorem byteSymbol_ofNat_inj {n m : Nat} (hn : n < 256) (hm : m < 256)
    (h : String.singleton (byteSymbol (UInt8.ofNat n)) = String.singleton (byteSymbol (UInt8.ofNat m))) : n = m := by
  have hsymbol : byteSymbol (UInt8.ofNat n) = byteSymbol (UInt8.ofNat m) := by
    simpa using congrArg String.toList h
  have hbyte := gpt2UnicodeToBytes_byteSymbol (UInt8.ofNat n)
  rw [hsymbol, gpt2UnicodeToBytes_byteSymbol, Option.some.injEq] at hbyte
  have hnat := congrArg UInt8.toNat hbyte
  rw [UInt8.toNat_ofNat_of_lt' hn, UInt8.toNat_ofNat_of_lt' hm] at hnat
  exact hnat.symm

theorem nodup_byteSymbols :
    (((List.range 256).map fun n => (String.singleton (byteSymbol (UInt8.ofNat n)), n)).map (·.1)).Nodup := by
  rw [List.map_map]
  refine List.Nodup.map_on (fun n hn m hm h => ?_) List.nodup_range
  exact byteSymbol_ofNat_inj (List.mem_range.mp hn) (List.mem_range.mp hm) h

/-- A vocabulary of the bytes alone, with one special piece. -/
def byteFile (content : String) : TokenizerFile where
  addedTokens := [⟨256, content, true⟩]
  decoder := some (.object [("type", .string "ByteLevel")])
  model :=
    { vocab := (List.range 256).map fun n => (String.singleton (byteSymbol (UInt8.ofNat n)), n)
      merges := []
      vocabKeys := nodup_byteSymbols }

theorem complete_byteFile {content : String} (h : content ≠ "") : (byteFile content).Complete := by
  constructor
  case symbols =>
    intro b
    simp only [byteFile, List.map_map, List.mem_map, List.mem_range]
    exact ⟨b.toNat, b.toNat_lt, by simp⟩
  case merged => exact fun entry hentry => absurd hentry List.not_mem_nil
  case ids =>
    intro e he e' he' hid
    simp only [TokenizerFile.entries, byteFile, List.mem_append, List.mem_map, List.mem_range, List.mem_singleton,
      List.map_singleton] at he he'
    rcases he with ⟨n, hn, rfl⟩ | rfl
    · rcases he' with ⟨m, hm, rfl⟩ | rfl
      · cases hid
        rfl
      · exact absurd hid (Nat.ne_of_lt hn)
    · rcases he' with ⟨m, hm, rfl⟩ | rfl
      · exact absurd hid (Nat.ne_of_gt hm)
      · rfl
  case nonempty =>
    intro e he
    cases List.mem_singleton.mp he
    exact h

theorem exists_byteFile (content : String) : ∃ tokenizer,
    BpeTokenizer.fromBytes (fun _ => .ok (byteFile content)) [] = .ok tokenizer ∧ tokenizer.kind = .byteLevel := by
  have hvocab : ¬ (byteFile content).model.vocab.isEmpty = true := by simp [byteFile]
  have hkind : detectKind (byteFile content) = .byteLevel := by
    unfold detectKind
    exact if_pos rfl
  unfold BpeTokenizer.fromBytes BpeTokenizer.fromFile
  simp only
  rw [if_neg hvocab]
  exact ⟨_, rfl, hkind⟩

theorem lossless_iff_end : ∃ tokenizer,
    BpeTokenizer.fromBytes (fun _ => .ok (byteFile "<|end|>")) [] = .ok tokenizer ∧
      ∀ text : String, ∃ ids, tokenizer.encode text false = some ids ∧ tokenizer.decode ids false = text := by
  obtain ⟨tokenizer, hload, hkind⟩ := exists_byteFile "<|end|>"
  refine ⟨tokenizer, hload, (lossless_iff rfl hload hkind (complete_byteFile (by decide))).mpr ?_⟩
  intro e he
  cases List.mem_singleton.mp he
  exact not_misread_of_all (by decide)

/-- A special piece that is not ASCII. -/
theorem special_lost : ∃ tokenizer,
    BpeTokenizer.fromBytes (fun _ => .ok (byteFile "<|\u00e9|>")) [] = .ok tokenizer ∧ tokenizer.kind = .byteLevel ∧
      (byteFile "<|\u00e9|>").Complete ∧
      ∃ ids, tokenizer.encode "<|\u00e9|>" false = some ids ∧ tokenizer.decode ids false ≠ "<|\u00e9|>" := by
  obtain ⟨tokenizer, hload, hkind⟩ := exists_byteFile "<|\u00e9|>"
  have hcomplete : (byteFile "<|\u00e9|>").Complete := complete_byteFile (by decide)
  refine ⟨tokenizer, hload, hkind, hcomplete, ?_⟩
  exact exists_lost (loads_of_fromBytes rfl hload) hcomplete hkind
    (e := ("<|\u00e9|>", 256)) List.mem_cons_self (c := '\u00e9') (by decide) (by decide)

end small

end Dyninfer
