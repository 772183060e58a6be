/-
When a prompt and its separately decoded continuation are the decoded whole:
no character goes over the cut between their bytes, and, for a SentencePiece
text, the continuation starts with no white space, which decoding it alone
would take off.
-/
import Dyninfer.Runtime.Generate
import Dyninfer.Runtime.Spelling

namespace Dyninfer

open Effect Utf8

variable {F S : Type}

/-! ## Decoding over a cut -/

namespace BpeTokenizer

/-- The bytes of a byte-level text. -/
def shownBytes (tokenizer : BpeTokenizer) (ids : List Nat) : List UInt8 :=
  (tokenizer.symbols ids true).flatMap tokenizer.symbolBytes

/-- The continuation may be decoded apart from the prompt. -/
def CutApart (tokenizer : BpeTokenizer) (prompt : String) (promptIds continuation : List Nat) : Prop :=
  match tokenizer.kind with
  | .sentencePiece => prompt = "" ∨
      ¬ Continues (waiting [] (tokenizer.readings promptIds true)) (leading (tokenizer.readings continuation true)) ∧
        ∀ c ∈ (tokenizer.rawText continuation true).head?, isWhiteSpace c = false
  | .byteLevel => ¬ Continues (tokenizer.shownBytes promptIds) (tokenizer.shownBytes continuation)

end BpeTokenizer

theorem unmark_replacement : unmark replacement = replacement := by decide

/-- Trimming the whole against trimming the halves, where no character goes over the cut. -/
theorem trimStart_halves (cs more : List Char) : trimStart (cs ++ more) = trimStart cs ++ trimStart more ↔
    trimStart cs = [] ∨ ∀ c ∈ more.head?, BpeTokenizer.isWhiteSpace c = false := by
  rw [trimStart_append, ← trimStart_eq_self]
  split
  · next h => simp [h]
  · next h => simp [h, eq_comm]

theorem length_trimStart_append (cs more : List Char) :
    (trimStart (cs ++ more)).length ≤ (trimStart cs).length + more.length := by
  rw [trimStart_append]
  split
  · exact Nat.le_trans (List.dropWhile_sublist _).length_le (Nat.le_add_left _ _)
  · rw [List.length_append]

/-- A replacement character ends the white space in front of it. -/
theorem trimStart_replacement (cs : List Char) : trimStart (cs ++ [replacement]) = trimStart cs ++ [replacement] := by
  have hself : trimStart [replacement] = [replacement] := trimStart_eq_self.mpr (by simp [isWhiteSpace_replacement])
  have hhalves := (trimStart_halves cs [replacement]).mpr (.inr (by simp [isWhiteSpace_replacement]))
  rwa [hself] at hhalves

/-- The text of signs, with its marks as spaces. -/
def unmarked (signs : List Sign) : List Char := (spell signs).map unmark

theorem unmarked_cut_iff (signs more : List Sign) :
    trimStart (unmarked (signs ++ more)) = trimStart (unmarked signs) ++ trimStart (unmarked more) ↔
      trimStart (unmarked signs) = [] ∨ ¬ Continues (waiting [] signs) (leading more) ∧
        ∀ c ∈ (unmarked more).head?, BpeTokenizer.isWhiteSpace c = false := by
  have hsigns : unmarked signs = (settled [] signs).map unmark ++ (lossy (waiting [] signs)).map unmark := by
    rw [unmarked, spell, spellFrom_eq, List.map_append]
  have hmore : unmarked more = (lossy (leading more)).map unmark ++ unmarked (behind more) := by
    rw [unmarked, spell, spellFrom_leading, List.nil_append, List.map_append]
    rfl
  have hwhole : unmarked (signs ++ more) = (settled [] signs).map unmark ++
      ((lossy (waiting [] signs ++ leading more)).map unmark ++ unmarked (behind more)) := by
    rw [unmarked, spell_append, List.map_append, List.map_append, List.append_assoc]
    rfl
  rcases lossy_cut (waiting [] signs) (leading more) with ⟨hapart, heq⟩ | ⟨hover, hshort, common, hcommon, hbegin⟩
  · have hjoin : unmarked (signs ++ more) = unmarked signs ++ unmarked more := by
      rw [hwhole, hsigns, hmore, heq, List.map_append]
      simp
    rw [hjoin, trimStart_halves]
    simp [hapart]
  · -- the whole is shorter than the halves together
    refine iff_of_false (fun htrim => ?_) ?_
    · obtain ⟨tail, htail⟩ := hbegin
      obtain ⟨rest, hrest⟩ := hover.start
      have hstart : trimStart (unmarked more) = unmarked more := by
        rw [trimStart_eq_self, hmore, hrest]
        intro c hc
        rw [List.map_cons, unmark_replacement] at hc
        cases hc
        exact isWhiteSpace_replacement
      have hfirst : trimStart (unmarked signs) =
          trimStart ((settled [] signs).map unmark ++ common.map unmark) ++ [replacement] := by
        rw [hsigns, hcommon, List.map_append, List.map_singleton, unmark_replacement, ← List.append_assoc,
          trimStart_replacement]
      have hbound := length_trimStart_append ((settled [] signs).map unmark ++ common.map unmark)
        (tail.map unmark ++ unmarked (behind more))
      have hlength := congrArg List.length htrim
      rw [hwhole, ← htail, List.map_append, hstart, hfirst, hmore] at hlength
      rw [← htail, hcommon] at hshort
      simp only [List.length_append, List.length_map, List.length_singleton, List.append_assoc] at hlength hbound hshort
      omega
    · rintro (hempty | ⟨hapart, -⟩)
      · rw [hsigns, hcommon, List.map_append, List.map_singleton, unmark_replacement, ← List.append_assoc,
          trimStart_replacement] at hempty
        exact List.append_ne_nil_of_right_ne_nil _ (List.cons_ne_nil _ _) hempty
      · exact hapart hover

theorem shownBytes_append (tokenizer : BpeTokenizer) (ids more : List Nat) :
    tokenizer.shownBytes (ids ++ more) = tokenizer.shownBytes ids ++ tokenizer.shownBytes more := by
  unfold BpeTokenizer.shownBytes BpeTokenizer.symbols
  rw [List.flatMap_append, List.flatMap_append]

/-- Decoding a prompt and its continuation apart. -/
theorem decode_cut_iff (tokenizer : BpeTokenizer) {prompt : String} {ids : List Nat}
    (hback : tokenizer.decode ids true = prompt) (continuation : List Nat) :
    prompt ++ tokenizer.decode continuation true = tokenizer.decode (ids ++ continuation) true ↔
      tokenizer.CutApart prompt ids continuation := by
  unfold BpeTokenizer.decode at hback ⊢
  unfold BpeTokenizer.CutApart
  cases hkind : tokenizer.kind with
  | sentencePiece =>
    rw [hkind] at hback
    simp only at hback ⊢
    have hunmarked : ∀ ids, tokenizer.rawText ids true = unmarked (tokenizer.readings ids true) := fun _ => rfl
    have hprompt : prompt = "" ↔ trimStart (unmarked (tokenizer.readings ids true)) = [] := by
      rw [← hback, decodeSp_eq, hunmarked, ← String.toList_inj, String.toList_ofList]
      rfl
    have happend : tokenizer.readings (ids ++ continuation) true =
        tokenizer.readings ids true ++ tokenizer.readings continuation true := List.flatMap_append
    rw [hprompt, hunmarked, ← unmarked_cut_iff, ← happend, ← hback, decodeSp_eq, decodeSp_eq, decodeSp_eq,
      ← String.toList_inj, String.toList_append, String.toList_ofList, String.toList_ofList, String.toList_ofList]
    exact eq_comm
  | byteLevel =>
    rw [hkind] at hback
    simp only at hback ⊢
    have hdecode : ∀ ids, tokenizer.decodeByteLevel ids true = String.ofList (lossy (tokenizer.shownBytes ids)) :=
      fun _ => rfl
    rw [← hback, hdecode, hdecode, hdecode, shownBytes_append, ← String.toList_inj, String.toList_append,
      String.toList_ofList, String.toList_ofList, String.toList_ofList]
    rcases lossy_cut (tokenizer.shownBytes ids) (tokenizer.shownBytes continuation) with ⟨hapart, heq⟩ | ⟨hover, hshort, -⟩
    · exact iff_of_true heq.symm hapart
    · refine iff_of_false (fun h => ?_) (not_not.mpr hover)
      rw [← h, List.length_append] at hshort
      exact Nat.lt_irrefl _ hshort

/-! ## A run -/

section runs

variable {session : ModelSession F S} {stop : List TokenId} {ids : List TokenId}

/-- The ids are the prompt's and those that were generated. -/
def Progress.From (ids : List TokenId) (progress : Progress) : Prop := progress.ids = ids ++ progress.generated

theorem Progress.From.push {progress : Progress} (h : progress.From ids) (next : TokenId) : (progress.push next).From ids := by
  unfold Progress.From at h ⊢
  rw [Progress.push, h, List.append_assoc]

theorem argmaxLoop_from (n : Nat) (next : TokenId) {progress : Progress} (h : progress.From ids) :
    Triple (fun _ => True) (argmaxLoop session stop n next progress) (fun progress' _ => progress'.From ids)
      fun _ => True := by
  induction n generalizing next progress with
  | zero => exact Triple.pure fun _ _ => h
  | succ n ih =>
    unfold argmaxLoop
    split
    · exact Triple.pure fun _ _ => h
    · refine Triple.bind (Q := fun _ _ => True) (fun t _ => ?_) fun following => ih following (h.push next)
      cases (session.decodeArgmax next).run t <;> trivial

variable [PenaltyFloat F]

theorem logitsLoop_from (penalty : F) (n : Nat) (logits : List F) {progress : Progress} (h : progress.From ids) :
    Triple (fun _ => True) (logitsLoop session stop penalty n logits progress) (fun progress' _ => progress'.From ids)
      fun _ => True := by
  induction n generalizing logits progress with
  | zero => exact Triple.pure fun _ _ => h
  | succ n ih =>
    unfold logitsLoop
    simp only
    split
    · exact Triple.pure fun _ _ => h
    · refine Triple.bind (Q := fun _ _ => True) (fun t _ => ?_) fun following => ih following (h.push _)
      cases (session.decode _).run t <;> trivial

theorem generateTokens_from (config : GenerateConfig F) : Triple (fun _ => True)
    (generateTokens session stop config ids) (fun progress _ => progress.From ids) fun _ => True := by
  have hstart : (Progress.ofPrompt ids).From ids := (List.append_nil ids).symm
  unfold generateTokens
  split
  · refine Triple.bind (Q := fun _ _ => True) (fun t _ => ?_) fun next => argmaxLoop_from _ next hstart
    cases (session.prefillArgmax ids).run t <;> trivial
  · refine Triple.bind (Q := fun _ _ => True) (fun t _ => ?_) fun logits => logitsLoop_from _ _ logits hstart
    cases (session.prefill ids).run t <;> trivial

/-- What a run returns, from the tokens that it made. -/
theorem generateIds_ok {model : CausalLanguageModel F S} {tokenizer : BpeTokenizer} {prompt : String}
    {config : GenerateConfig F} {sessionCfg : SessionConfig} {output : GenerateOutput}
    (h : generateIds model tokenizer prompt config sessionCfg ids = .ok output) :
    ∃ generated, output.tokenIds = ids ++ generated ∧ output.text = prompt ++ tokenizer.decode (asIds generated) true := by
  unfold generateIds at h
  split at h
  · cases h
  split at h
  · cases h
  · next session start _ =>
    simp only at h
    have hrun : Triple (fun _ => True) (do
        let progress ← generateTokens session (stopTokens tokenizer config) config ids
        let cache ← session.kvCacheMetrics
        pure (generateOutput tokenizer prompt ids progress cache)) (fun output _ => ∃ generated,
          output.tokenIds = ids ++ generated ∧ output.text = prompt ++ tokenizer.decode (asIds generated) true)
        fun _ => True := by
      refine (generateTokens_from config).bind fun progress => Triple.of_forall fun t hfrom => ?_
      refine Triple.bind (Q := fun _ _ => True) (fun t _ => ?_) fun cache => Triple.pure fun _ _ => ⟨_, hfrom, rfl⟩
      cases session.kvCacheMetrics.run t <;> trivial
    have hstart := hrun start trivial
    revert h hstart
    cases (EStateM.run _ start) with
    | ok output' t =>
      intro h hstart
      cases h
      exact hstart
    | error e t =>
      intro h
      cases h

end runs

/-- **Generated text.** Without a chat template, where the prompt's tokens decode to it, the text of a run is the
decoding of all its tokens just when the continuation may be decoded apart. -/
theorem generated_text_iff [PenaltyFloat F] {model : CausalLanguageModel F S} {tokenizer : BpeTokenizer}
    {template : Option (String → Bool → Except String String)} {prompt : String} {config : GenerateConfig F}
    {sessionCfg : SessionConfig} {ids : List TokenId} {output : GenerateOutput}
    (hplain : modelPrompt tokenizer template prompt config.applyChatTemplate config.enableThinking = .ok prompt)
    (hids : promptIds tokenizer prompt config.applyChatTemplate = some ids)
    (hback : tokenizer.decode (asIds ids) true = prompt)
    (hrun : generateGreedy model tokenizer template prompt config sessionCfg = some (.ok output)) :
    ∃ generated, output.tokenIds = ids ++ generated ∧
      (output.text = tokenizer.decode (asIds output.tokenIds) true ↔
        tokenizer.CutApart prompt (asIds ids) (asIds generated)) := by
  unfold generateGreedy at hrun
  rw [hplain] at hrun
  simp only [hids, Option.map_some, Option.some_inj] at hrun
  obtain ⟨generated, htokens, htext⟩ := generateIds_ok hrun
  have hsplit : asIds output.tokenIds = asIds ids ++ asIds generated := by
    rw [htokens, asIds, List.map_append]
    rfl
  refine ⟨generated, htokens, ?_⟩
  rw [htext, hsplit]
  exact decode_cut_iff tokenizer hback (asIds generated)

section small

/-- Whole numbers as logits; one is the penalty that changes nothing. -/
instance : PenaltyFloat Nat where
  isNegative _ := false
  mul := (· * ·)
  div := (· / ·)
  isOff penalty := penalty == 1

/-- A vocabulary of a mark, two letters, and a word. -/
def wordFile : TokenizerFile where
  model :=
    { vocab := [("\u2581", 0), ("a", 1), ("b", 2), ("\u2581b", 3)]
      merges := []
      vocabKeys := by decide }

/-- The tokenizer that is loaded from it. -/
def wordTokenizer : BpeTokenizer where
  kind := .sentencePiece
  tokenToId := [("\u2581", 0), ("a", 1), ("b", 2), ("\u2581b", 3)]
  idToToken := ["\u2581", "a", "b", "\u2581b"]
  merges := []
  byteFallback := false
  bosId := none
  eosId := none
  specialIds := []
  specialPieces := []
  byteDecoder := []

/-- A model that always goes on with one token. -/
def repeating (token : TokenId) : CausalLanguageModel Nat Unit := fun _ => .ok
  ({ prefill := fun _ => pure []
     decode := fun _ => pure []
     prefillArgmax := fun _ => pure token
     decodeArgmax := fun _ => pure token
     kvCacheMetrics := pure ⟨0, 0, 0, 0, .f32, .f32, false⟩ }, ())

/-- One token, with no penalty and no template. -/
def oneToken : GenerateConfig Nat where
  maxNewTokens := 1
  repetitionPenalty := 1
  applyChatTemplate := false

theorem fromFile_wordFile : BpeTokenizer.fromFile wordFile = .ok wordTokenizer := by
  have hpieces : wordFile.pieces.mergeSort (fun a b => decide (b.1.utf8ByteSize ≤ a.1.utf8ByteSize)) = [] := List.mergeSort_nil
  unfold BpeTokenizer.fromFile
  rw [hpieces]
  rfl

theorem generated_text_iff_letter : ∃ output,
    generateGreedy (repeating 2) wordTokenizer none "a" oneToken {} = some (.ok output) ∧
      ∃ generated, output.tokenIds = [0, 1] ++ generated ∧
        (output.text = wordTokenizer.decode (asIds output.tokenIds) true ↔
          wordTokenizer.CutApart "a" (asIds [0, 1]) (asIds generated)) := by
  have hplain : modelPrompt wordTokenizer none "a" oneToken.applyChatTemplate oneToken.enableThinking = .ok "a" := rfl
  have hrun : generateGreedy (repeating 2) wordTokenizer none "a" oneToken {} =
      some (.ok ⟨"a", "ab", [0, 1, 2], ⟨2, 1, 0, 0, 0, 0, "f32", "f32", false⟩⟩) := rfl
  exact ⟨_, hrun, generated_text_iff hplain (by decide +kernel) (by decide +kernel) hrun⟩

/-- The space in front of a word is lost from the text. -/
theorem generated_space_lost : BpeTokenizer.fromFile wordFile = .ok wordTokenizer ∧
    wordTokenizer.decode [0, 1] true = "a" ∧ ∃ output,
      generateGreedy (repeating 3) wordTokenizer none "a" oneToken {} = some (.ok output) ∧
        output.tokenIds = [0, 1] ++ [3] ∧ wordTokenizer.isSpecial 3 = false ∧ output.text = "ab" ∧
        wordTokenizer.decode (asIds output.tokenIds) true = "a b" :=
  ⟨fromFile_wordFile, by decide +kernel, ⟨"a", "ab", [0, 1, 3], ⟨2, 1, 0, 0, 0, 0, "f32", "f32", false⟩⟩, rfl, rfl,
    by decide, rfl, by decide +kernel⟩

end small

end Dyninfer
