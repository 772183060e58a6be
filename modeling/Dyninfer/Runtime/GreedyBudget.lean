/-
How many tokens a run of greedy generation can make. The device that answers a
session is followed without the session's guards: what it would choose behind
the prompt, and behind each choice. A run returns these choices up to the first
stop token or the token limit, if the session has room for all of them: behind
each token that it returns it decodes, also behind the last one.
-/
import Dyninfer.Runtime.ArgmaxPath
import Dyninfer.Runtime.Continuation

namespace Dyninfer

open Effect Rows

/-! ## Lists -/

/-- Not more than `k` entries stand in front of the first one that fails, or in front of the end. -/
theorem length_takeWhile_le_iff {α : Type} {p : α → Bool} {l : List α} {k : Nat} :
    (l.takeWhile p).length ≤ k ↔ l.length ≤ k ∨ ∃ x ∈ l.take (k + 1), p x = false := by
  induction l generalizing k with
  | nil => simp
  | cons x l ih =>
    rw [List.takeWhile_cons, List.take_succ_cons]
    cases hx : p x with
    | false => simp [hx]
    | true =>
      cases k with
      | zero => simp [hx]
      | succ k =>
        simp only [if_true, List.length_cons, Nat.succ_le_succ_iff, ih, List.exists_mem_cons_iff, hx,
          Bool.true_eq_false, false_or]

/-! ## The device -/

/-- What the device has been given, and what it answered last. -/
structure Served (F D : Type) where
  tokens : List TokenId
  logits : List F
  context : D

section device

variable {F D : Type} [PenaltyFloat F] (ctx : Context F D) (s : IreeSession)

/-- The device behind a prompt. -/
def servePrompt (d : D) (tokens : List TokenId) : Served F D :=
  match (prefillValues ctx s tokens).run (SessionState.new d) with
  | .ok logits t => ⟨tokens, logits, t.context⟩
  | .error _ t => ⟨tokens, [], t.context⟩

/-- The device behind one token more. -/
def serve (v : Served F D) (token : TokenId) : Served F D :=
  match (decodeValues ctx s token v.tokens.length).run (SessionState.new v.context) with
  | .ok logits t => ⟨v.tokens ++ [token], logits, t.context⟩
  | .error _ t => ⟨v.tokens ++ [token], [], t.context⟩

/-- The argmax of the logits, with a penalty on the tokens so far. -/
def Served.choice (penalty : F) (v : Served F D) : TokenId :=
  argmax (applyRepetitionPenalty v.logits (v.tokens.foldl Seen.note []) penalty)

/-- The first `n` tokens that are chosen one behind the other. -/
def choices (penalty : F) : Nat → Served F D → List TokenId
  | 0, _ => []
  | n + 1, v => v.choice penalty :: choices penalty n (serve ctx s v (v.choice penalty))

/-- The choices up to the first stop token, `n` of them at most. -/
def greedyContinuation (penalty : F) (stop : List TokenId) (n : Nat) (v : Served F D) : List TokenId :=
  (choices ctx s penalty n v).takeWhile fun token => !stop.contains token

end device

variable {F D : Type} [PenaltyFloat F] {ctx : Context F D} {s : IreeSession} {penalty : F} {stop : List TokenId}

theorem length_choices (n : Nat) (v : Served F D) : (choices ctx s penalty n v).length = n := by
  induction n generalizing v with
  | zero => rfl
  | succ n ih => rw [choices, List.length_cons, ih]

theorem take_choices {n k : Nat} (h : k ≤ n) (v : Served F D) :
    (choices ctx s penalty n v).take k = choices ctx s penalty k v := by
  induction n generalizing k v with
  | zero =>
    cases Nat.le_zero.mp h
    rfl
  | succ n ih =>
    cases k with
    | zero => rfl
    | succ k => rw [choices, choices, List.take_succ_cons, ih (Nat.le_of_succ_le_succ h)]

theorem length_greedyContinuation_le {n k : Nat} {v : Served F D} :
    (greedyContinuation ctx s penalty stop n v).length ≤ k ↔
      n ≤ k ∨ ∃ token ∈ choices ctx s penalty (k + 1) v, token ∈ stop := by
  unfold greedyContinuation
  rw [length_takeWhile_le_iff, length_choices]
  by_cases hn : n ≤ k
  · simp [hn]
  · rw [take_choices (by omega)]
    simp

/-- Every choice that is returned comes before a stop token. -/
theorem not_mem_stop_of_mem {n : Nat} {v : Served F D} {token : TokenId}
    (h : token ∈ greedyContinuation ctx s penalty stop n v) : token ∉ stop := by
  have hkept := List.mem_takeWhile_imp h
  simpa using hkept

theorem length_greedyContinuation (n : Nat) (v : Served F D) :
    (greedyContinuation ctx s penalty stop n v).length ≤ n := length_greedyContinuation_le.mpr (.inl (Nat.le_refl _))

/-! ## A device that answers -/

/-- No call of the context fails, and its logits cover the vocabulary. -/
structure NeverFails (ctx : Context F D) (pagedKvMetrics : EStateM DynInferError D (Nat × Nat))
    (vocabularySize : Nat) : Prop where
  reset : ∀ d, ∃ d', ctx.resetPagedKv.run d = .ok () d'
  ensure : ∀ pages d, ∃ d', (ctx.ensureKvPages pages).run d = .ok () d'
  chunk : ∀ window last start wantLogits d, ∃ r d',
    (ctx.invokePagedChunkEx window last start wantLogits).run d = .ok r d' ∧
      (wantLogits = true → ∃ logits, r.1 = some logits ∧ logits.length = vocabularySize)
  prefill : ∀ window last d, ∃ logits d', (ctx.invokePrefill window last).run d = .ok logits d' ∧
    logits.length = vocabularySize
  decode : ∀ token position bias d, ∃ logits d', (ctx.invokeDecode token position bias).run d = .ok logits d' ∧
    logits.length = vocabularySize
  metrics : ∀ d, ∃ r d', pagedKvMetrics.run d = .ok r d'

/-- A program on the session returns, and changes no more than the context. -/
def Answers {α : Type} (x : EStateM DynInferError (SessionState D) α) (Q : α → Prop) : Prop :=
  ∀ d, ∃ a d', Q a ∧ ∀ t : SessionState D, t.context = d → x.run t = .ok a { t with context := d' }

section answers

variable {α β : Type} {Q : α → Prop} {R : β → Prop}

omit [PenaltyFloat F] in
theorem Answers.bind {x : EStateM DynInferError (SessionState D) α} {f : α → EStateM DynInferError (SessionState D) β}
    (hx : Answers x Q) (hf : ∀ a, Q a → Answers (f a) R) : Answers (x >>= f) R := by
  intro d
  obtain ⟨a, d', ha, hrun⟩ := hx d
  obtain ⟨b, d'', hb, hrun'⟩ := hf a ha d'
  refine ⟨b, d'', hb, fun t ht => ?_⟩
  rw [EStateM.run_bind, hrun t ht]
  exact hrun' _ rfl

omit [PenaltyFloat F] in
theorem Answers.onContext {x : EStateM DynInferError D α} (h : ∀ d, ∃ a d', x.run d = .ok a d' ∧ Q a) :
    Answers (onContext x) Q := by
  intro d
  obtain ⟨a, d', hrun, ha⟩ := h d
  refine ⟨a, d', ha, fun t ht => ?_⟩
  rw [Dyninfer.onContext, run_onPart, ht, hrun]

end answers

section answering

variable {pagedKvMetrics : EStateM DynInferError D (Nat × Nat)}

omit [PenaltyFloat F] in
theorem prefillChunks_answers (h : NeverFails ctx pagedKvMetrics s.vocabularySize) (chunkSize total : Nat)
    (pieces : List (List TokenId)) (i : Nat) (logits : List F) (d : D) (hne : pieces ≠ [])
    (htotal : i + pieces.length = total) :
    ∃ values d', (prefillChunks ctx s chunkSize total i pieces logits).run d = .ok values d' ∧
      values.length = s.vocabularySize := by
  induction pieces generalizing i logits d with
  | nil => exact absurd rfl hne
  | cons chunk rest ih =>
    rw [List.length_cons] at htotal
    unfold prefillChunks
    simp only
    obtain ⟨r, d', hrun, hlogits⟩ := h.chunk (s.windowFromTokens chunk).1 (s.windowFromTokens chunk).2
      ((i * chunkSize : Nat) : Int) (i + 1 == total) d
    rw [EStateM.run_bind, hrun]
    cases rest with
    | nil =>
      have hwant : (i + 1 == total) = true := by simpa using htotal
      obtain ⟨values, hvalues, hlength⟩ := hlogits hwant
      simp only
      rw [hwant, hvalues]
      exact ⟨values, d', rfl, hlength⟩
    | cons next rest =>
      have hwant : (i + 1 == total) = false := by
        rw [beq_eq_false_iff_ne]
        rw [List.length_cons] at htotal
        omega
      rw [hwant]
      exact ih (i + 1) logits d' (List.cons_ne_nil _ _) (by omega)

omit [PenaltyFloat F] in
theorem prefillValues_answers (h : NeverFails ctx pagedKvMetrics s.vocabularySize)
    (hs : ∀ pageSize chunkSize, s.kv.storage = .paged pageSize chunkSize → 0 < chunkSize) {tokens : List TokenId}
    (hne : tokens ≠ []) : Answers (prefillValues ctx s tokens) fun values => values.length = s.vocabularySize := by
  unfold prefillValues
  cases hgeo : s.pagedGeometry with
  | none => exact .onContext (h.prefill _ _)
  | some geometry =>
    obtain ⟨pageSize, chunkSize⟩ := geometry
    have hchunk : 0 < chunkSize := hs pageSize chunkSize (pagedGeometry_eq hgeo)
    have hpieces : chunks chunkSize tokens ≠ [] := by
      rw [chunks_cons hchunk hne]
      exact List.cons_ne_nil _ _
    have hreset : Answers (onContext ctx.resetPagedKv) fun _ => True := .onContext fun d => by
      obtain ⟨d', hrun⟩ := h.reset d
      exact ⟨(), d', hrun, trivial⟩
    have hensure : Answers (onContext (ctx.ensureKvPages (s.maxPages pageSize))) fun _ => True := .onContext fun d => by
      obtain ⟨d', hrun⟩ := h.ensure (s.maxPages pageSize) d
      exact ⟨(), d', hrun, trivial⟩
    exact hreset.bind fun _ _ => hensure.bind fun _ _ => .onContext fun d =>
      prefillChunks_answers h chunkSize _ _ 0 [] d hpieces (Nat.zero_add _)

theorem decodeValues_answers (h : NeverFails ctx pagedKvMetrics s.vocabularySize) (token : TokenId) (position : Nat) :
    Answers (decodeValues ctx s token position) fun values => values.length = s.vocabularySize := by
  unfold decodeValues
  cases s.pagedGeometry with
  | none => exact .onContext (h.decode _ _ _)
  | some geometry =>
    have hensure : Answers (onContext (ctx.ensureKvPages (s.maxPages geometry.1))) fun _ => True := by
      refine .onContext fun d => ?_
      obtain ⟨d', hrun⟩ := h.ensure (s.maxPages geometry.1) d
      exact ⟨(), d', hrun, trivial⟩
    refine hensure.bind fun _ _ => .onContext fun d => ?_
    obtain ⟨r, d', hrun, hlogits⟩ := h.chunk [IreeSession.tokenI64 token] 0 position true d
    obtain ⟨values, hvalues, hlength⟩ := hlogits rfl
    refine ⟨values, d', ?_, hlength⟩
    unfold Context.invokePagedChunk
    rw [EStateM.run_bind, hrun]
    simp only
    rw [hvalues]
    rfl

/-! ## The session -/

/-- The guards that a prompt passes. -/
def IreeSession.AdmitsPrompt (s : IreeSession) (tokens : List TokenId) : Prop :=
  s.config.batchSize = 1 ∧ tokens ≠ [] ∧ (s.pagedGeometry.isSome ∨ tokens.length ≤ s.prefillWindow) ∧
    tokens.length ≤ s.maxSeq

/-- The session has given the device what `v` says, and its position is behind it. -/
def Follows (v : Served F D) (t : SessionState D) : Prop := t.context = v.context ∧ t.position = v.tokens.length

omit [PenaltyFloat F] in
theorem prefill_serves (h : NeverFails ctx pagedKvMetrics s.vocabularySize)
    (hs : ∀ pageSize chunkSize, s.kv.storage = .paged pageSize chunkSize → 0 < chunkSize) (tokens : List TokenId)
    (d : D) : Triple (fun t : SessionState D => t.context = d) (prefill ctx s tokens)
      (fun values t => s.AdmitsPrompt tokens ∧ values = (servePrompt ctx s d tokens).logits ∧
        Follows (servePrompt ctx s d tokens) t)
      fun _ => ¬s.AdmitsPrompt tokens := by
  unfold prefill checkBatchSize checkNonEmpty checkPrefillLength
  refine Triple.decide (fun hbatch => ?_) fun hc _ _ hadmits => by simp [hadmits.1] at hc
  refine Triple.decide (fun hne => ?_) fun hc _ _ hadmits => by simp [hadmits.2.1] at hc
  refine Triple.decide (fun hwindow => ?_) fun hc _ _ hadmits => by
    rcases hadmits.2.2.1 with hpaged | hshort
    · simp [hpaged] at hc
    · simp [hshort] at hc
  refine Triple.decide (fun hfits => ?_) fun hc _ _ hadmits => by simp [hadmits.2.2.2] at hc
  have hadmits : s.AdmitsPrompt tokens :=
    ⟨by simpa using hbatch, by simpa using hne, by simpa using hwindow, by simpa using hfits⟩
  obtain ⟨values, d', hlength, hrun⟩ := prefillValues_answers h hs hadmits.2.1 d
  have hserved : servePrompt ctx s d tokens = ⟨tokens, values, d'⟩ := by
    unfold servePrompt
    rw [hrun _ rfl]
  rw [hserved]
  refine Triple.bind (Q := fun _ t => t.context = d) (Triple.modify fun _ ht => ht) fun _ => ?_
  refine Triple.bind (Q := fun a t => a = values ∧ t.context = d') (fun t ht => ?_) fun a => ?_
  · rw [hrun t ht]
    exact ⟨rfl, rfl⟩
  refine Triple.assume fun ha => ?_
  subst ha
  refine Triple.pass (by simpa using hlength) ?_
  refine Triple.bind (Q := fun _ => Follows ⟨tokens, a, d'⟩) (Triple.modify fun _ ht => ⟨ht, rfl⟩) fun _ => ?_
  exact Triple.pure fun _ ht => ⟨hadmits, rfl, ht⟩

theorem decode_serves (h : NeverFails ctx pagedKvMetrics s.vocabularySize) (hbatch : s.config.batchSize = 1)
    (v : Served F D) (token : TokenId) :
    Triple (Follows v) (decode ctx s token)
      (fun values t => v.tokens.length < s.maxSeq ∧ values = (serve ctx s v token).logits ∧
        Follows (serve ctx s v token) t)
      fun _ => s.maxSeq ≤ v.tokens.length := by
  obtain ⟨values, d', hlength, hrun⟩ := decodeValues_answers h token v.tokens.length v.context
  have hserved : serve ctx s v token = ⟨v.tokens ++ [token], values, d'⟩ := by
    unfold serve
    rw [hrun _ rfl]
  rw [hserved]
  unfold decode checkBatchSize checkDecodePosition
  refine Triple.pass (by simpa using hbatch) ?_
  refine Triple.bind (Q := fun _ t => v.tokens.length < s.maxSeq ∧ Follows v t) (fun t ht => ?_) fun _ => ?_
  · rw [EStateM.run_bind, EStateM.run_get]
    simp only
    by_cases hroom : v.tokens.length < s.maxSeq
    · rw [run_require_true (by simpa [ht.2] using hroom)]
      exact ⟨hroom, ht⟩
    · rw [run_require_false (by simpa [ht.2] using hroom)]
      exact Nat.le_of_not_lt hroom
  refine Triple.assume fun hroom => ?_
  refine Triple.bind (Q := fun t' t => t' = t ∧ Follows v t) (fun t ht => ⟨rfl, ht⟩) fun t' => ?_
  refine Triple.bind (Q := fun a t => a = values ∧ t.context = d' ∧ t.position = v.tokens.length) (fun t ht => ?_)
    fun a => ?_
  · rw [ht.1, ht.2.2, hrun t ht.2.1]
    exact ⟨rfl, rfl, ht.2.2⟩
  refine Triple.assume fun ha => ?_
  subst ha
  refine Triple.pass (by simpa using hlength) ?_
  refine Triple.bind (Q := fun _ => Follows ⟨v.tokens ++ [token], a, d'⟩) (Triple.modify fun t ht => ⟨ht.1, ?_⟩)
    fun _ => ?_
  · rw [List.length_append, List.length_singleton, ht.2]
  · exact Triple.pure fun _ ht => ⟨hroom, rfl, ht⟩

/-! ## The loops -/

/-- The progress that `v` stands for. -/
def Served.Keeps (v : Served F D) (progress : Progress) : Prop :=
  progress.ids = v.tokens ∧ progress.seen = v.tokens.foldl Seen.note []

@[simp]
theorem serve_tokens (v : Served F D) (token : TokenId) : (serve ctx s v token).tokens = v.tokens ++ [token] := by
  unfold serve
  split <;> rfl

theorem Served.Keeps.push {v : Served F D} {progress : Progress} (h : v.Keeps progress) (token : TokenId) :
    (serve ctx s v token).Keeps (progress.push token) := by
  refine ⟨?_, ?_⟩
  · rw [serve_tokens, Progress.push, h.1]
  · rw [serve_tokens, List.foldl_append, Progress.push, h.2]
    rfl

theorem logitsLoop_serves (h : NeverFails ctx pagedKvMetrics s.vocabularySize) (hbatch : s.config.batchSize = 1)
    (n : Nat) {v : Served F D} {progress : Progress} (hkeeps : v.Keeps progress) (hfits : v.tokens.length ≤ s.maxSeq) :
    Triple (Follows v) (logitsLoop (s.asModelSession ctx pagedKvMetrics) stop penalty n v.logits progress)
      (fun progress' _ => progress' = (greedyContinuation ctx s penalty stop n v).foldl Progress.push progress ∧
        v.tokens.length + (greedyContinuation ctx s penalty stop n v).length ≤ s.maxSeq)
      fun _ => s.maxSeq < v.tokens.length + (greedyContinuation ctx s penalty stop n v).length := by
  induction n generalizing v progress with
  | zero => exact Triple.pure fun _ _ => ⟨rfl, hfits⟩
  | succ n ih =>
    unfold logitsLoop greedyContinuation choices
    simp only
    have hnext : argmax (applyRepetitionPenalty v.logits progress.seen penalty) = v.choice penalty := by
      rw [hkeeps.2, Served.choice]
    rw [hnext, List.takeWhile_cons]
    by_cases hstop : stop.contains (v.choice penalty) = true
    · rw [if_pos hstop, hstop]
      exact Triple.pure fun _ _ => ⟨rfl, hfits⟩
    · have hkept : (!stop.contains (v.choice penalty)) = true := by simpa using hstop
      rw [if_neg hstop, if_pos hkept, List.length_cons, List.foldl_cons]
      refine ((decode_serves h hbatch v _).conseq (fun _ ht => ht) (fun _ _ ht => ht) fun _ hfull => ?_).bind
        fun values => ?_
      · exact Nat.lt_of_le_of_lt hfull (Nat.lt_add_of_pos_right (Nat.succ_pos _))
      refine Triple.assume fun hroom => Triple.assume fun hvalues => ?_
      subst hvalues
      have htokens : (serve ctx s v (v.choice penalty)).tokens.length = v.tokens.length + 1 := by
        rw [serve_tokens, List.length_append, List.length_singleton]
      refine (ih (hkeeps.push _) (by omega)).conseq (fun _ ht => ht) (fun _ _ hend => ⟨hend.1, ?_⟩) fun _ hend => ?_
      · have hroom' := hend.2
        rw [htokens] at hroom'
        unfold greedyContinuation at hroom'
        omega
      · rw [htokens] at hend
        unfold greedyContinuation at hend
        omega

end answering

/-- The loop that only gets tokens makes the progress of the one that gets logits. -/
theorem argmaxLoop_agree {S : Type} {session : ModelSession F S}
    (hdecode : ∀ token t, AgreeAt (fun values next => argmax values = next) (session.decode token)
      (session.decodeArgmax token) t)
    (hoff : PenaltyFloat.isOff penalty = true) (n : Nat) (logits : List F) (progress : Progress) (t : S) :
    AgreeAt (· = ·) (logitsLoop session stop penalty n logits progress)
      (argmaxLoop session stop n (argmax logits) progress) t := by
  induction n generalizing logits progress t with
  | zero => exact AgreeAt.pure rfl
  | succ n ih =>
    unfold logitsLoop argmaxLoop
    simp only [applyRepetitionPenalty, hoff, Bool.true_or, if_true]
    by_cases hstop : stop.contains (argmax logits) = true
    · rw [if_pos hstop, if_pos hstop]
      exact AgreeAt.pure rfl
    · rw [if_neg hstop, if_neg hstop]
      refine (hdecode _ t).bind fun values next t' hnext => ?_
      subst hnext
      exact ih values _ t'

theorem foldl_push_ids (tokens : List TokenId) (progress : Progress) :
    (tokens.foldl Progress.push progress).ids = progress.ids ++ tokens := by
  induction tokens generalizing progress with
  | nil => exact (List.append_nil _).symm
  | cons token tokens ih =>
    rw [List.foldl_cons, ih, Progress.push, List.append_assoc]
    rfl

/-! ## A run -/

/-- What a run should return behind the prompt. -/
def greedyTokens (ctx : Context F D) (s : IreeSession) (stop : List TokenId) (config : GenerateConfig F)
    (ids : List TokenId) (d : D) : List TokenId :=
  greedyContinuation ctx s config.repetitionPenalty stop config.maxNewTokens (servePrompt ctx s d ids)

section runs

variable {pagedKvMetrics : EStateM DynInferError D (Nat × Nat)} {config : GenerateConfig F} {ids : List TokenId} {d : D}

/-- The session has room for the prompt, and to decode each token behind it. -/
def IreeSession.HasRoom (s : IreeSession) (ids new : List TokenId) : Prop :=
  s.AdmitsPrompt ids ∧ ids.length + new.length ≤ s.maxSeq

theorem hasRoom_iff : s.HasRoom ids (greedyTokens ctx s stop config ids d) ↔
    s.AdmitsPrompt ids ∧ (ids.length + config.maxNewTokens ≤ s.maxSeq ∨
      ∃ token ∈ choices ctx s config.repetitionPenalty (s.maxSeq - ids.length + 1) (servePrompt ctx s d ids),
        token ∈ stop) := by
  unfold IreeSession.HasRoom
  refine and_congr_right fun hadmits => ?_
  have hprompt : ids.length ≤ s.maxSeq := hadmits.2.2.2
  have hcut : ids.length + (greedyTokens ctx s stop config ids d).length ≤ s.maxSeq ↔
      (greedyTokens ctx s stop config ids d).length ≤ s.maxSeq - ids.length := by omega
  have hall : ids.length + config.maxNewTokens ≤ s.maxSeq ↔ config.maxNewTokens ≤ s.maxSeq - ids.length := by omega
  rw [hcut, hall, greedyTokens, length_greedyContinuation_le]

omit [PenaltyFloat F] in
theorem servePrompt_tokens (d : D) (tokens : List TokenId) : (servePrompt ctx s d tokens).tokens = tokens := by
  unfold servePrompt
  split <;> rfl

theorem generateTokens_serves (h : NeverFails ctx pagedKvMetrics s.vocabularySize)
    (hs : ∀ pageSize chunkSize, s.kv.storage = .paged pageSize chunkSize → 0 < chunkSize)
    (hoff : PenaltyFloat.isOff config.repetitionPenalty = true →
      HostOrder F ∧ ArgmaxDevice ctx s.vocabularySize ∧ s.vocabularySize ≤ 2 ^ 32) :
    Triple (fun t : SessionState D => t.context = d)
      (generateTokens (s.asModelSession ctx pagedKvMetrics) stop config ids)
      (fun progress _ => progress.ids = ids ++ greedyTokens ctx s stop config ids d ∧
        s.HasRoom ids (greedyTokens ctx s stop config ids d))
      fun _ => ¬s.HasRoom ids (greedyTokens ctx s stop config ids d) := by
  have hlogits : Triple (fun t : SessionState D => t.context = d)
      (prefill ctx s ids >>= fun logits => logitsLoop (s.asModelSession ctx pagedKvMetrics) stop
        config.repetitionPenalty config.maxNewTokens logits (.ofPrompt ids))
      (fun progress _ => progress.ids = ids ++ greedyTokens ctx s stop config ids d ∧
        s.HasRoom ids (greedyTokens ctx s stop config ids d))
      fun _ => ¬s.HasRoom ids (greedyTokens ctx s stop config ids d) := by
    refine ((prefill_serves h hs ids d).conseq (fun _ ht => ht) (fun _ _ ht => ht) fun _ hno hroom => hno hroom.1).bind
      fun logits => ?_
    refine Triple.assume fun hadmits => Triple.assume fun hvalues => ?_
    subst hvalues
    have htokens : (servePrompt ctx s d ids).tokens = ids := servePrompt_tokens d ids
    have hkeeps : (servePrompt ctx s d ids).Keeps (.ofPrompt ids) := by
      unfold Served.Keeps
      rw [htokens]
      exact ⟨rfl, rfl⟩
    refine (logitsLoop_serves h hadmits.1 config.maxNewTokens hkeeps (by rw [htokens]; exact hadmits.2.2.2)).conseq
      (fun _ ht => ht) (fun progress _ hend => ?_) fun _ hend hroom => ?_
    · rw [htokens] at hend
      refine ⟨?_, hadmits, hend.2⟩
      rw [hend.1, foldl_push_ids]
      rfl
    · rw [htokens] at hend
      exact absurd hroom.2 (Nat.not_le_of_lt hend)
  unfold generateTokens
  cases hpenalty : PenaltyFloat.isOff config.repetitionPenalty with
  | false => exact hlogits
  | true =>
    obtain ⟨hF, hctx, hv⟩ := hoff hpenalty
    have hdecode : ∀ token t, AgreeAt (fun values next => argmax values = next)
        ((s.asModelSession ctx pagedKvMetrics).decode token)
        ((s.asModelSession ctx pagedKvMetrics).decodeArgmax token) t := decode_agree hF hctx hv
    have hagree : ∀ t, AgreeAt (· = ·)
        (prefill ctx s ids >>= fun logits => logitsLoop (s.asModelSession ctx pagedKvMetrics) stop
          config.repetitionPenalty config.maxNewTokens logits (.ofPrompt ids))
        (prefillArgmax ctx s ids >>= fun next => argmaxLoop (s.asModelSession ctx pagedKvMetrics) stop
          config.maxNewTokens next (.ofPrompt ids)) t := fun t =>
      (prefill_agree hF hctx hv hs ids t).bind fun values next t' hnext => by
        subst hnext
        exact argmaxLoop_agree hdecode hpenalty config.maxNewTokens values (.ofPrompt ids) t'
    refine (hlogits.agree fun t _ => hagree t).conseq (fun _ ht => ht) (fun progress t hend => ?_) fun _ hend => hend
    obtain ⟨progress', rfl, hend⟩ := hend
    exact hend

omit [PenaltyFloat F] in
theorem kvCacheMetrics_returns (h : NeverFails ctx pagedKvMetrics s.vocabularySize) :
    Triple (fun _ => True) (s.kvCacheMetrics pagedKvMetrics) (fun _ (_ : SessionState D) => True) fun _ => False := by
  intro t _
  unfold IreeSession.kvCacheMetrics
  cases s.pagedGeometry.isSome with
  | false => trivial
  | true =>
    obtain ⟨r, d', hrun⟩ := h.metrics t.context
    simp only [if_true]
    rw [EStateM.run_bind, onContext, run_onPart, hrun]
    trivial

/-- **The token limit.** Where no call of the context fails, a run of greedy generation returns the prompt and its
greedy continuation just when the session admits the prompt and has room behind the last token too: for all new tokens,
or up to a stop token. -/
theorem greedy_budget_iff {model : CausalLanguageModel F (SessionState D)} {tokenizer : BpeTokenizer}
    {template : Option (String → Bool → Except String String)} {prompt text : String} {sessionCfg : SessionConfig}
    (hmodel : model sessionCfg = .ok (s.asModelSession ctx pagedKvMetrics, .new d))
    (h : NeverFails ctx pagedKvMetrics s.vocabularySize)
    (hs : ∀ pageSize chunkSize, s.kv.storage = .paged pageSize chunkSize → 0 < chunkSize)
    (hoff : PenaltyFloat.isOff config.repetitionPenalty = true →
      HostOrder F ∧ ArgmaxDevice ctx s.vocabularySize ∧ s.vocabularySize ≤ 2 ^ 32)
    (htext : modelPrompt tokenizer template prompt config.applyChatTemplate config.enableThinking = .ok text)
    (hids : promptIds tokenizer text config.applyChatTemplate = some ids) (hne : ids ≠ []) :
    (∃ output, generateGreedy model tokenizer template prompt config sessionCfg = some (.ok output) ∧
      output.tokenIds = ids ++ greedyTokens ctx s (stopTokens tokenizer config) config ids d ∧
      (∀ token ∈ greedyTokens ctx s (stopTokens tokenizer config) config ids d, token ∉ stopTokens tokenizer config) ∧
      (greedyTokens ctx s (stopTokens tokenizer config) config ids d).length ≤ config.maxNewTokens) ↔
    s.AdmitsPrompt ids ∧ (ids.length + config.maxNewTokens ≤ s.maxSeq ∨
      ∃ token ∈ choices ctx s config.repetitionPenalty (s.maxSeq - ids.length + 1) (servePrompt ctx s d ids),
        token ∈ stopTokens tokenizer config) := by
  rw [← hasRoom_iff]
  have hempty : ids.isEmpty = false := by simpa using hne
  have hrun : generateGreedy model tokenizer template prompt config sessionCfg =
      some (generateIds model tokenizer prompt config sessionCfg ids) := by
    unfold generateGreedy
    rw [htext]
    simp only [hids, Option.map_some]
  rw [hrun]
  unfold generateIds
  rw [hempty, hmodel]
  simp only [Bool.false_eq_true, if_false]
  have hserved : Triple (fun t : SessionState D => t.context = d) (do
      let progress ← generateTokens (s.asModelSession ctx pagedKvMetrics) (stopTokens tokenizer config) config ids
      let cache ← (s.asModelSession ctx pagedKvMetrics).kvCacheMetrics
      pure (generateOutput tokenizer prompt ids progress cache))
      (fun output _ => output.tokenIds = ids ++ greedyTokens ctx s (stopTokens tokenizer config) config ids d ∧
        s.HasRoom ids (greedyTokens ctx s (stopTokens tokenizer config) config ids d))
      fun _ => ¬s.HasRoom ids (greedyTokens ctx s (stopTokens tokenizer config) config ids d) := by
    refine (generateTokens_serves h hs hoff).bind fun progress => Triple.of_forall fun t hend => ?_
    refine Triple.bind (Q := fun _ _ => True) ?_ fun cache => Triple.pure fun _ _ => hend
    exact (kvCacheMetrics_returns h).conseq (fun _ _ => trivial) (fun _ _ _ => trivial) fun _ h => h.elim
  have hend := hserved (.new d) rfl
  revert hend
  cases (EStateM.run _ (SessionState.new d)) with
  | ok output t =>
    intro hend
    refine iff_of_true ⟨output, rfl, hend.1, fun token => not_mem_stop_of_mem, ?_⟩ hend.2
    exact length_greedyContinuation _ _
  | error e t =>
    intro hend
    refine iff_of_false (fun hok => ?_) hend
    obtain ⟨output, hok, -⟩ := hok
    cases hok

end runs

section small

/-- A session of the counting context with room for `maxSeq` tokens. -/
def countingSession (maxSeq : Nat) : IreeSession where
  vocabularySize := 3
  config := {}
  kv := ⟨1, 1, maxSeq, 1, 2, .f32, .staticGlobals⟩
  prefillWindow := 2
  padTokenId := 0

/-- The model that opens it. -/
def countingModel (maxSeq : Nat) : CausalLanguageModel Nat (SessionState Nat) := fun _ =>
  .ok ((countingSession maxSeq).asModelSession countingContext (pure (0, 0)), .new 0)

theorem countingContext_neverFails : NeverFails countingContext (pure (0, 0)) 3 where
  reset _ := ⟨_, rfl⟩
  ensure _ _ := ⟨_, rfl⟩
  chunk _ _ _ wantLogits _ := ⟨_, _, rfl, fun h => ⟨[0, 7, 3], by rw [h]; rfl, rfl⟩⟩
  prefill _ _ _ := ⟨_, _, rfl, rfl⟩
  decode _ _ _ _ := ⟨_, _, rfl, rfl⟩
  metrics _ := ⟨_, _, rfl⟩

theorem greedy_budget_iff_counting : ∃ output,
    generateGreedy (countingModel 3) wordTokenizer none "a" oneToken {} = some (.ok output) ∧
      output.tokenIds = [0, 1, 1] := by
  have hmodel : countingModel 3 {} =
      .ok ((countingSession 3).asModelSession countingContext (pure (0, 0)), .new 0) := rfl
  have htext : modelPrompt wordTokenizer none "a" oneToken.applyChatTemplate oneToken.enableThinking = .ok "a" := rfl
  have hids : promptIds wordTokenizer "a" oneToken.applyChatTemplate = some [0, 1] := by decide +kernel
  have hstatic : ∀ pageSize chunkSize, (countingSession 3).kv.storage = .paged pageSize chunkSize → 0 < chunkSize := by
    intro _ _ h
    cases h
  obtain ⟨output, hrun, htokens, -⟩ := (greedy_budget_iff hmodel countingContext_neverFails hstatic
    (fun _ => ⟨natHostOrder, countingContext_argmaxDevice, by decide⟩) htext hids (List.cons_ne_nil _ _)).mpr
    ⟨⟨rfl, List.cons_ne_nil _ _, .inr (by decide), by decide⟩, .inl (by decide)⟩
  exact ⟨output, hrun, htokens⟩

/-- The token that would be returned is lost: the session has no room to decode it. -/
theorem greedy_token_lost : 2 + oneToken.maxNewTokens - 1 ≤ (countingSession 2).maxSeq ∧
    promptIds wordTokenizer "a" oneToken.applyChatTemplate = some [0, 1] ∧
    greedyTokens countingContext (countingSession 2) (stopTokens wordTokenizer oneToken) oneToken [0, 1] 0 = [1] ∧
    generateGreedy (countingModel 2) wordTokenizer none "a" oneToken {} =
      some (.error (.runtime "decode position 2 exceeds session/KV limit 2")) :=
  ⟨by decide, by decide +kernel, rfl, rfl⟩

end small

end Dyninfer
