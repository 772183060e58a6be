/-
Streaming against recomputation: a session that prefills a prompt and decodes
a continuation token by token, and one that prefills the whole, over the
module of an attention-only graph.

Both return the logits of the graph's causal recomputation of the whole token
list, for the paged storage and for the static globals alike, and both leave
its K/V rows behind. The audited modules, which compute the same, show for
either way that every query attended to the rows of all positions up to its
own, each once.

What is asked of a session is what its guards ask, that its logits have the
length it expects, and for the paged storage that its planes have the compiled
length and that no call fails from where the prompt is given to it; before
that, anything may have happened.
-/
import Dyninfer.Lowering.Audit
import Dyninfer.Runtime.Coherence

namespace Dyninfer

open Effect Rows IreeSession TokenProgram

variable {F D : Type} [HostFloat F]

/-- Decode tokens one after another; the logits behind the last. -/
def decodeAll (ctx : Context F D) (s : IreeSession) :
    List TokenId → List F → EStateM DynInferError (SessionState D) (List F)
  | [], logits => pure logits
  | token :: rest, _ => do
    let logits ← decode ctx s token
    decodeAll ctx s rest logits

/-- Prefill a prompt and decode its continuation. -/
def stream (ctx : Context F D) (s : IreeSession) (prompt continuation : List TokenId) :
    EStateM DynInferError (SessionState D) (List F) := do
  let logits ← prefill ctx s prompt
  decodeAll ctx s continuation logits

/-- From `t`, the program returns `value` and leaves the context in a state of `left`. -/
def Returns (x : EStateM DynInferError (SessionState D) (List F)) (t : SessionState D) (value : List F)
    (left : D → Prop) : Prop :=
  ∃ t', x.run t = .ok value t' ∧ left t'.context

omit [HostFloat F] in
theorem Returns.imp {x : EStateM DynInferError (SessionState D) (List F)} {t : SessionState D} {value : List F}
    {left left' : D → Prop} (h : Returns x t value left) (himp : ∀ d, left d → left' d) :
    Returns x t value left' := by
  obtain ⟨t', hrun, hleft⟩ := h
  exact ⟨t', hrun, himp _ hleft⟩

/-! ## Streams, from their steps -/

section steps

variable {ctx : Context F D} {s : IreeSession} {A : List TokenId → Nat → SessionState D → Prop}
  {f : List TokenId → List F} {cap : Nat}
  (hdecode : ∀ (tokens : List TokenId) (token : TokenId) (n : Nat), tokens.length < cap →
    Triple (A tokens (n + 2)) (decode ctx s token)
      (fun logits t => A (tokens ++ [token]) n t ∧ logits = f (tokens ++ [token])) (fun _ => False))
include hdecode

/-- If one decode takes the session from the end of `tokens` to the end of `tokens ++ [token]`, decoding
a continuation takes it to the end of that. -/
theorem decodeAll_triple (continuation : List TokenId) :
    ∀ tokens : List TokenId, tokens.length + continuation.length ≤ cap →
      Triple (A tokens (2 * continuation.length)) (decodeAll ctx s continuation (f tokens))
        (fun logits t => A (tokens ++ continuation) 0 t ∧ logits = f (tokens ++ continuation))
        (fun _ => False) := by
  induction continuation with
  | nil =>
    intro tokens _
    rw [List.append_nil]
    exact Triple.pure fun t ht => ⟨ht, rfl⟩
  | cons token rest ih =>
    intro tokens hcap
    rw [List.length_cons] at hcap
    refine Triple.bind (hdecode tokens token (2 * rest.length) (by omega)) fun logits => ?_
    refine Triple.of_forall fun t ⟨hat, hlogits⟩ => ?_
    subst hlogits
    have hrest := ih (tokens ++ [token]) (by rw [List.length_append, List.length_singleton]; omega)
    rw [List.append_assoc, List.singleton_append] at hrest
    exact hrest.conseq (fun t' heq => heq ▸ hat) (fun _ _ h => h) fun _ h => h

theorem stream_triple {P : SessionState D → Prop} {prompt continuation : List TokenId}
    (hprefill : Triple P (prefill ctx s prompt)
      (fun logits t => A prompt (2 * continuation.length) t ∧ logits = f prompt) (fun _ => False))
    (hcap : prompt.length + continuation.length ≤ cap) :
    Triple P (stream ctx s prompt continuation)
      (fun logits t => A (prompt ++ continuation) 0 t ∧ logits = f (prompt ++ continuation))
      (fun _ => False) := by
  refine Triple.bind hprefill fun logits => Triple.of_forall fun t ⟨hat, hlogits⟩ => ?_
  subst hlogits
  exact (decodeAll_triple hdecode continuation prompt hcap).conseq (fun t' heq => heq ▸ hat)
    (fun _ _ h => h) fun _ h => h

end steps

omit [HostFloat F] in
/-- What a triple without failures says of a run. -/
theorem returns_of_triple {P : SessionState D → Prop} {x : EStateM DynInferError (SessionState D) (List F)}
    {A : SessionState D → Prop} {value : List F} {left : D → Prop}
    (h : Triple P x (fun logits t => A t ∧ logits = value) fun _ => False) (hleft : ∀ t, A t → left t.context)
    {t : SessionState D} (ht : P t) : Returns x t value left := by
  obtain ⟨logits, t', hrun, hA, rfl⟩ := h.returns ht
  exact ⟨t', hrun, hleft t' hA⟩

variable {Hid Query Row Out ρ : Type} {g : AttentionGraph F Hid Query Row Out} {s : IreeSession}

/-- The session admits the whole token list, and its vocabulary is the module's. -/
structure Streamable (g : AttentionGraph F Hid Query Row Out) (s : IreeSession)
    (prompt continuation : List TokenId) : Prop where
  batch : s.config.batchSize = 1
  nonEmpty : prompt ≠ []
  fits : prompt.length + continuation.length ≤ s.maxSeq
  vocab : ∀ h, (g.head h).length = s.vocabularySize

omit [HostFloat F] in
theorem length_logits (hvocab : ∀ h, (g.head h).length = s.vocabularySize) {tokens : List Int}
    (hne : tokens ≠ []) : (g.logits tokens).length = s.vocabularySize := by
  have hlen := AttentionGraph.length_hiddenAt (g := g) tokens g.layers.length
  cases hlast : (g.hiddenAt tokens g.layers.length).getLast? with
  | none =>
    rw [List.getLast?_eq_none_iff.1 hlast] at hlen
    exact absurd (List.length_eq_zero_iff.1 hlen.symm) hne
  | some h => rw [AttentionGraph.logits, hlast]; exact hvocab h

/-! ## Paged storage -/

/-- A session of a paged manifest over a module compiled for `shape`, and the operations it has gone
through. Its planes have the compiled length, and no call fails from there on. -/
structure PagedSession (exe : ChunkExecutable F Row ρ) (shape : PagedShape) (chunkSize : Nat) where
  metadata : ModelMetadata
  manifest : ExecutableManifest
  config : SessionConfig
  opened : Shim Row ρ
  session : IreeSession
  created : SessionState (Shim Row ρ)
  ops : List SessionOp
  storage : manifest.kvCache.storage = .paged shape.page chunkSize
  window : manifest.prefillWindow = chunkSize
  width : chunkSize ≤ u32Max
  fresh : opened.layerN = 0
  made : createSession metadata manifest config opened = .ok (session, created)
  compiled : shape.numPages = compiledPages manifest.kvCache.maxSequenceLength shape.page
  planes : session.maxPages shape.page = shape.numPages
  pool : ∃ planeBytes, (sessionPoolConfig manifest metadata.vocabularySize shape.page chunkSize).planeBytes
    shape.numPages = .ok planeBytes
  quiet : ∀ n, (runOps (Shim.context exe) session created ops).context.Quiet n

namespace PagedSession

variable {exe : ChunkExecutable F Row ρ} {shape : PagedShape} {chunkSize : Nat}

def state (S : PagedSession exe shape chunkSize) : SessionState (Shim Row ρ) :=
  runOps (Shim.context exe) S.session S.created S.ops

def poolConfig (S : PagedSession exe shape chunkSize) : KvPoolConfig :=
  sessionPoolConfig S.manifest S.metadata.vocabularySize shape.page chunkSize

theorem valid (S : PagedSession exe shape chunkSize) : S.poolConfig.valid = true :=
  (createSession_paged S.storage S.made).2.1

theorem kv_storage (S : PagedSession exe shape chunkSize) :
    S.session.kv.storage = .paged shape.page chunkSize := by
  rw [(createSession_paged S.storage S.made).1]
  exact S.storage

theorem prefillWindow_eq (S : PagedSession exe shape chunkSize) : S.session.prefillWindow = chunkSize := by
  have hpos : 0 < chunkSize := (cfg_pos S.valid).2.1
  rw [(createSession_paged S.storage S.made).1, IreeSession.new, S.window]
  dsimp only
  omega

theorem maxPages_eq (S : PagedSession exe shape chunkSize) :
    S.session.maxPages S.poolConfig.pageSize = shape.numPages := S.planes

theorem page_pos (S : PagedSession exe shape chunkSize) : 1 ≤ shape.page := (cfg_pos S.valid).1

theorem numPages_pos (S : PagedSession exe shape chunkSize) : 1 ≤ shape.numPages := by
  rw [S.compiled]
  exact Nat.le_max_right _ _

/-- Whatever the run before did, the pool is in shape. -/
theorem shaped (S : PagedSession exe shape chunkSize) (hkeeps : exe.KeepsPlanes (shape.numPages * shape.page)) :
    PoolShaped S.poolConfig (S.session.maxPages S.poolConfig.pageSize) S.state.context := by
  refine runOps_context (context_shaped rfl ?_ S.kv_storage) S.ops
    (createSession_shaped S.storage S.fresh S.made _)
  rw [S.maxPages_eq]
  exact hkeeps

variable {p : TokenProgram F Row ρ} {prompt continuation : List TokenId}

/-- A prefill of any admitted prompt settles. -/
theorem prefill_triple (S : PagedSession exe shape chunkSize)
    (himp : Runs p S.session S.poolConfig exe) {tokens : List TokenId} (hadmits : Admits S.session tokens)
    (hlen : (p.logits (tokens.map tokenI64)).length = S.session.vocabularySize) (n : Nat) :
    Triple (· = S.state) (prefill (Shim.context exe) S.session tokens)
      (fun logits t => Settled p S.session S.poolConfig tokens n t ∧ logits = p.logits (tokens.map tokenI64))
      (fun _ => False) := by
  have hpos := cfg_pos S.valid
  have hwidth := S.prefillWindow_eq
  have hcarries : Carries S.session S.poolConfig tokens :=
    ⟨by rw [S.maxPages_eq]; exact S.pool, .inl hwidth, .inl (Nat.le_of_eq hwidth.symm)⟩
  have hkeeps := himp.keeps
  rw [S.maxPages_eq] at hkeeps
  refine (prefill_quiet S.valid himp S.kv_storage rfl rfl (by rw [hwidth]; exact hpos.2.1) hadmits hcarries
    hlen).conseq (fun t heq => heq ▸ ?_) (fun _ _ h => h) fun _ h => h
  exact ⟨S.shaped hkeeps, S.quiet _⟩

/-- Whatever the module implements, both ways give its logits and leave what it produces. -/
theorem returns (S : PagedSession exe shape chunkSize)
    (himp : p.Implements (shape.numPages * shape.page) chunkSize exe)
    (hstream : Streamable g S.session prompt continuation)
    (hvocab : ∀ tokens, tokens ≠ [] → (p.logits tokens).length = S.session.vocabularySize) :
    let all := prompt ++ continuation
    Returns (stream (Shim.context exe) S.session prompt continuation) S.state (p.logits (all.map tokenI64))
        (Kept p S.session S.poolConfig (all.map tokenI64)) ∧
      Returns (prefill (Shim.context exe) S.session all) S.state (p.logits (all.map tokenI64))
        (Kept p S.session S.poolConfig (all.map tokenI64)) := by
  intro all
  have himp' : Runs p S.session S.poolConfig exe := by
    rw [Runs, S.maxPages_eq]
    exact himp
  have hlen : ∀ tokens : List TokenId, tokens ≠ [] →
      (p.logits (tokens.map tokenI64)).length = S.session.vocabularySize :=
    fun tokens hne => hvocab _ (by simpa using hne)
  have hfits : all.length ≤ S.session.maxSeq := by simpa [all] using hstream.fits
  have hne : all ≠ [] := by simp [all, hstream.nonEmpty]
  constructor
  · refine returns_of_triple (stream_triple (A := Settled p S.session S.poolConfig)
      (f := fun tokens => p.logits (tokens.map tokenI64)) (fun tokens token n hroom => ?_)
      (S.prefill_triple himp' ⟨hstream.batch, hstream.nonEmpty, ?_⟩ (hlen _ hstream.nonEmpty) _) hstream.fits)
      (fun t h => h.filling.1.toKept) rfl
    · exact decode_quiet S.valid himp' S.kv_storage rfl hstream.batch hroom (hlen _ (by simp))
    · exact Nat.le_trans (Nat.le_add_right _ _) hstream.fits
  · exact returns_of_triple (S.prefill_triple himp' ⟨hstream.batch, hne, hfits⟩ (hlen all hne) 0)
      (fun t h => h.filling.1.toKept) rfl

end PagedSession

/-! ## Static globals -/

/-- A static context computes `g`: `At tokens` is what it holds behind `tokens`. -/
structure StaticRuns (g : AttentionGraph F Hid Query Row Out) [DecidableEq F] (maxKv : Nat) (ctx : Context F D)
    (At : List Int → D → Prop) : Prop where
  prefill : ∀ {tokens more : List Int}, tokens ≠ [] → (tokens ++ more).length ≤ maxKv →
    Triple (fun _ => True) (ctx.invokePrefill (tokens ++ more) ((tokens.length : Int) - 1))
      (fun logits d => At tokens d ∧ logits = g.logits tokens) (fun _ => False)
  decode : ∀ {tokens : List Int} {token : Int} {bias : List F},
    AttentionGraph.BiasAt maxKv tokens.length bias → tokens.length < maxKv →
    Triple (At tokens) (ctx.invokeDecode token tokens.length bias)
      (fun logits d => At (tokens ++ [token]) d ∧ logits = g.logits (tokens ++ [token])) (fun _ => False)

section static

variable [DecidableEq F] {maxKv : Nat}

theorem staticContext_runs (g : AttentionGraph F Hid Query Row Out) (maxKv : Nat) :
    StaticRuns g maxKv (g.staticContext maxKv) (g.GlobalRows maxKv) where
  prefill hne hwindow globals _ := (AttentionGraph.staticPrefill_eq hne hwindow globals).symm
  decode hbias hroom _ h := (AttentionGraph.staticDecode_eq _ hbias hroom h).symm

/-- The audited context holds the rows, and a causal record of the queries. -/
theorem auditedContext_runs (g : AttentionGraph F Hid Query Row Out) (maxKv : Nat) :
    StaticRuns g maxKv (g.auditedContext maxKv)
      (fun tokens d => g.GlobalRows maxKv tokens d.1 ∧ g.CausalAudit tokens d.2) where
  prefill := by
    intro tokens more hne hwindow d _
    have hpos : 0 < tokens.length := List.length_pos_iff.2 hne
    obtain ⟨hlogits, hrows⟩ := AttentionGraph.staticPrefill_eq (g := g) hne hwindow d.1
    have hn : ((tokens.length : Int) - 1).toNat + 1 = tokens.length := by omega
    refine ⟨⟨hrows, ?_⟩, hlogits⟩
    rw [hn]
    exact AttentionGraph.prefillAudit_causal hwindow d.1
  decode := by
    intro tokens token bias hbias hroom d ⟨h, haudit⟩
    obtain ⟨hlogits, hrows⟩ := AttentionGraph.staticDecode_eq token hbias hroom h
    exact ⟨⟨hrows, AttentionGraph.decodeAudit_causal hbias hroom h haudit⟩, hlogits⟩

/-- The host's bias hides exactly the positions behind the decode's. -/
theorem biasAt_fillCausalAttnBias (position : Nat) {maxKv : Nat} (hkv : 1 ≤ maxKv) :
    AttentionGraph.BiasAt maxKv position (fillCausalAttnBias F position maxKv) := by
  intro j hj
  have hmax : max maxKv 1 = maxKv := Nat.max_eq_left hkv
  have hj' : (List.range maxKv)[j]? = some j := List.getElem?_range hj
  rw [fillCausalAttnBias, hmax, List.getElem?_map, hj', Option.map_some]
  split
  · next h =>
    have hne : (HostFloat.masked == (HostFloat.zero : F)) = false := by
      simpa using HostFloat.masked_ne_zero
    simp only [Option.some_beq_some, hne]
    exact (decide_eq_false (by omega)).symm
  · next h =>
    simp only [beq_self_eq_true]
    exact (decide_eq_true (by omega)).symm

/-- A window begins with the prompt it is made of. -/
theorem windowFromTokens_eq {tokens : List TokenId} (hne : tokens ≠ []) (hfits : tokens.length ≤ s.prefillWindow) :
    s.windowFromTokens tokens =
      (tokens.map tokenI64 ++ List.replicate (s.prefillWindow - tokens.length) (tokenI64 s.padTokenId),
        ((tokens.map tokenI64).length : Int) - 1) := by
  have hpos : 0 < tokens.length := List.length_pos_iff.2 hne
  rw [windowFromTokens, Nat.min_eq_left hfits, if_neg (by omega), List.take_length, insertSlice, List.take_zero, List.nil_append,
    Nat.zero_add, List.length_map, List.drop_replicate]

/-- Behind an operation that went through: the session is at the end of `tokens`, which its globals
hold. -/
structure StaticSettled (At : List Int → D → Prop) (tokens : List TokenId) (t : SessionState D) : Prop where
  position : t.position = tokens.length
  history : t.history = tokens
  held : At (tokens.map tokenI64) t.context

/-- The session is one of a static module whose window fits its globals. -/
structure StaticSession (s : IreeSession) : Prop where
  storage : s.kv.storage = .staticGlobals
  window : s.prefillWindow ≤ max s.kv.maxSequenceLength 1

theorem StaticSession.pagedGeometry_eq (h : StaticSession s) : s.pagedGeometry = none := by
  simp [IreeSession.pagedGeometry, h.storage]

variable {ctx : Context F D} {At : List Int → D → Prop} {tokens : List TokenId} (hs : StaticSession s)
  (hruns : StaticRuns g (max s.kv.maxSequenceLength 1) ctx At) (hbatch : s.config.batchSize = 1)
  (hvocab : ∀ h, (g.head h).length = s.vocabularySize)
include hs hruns hbatch hvocab

theorem prefill_static (hne : tokens ≠ []) (hwindow : tokens.length ≤ s.prefillWindow)
    (hfits : tokens.length ≤ s.maxSeq) :
    Triple (fun _ => True) (prefill ctx s tokens)
      (fun logits t => StaticSettled At tokens t ∧ logits = g.logits (tokens.map tokenI64)) (fun _ => False) := by
  have hlen := length_logits hvocab (show tokens.map tokenI64 ≠ [] by simpa using hne)
  have hroom : (tokens.map tokenI64 ++ List.replicate (s.prefillWindow - tokens.length)
      (tokenI64 s.padTokenId)).length ≤ max s.kv.maxSequenceLength 1 := by
    have hle := hs.window
    rw [List.length_append, List.length_map, List.length_replicate]
    omega
  simp only [prefill, prefillValues, hs.pagedGeometry_eq, windowFromTokens_eq hne hwindow]
  refine Triple.pass (by simpa using hbatch) (Triple.pass (by simpa using hne) (Triple.pass (by simpa using hwindow)
    (Triple.pass (by simpa using hfits) ?_)))
  refine Triple.of_forall fun t _ => ?_
  refine Triple.bind (Triple.modify (Q := fun _ t' => t'.position = t.position ∧ t'.history = tokens ∧ True) ?_)
    fun _ => ?_
  · intro t' heq
    subst heq
    exact ⟨rfl, rfl, trivial⟩
  refine Triple.bind ((onContext_triple (hruns.prefill (by simpa using hne) hroom) t.position tokens).conseq
    (fun _ h => h) (fun _ _ h => h) fun _ h => h.2.2) fun logits => ?_
  refine Triple.of_forall fun t' ht' => ?_
  obtain ⟨_, hhist, hat, hlogits⟩ := ht'
  subst hlogits
  refine Triple.pass (by simpa using hlen) ?_
  refine Triple.bind (Triple.modify (Q := fun _ => StaticSettled At tokens) ?_) fun _ =>
    Triple.pure fun t h => ⟨h, rfl⟩
  intro t'' heq
  subst heq
  exact ⟨rfl, hhist, hat⟩

theorem decode_static {token : TokenId} (hfits : tokens.length < s.maxSeq) :
    Triple (StaticSettled At tokens) (decode ctx s token)
      (fun logits t => StaticSettled At (tokens ++ [token]) t ∧
        logits = g.logits ((tokens ++ [token]).map tokenI64)) (fun _ => False) := by
  have hmap : (tokens ++ [token]).map tokenI64 = tokens.map tokenI64 ++ [tokenI64 token] := by simp
  have hlen := length_logits hvocab (show (tokens ++ [token]).map tokenI64 ≠ [] by simp)
  have hroom : (tokens.map tokenI64).length < max s.kv.maxSequenceLength 1 := by
    rw [List.length_map]
    exact Nat.lt_of_lt_of_le hfits (Nat.min_le_right _ _)
  have hbias := biasAt_fillCausalAttnBias (F := F) (tokens.map tokenI64).length
    (Nat.le_max_right s.kv.maxSequenceLength 1)
  unfold decode
  refine Triple.pass (by simpa using hbatch) ?_
  refine Triple.of_forall fun t hsettled => ?_
  have hposition : t.position = (tokens.map tokenI64).length := by rw [hsettled.position, List.length_map]
  unfold checkDecodePosition
  rw [bind_assoc]
  refine (get_triple t).bind fun t₀ => Triple.assume fun heq => ?_
  obtain rfl := heq
  refine Triple.pass (by simpa [hposition] using hfits) ?_
  refine (get_triple t₀).bind fun t₁ => Triple.assume fun heq => ?_
  obtain rfl := heq
  simp only [decodeValues, hs.pagedGeometry_eq, hposition]
  refine Triple.bind ((onContext_triple (hruns.decode hbias hroom) t₁.position t₁.history).conseq ?_
    (fun _ _ h => h) fun _ h => h.2.2) fun logits => ?_
  · intro t' heq
    subst heq
    exact ⟨rfl, rfl, hsettled.held⟩
  refine Triple.of_forall fun t' ht' => ?_
  obtain ⟨hpos', hhist', hat, hlogits⟩ := ht'
  rw [← hmap] at hat hlogits
  subst hlogits
  refine Triple.pass (by simpa using hlen) ?_
  refine Triple.bind (Triple.modify (Q := fun _ => StaticSettled At (tokens ++ [token])) ?_)
    fun _ => Triple.pure fun t h => ⟨h, rfl⟩
  intro t'' heq
  subst heq
  refine ⟨?_, by rw [hhist', hsettled.history], hat⟩
  rw [hpos', hsettled.position, List.length_append]
  rfl

/-- Both ways give the graph's logits, where the window admits them, and leave what `At` says. -/
theorem returns_static {prompt continuation : List TokenId} (hne : prompt ≠ [])
    (hfits : prompt.length + continuation.length ≤ s.maxSeq) (hwindow : prompt.length ≤ s.prefillWindow) (t : SessionState D) :
    let all := prompt ++ continuation
    Returns (stream ctx s prompt continuation) t (g.logits (all.map tokenI64)) (At (all.map tokenI64)) ∧
      (all.length ≤ s.prefillWindow →
        Returns (prefill ctx s all) t (g.logits (all.map tokenI64)) (At (all.map tokenI64))) := by
  intro all
  constructor
  · exact returns_of_triple (stream_triple (A := fun tokens _ => StaticSettled At tokens)
      (f := fun tokens => g.logits (tokens.map tokenI64))
      (fun tokens token n hroom => decode_static hs hruns hbatch hvocab hroom)
      (prefill_static hs hruns hbatch hvocab hne hwindow (Nat.le_trans (Nat.le_add_right _ _) hfits)) hfits)
      (fun t h => h.held) trivial
  · intro hall
    exact returns_of_triple (prefill_static hs hruns hbatch hvocab (by simp [all, hne]) hall
      (by simpa [all] using hfits)) (fun t h => h.held) trivial

end static

/-! ## Both -/

/-- **Streaming equals recomputation.** Of every attention-only graph, every prompt and every
continuation within capacity, whether attention runs at once or page by page: over the paged storage of
any page size and chunk width, from whatever state a run has left, and over the static globals, from any
state, the logits of prefilling the prompt and decoding the continuation are those of prefilling the
whole, which are those of the graph's recomputation. Both ways leave its K/V rows. And in every layer
the queries of both ways, one for each position `q` in order, attend to the rows of positions `0..q`. -/
theorem streaming_recomputes [DecidableEq F] (g : AttentionGraph F Hid Query Row Out)
    (prompt continuation : List TokenId) :
    let all := prompt ++ continuation
    let tokens := all.map tokenI64
    (∀ (shape : PagedShape) (chunkSize : Nat) (S : PagedSession (g.pagedExecutable shape) shape chunkSize),
      Streamable g S.session prompt continuation →
      let ctx := Shim.context (g.pagedExecutable shape)
      let left := fun d : Shim Row Unit =>
        ∀ l < g.layers.length, (d.planes l).take tokens.length = g.layerRows tokens l
      Returns (stream ctx S.session prompt continuation) S.state (g.logits tokens) left ∧
        Returns (prefill ctx S.session all) S.state (g.logits tokens) left) ∧
    (∀ (shape : PagedShape) (chunkSize : Nat) (S : PagedSession (g.auditedExecutable shape) shape chunkSize),
      Streamable g S.session prompt continuation →
      let ctx := Shim.context (g.auditedExecutable shape)
      let left := fun d : Shim Row (Audit Row) => g.CausalAudit tokens d.recurrent
      Returns (stream ctx S.session prompt continuation) S.state (g.logits tokens) left ∧
        Returns (prefill ctx S.session all) S.state (g.logits tokens) left) ∧
    ∀ s, StaticSession s → Streamable g s prompt continuation → prompt.length ≤ s.prefillWindow →
      let maxKv := max s.kv.maxSequenceLength 1
      (∀ t, Returns (stream (g.staticContext maxKv) s prompt continuation) t (g.logits tokens)
          (g.GlobalRows maxKv tokens) ∧
        (all.length ≤ s.prefillWindow →
          Returns (prefill (g.staticContext maxKv) s all) t (g.logits tokens) (g.GlobalRows maxKv tokens))) ∧
      ∀ t, Returns (stream (g.auditedContext maxKv) s prompt continuation) t (g.logits tokens)
          (fun d => g.CausalAudit tokens d.2) ∧
        (all.length ≤ s.prefillWindow →
          Returns (prefill (g.auditedContext maxKv) s all) t (g.logits tokens)
            (fun d => g.CausalAudit tokens d.2)) := by
  intro all tokens
  refine ⟨fun shape chunkSize S hstream => ?_, fun shape chunkSize S hstream => ?_,
    fun s hs hstream hwindow => ⟨fun t => ?_, fun t => ?_⟩⟩
  · have hne : tokens ≠ [] := by simp [tokens, all, hstream.nonEmpty]
    have himp := pagedExecutable_implements g S.page_pos S.numPages_pos S.width
    obtain ⟨h₁, h₂⟩ := S.returns himp hstream fun ts hts => by
      rw [(AttentionGraph.outputs_tokenProgram hts).1]
      exact length_logits hstream.vocab hts
    have hleft : ∀ d, Kept g.tokenProgram S.session S.poolConfig tokens d →
        ∀ l < g.layers.length, (d.planes l).take tokens.length = g.layerRows tokens l := by
      intro d hd l hl
      rw [hd.rows l hl, AttentionGraph.produced_tokenProgram]
    rw [(AttentionGraph.outputs_tokenProgram hne).1] at h₁ h₂
    exact ⟨h₁.imp hleft, h₂.imp hleft⟩
  · have hne : tokens ≠ [] := by simp [tokens, all, hstream.nonEmpty]
    have himp := AttentionGraph.auditedExecutable_implements g S.page_pos S.numPages_pos S.width
    obtain ⟨h₁, h₂⟩ := S.returns himp hstream fun ts hts => by
      rw [AttentionGraph.logits_audited hts]
      exact length_logits hstream.vocab hts
    have hleft : ∀ d, Kept g.auditedProgram S.session S.poolConfig tokens d → g.CausalAudit tokens d.recurrent := by
      intro d hd
      rw [hd.recurrent hne]
      exact AttentionGraph.audit_produced tokens
    rw [AttentionGraph.logits_audited hne] at h₁ h₂
    exact ⟨h₁.imp hleft, h₂.imp hleft⟩
  · obtain ⟨h₁, h₂⟩ := returns_static hs (staticContext_runs g _) hstream.batch hstream.vocab hstream.nonEmpty
      hstream.fits hwindow t
    exact ⟨h₁, h₂⟩
  · obtain ⟨h₁, h₂⟩ := returns_static hs (auditedContext_runs g _) hstream.batch hstream.vocab hstream.nonEmpty
      hstream.fits hwindow t
    exact ⟨h₁.imp fun _ => And.right, fun hall => (h₂ hall).imp fun _ => And.right⟩

/-- One layer over whole numbers: the query and its position, added to the rows it sees. -/
def sumGraph : AttentionGraph Nat Nat Nat Nat Nat where
  embed := Int.toNat
  layers :=
    [{ query := fun h i => h + i, row := fun h i => 10 * h + i, attend := fun q rows => q + rows.sum
       finish := fun h o => h + o }]
  head h := List.replicate 8 h
  zeroRow := 0

/-- Pages of two rows for `pagedManifest`. -/
def sumShape : PagedShape := { page := 2, numPages := 2, flash := false }

/-- A session of `pagedManifest` just made. -/
def sumPaged {ρ : Type} (exe : ChunkExecutable Nat Nat ρ) (recurrent : ρ) : PagedSession exe sumShape 2 where
  metadata := { vocabularySize := 8 }
  manifest := pagedManifest 2 2 2
  config := {}
  opened := Shim.opened recurrent []
  session := pagedSession 2 2 2
  created := .new { Shim.opened recurrent [] with config := sessionPoolConfig (pagedManifest 2 2 2) 8 2 2 }
  ops := []
  storage := rfl
  window := rfl
  width := by decide
  fresh := rfl
  made := rfl
  compiled := rfl
  planes := rfl
  pool := ⟨_, rfl⟩
  quiet _ := fun fault hf => by simp [runOps, Shim.opened, SessionState.new] at hf

/-- The same geometry on static globals. -/
def sumStatic : IreeSession :=
  .new { vocabularySize := 8 } {} { (pagedManifest 2 2 2).kvCache with storage := .staticGlobals } 4

theorem streaming_recomputes_two :
    Returns (stream (Shim.context (sumGraph.pagedExecutable sumShape)) (pagedSession 2 2 2) [5, 6, 1] [7])
        (sumPaged (sumGraph.pagedExecutable sumShape) ()).state (sumGraph.logits [5, 6, 1, 7])
        (fun d => ∀ l < 1, (d.planes l).take 4 = sumGraph.layerRows [5, 6, 1, 7] l) ∧
      Returns (prefill (Shim.context (sumGraph.auditedExecutable sumShape)) (pagedSession 2 2 2) [5, 6, 1, 7])
        (sumPaged (sumGraph.auditedExecutable sumShape) fun _ => []).state (sumGraph.logits [5, 6, 1, 7])
        (fun d => sumGraph.CausalAudit [5, 6, 1, 7] d.recurrent) ∧
      Returns (stream (sumGraph.staticContext 4) sumStatic [5, 6, 1] [7]) (.new fun _ => [])
        (sumGraph.logits [5, 6, 1, 7]) (sumGraph.GlobalRows 4 [5, 6, 1, 7]) :=
  have both := streaming_recomputes sumGraph [5, 6, 1] [7]
  ⟨(both.1 sumShape 2 (sumPaged _ ()) ⟨rfl, by decide, by decide, fun _ => rfl⟩).1,
    (both.2.1 sumShape 2 (sumPaged _ fun _ => []) ⟨rfl, by decide, by decide, fun _ => rfl⟩).2,
    ((both.2.2 sumStatic ⟨rfl, by decide⟩ ⟨rfl, by decide, by decide, fun _ => rfl⟩ (by decide)).1 _).1⟩

end Dyninfer
