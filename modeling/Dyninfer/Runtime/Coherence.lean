/-
Whether a session's history, position and KV rows speak of the same tokens
behind every operation, under every pattern of failures.

`prefill` replaces the history, clears the planes and fills them chunk by
chunk, and moves the position only when all of it has succeeded. So a prefill
that fails once it has passed its guards leaves a history that is not the
position's, over rows that are cleared or belong to another prompt, and the
next decode is accepted at the old position. `reset` gives the planes back
when one cannot be cleared, and returns before it moves the position.

Everything else is harmless: a refused operation changes nothing, and a decode
that fails has touched row `position` alone. So a run in which every admitted
prefill goes through, and no reset past position 0 loses its planes, is
coherent behind each of its operations. A module with recurrent state needs
one more thing: it cannot take back a token it has rolled into that state.
-/
import Dyninfer.Runtime.PlaneGeometry
import Dyninfer.Runtime.TokenProgram

namespace Dyninfer

open Effect Rows IreeSession TokenProgram

variable {F Row ρ : Type}

/-- What the context holds for the next decode: a pool in shape, present once there is anything to
keep, with the rows and the recurrent state of `tokens`. -/
structure Kept (p : TokenProgram F Row ρ) (s : IreeSession) (cfg : KvPoolConfig) (tokens : List Int)
    (d : Shim Row ρ) : Prop where
  shaped : PoolShaped cfg (s.maxPages cfg.pageSize) d
  pool : tokens ≠ [] → d.layerN ≠ 0
  rows : ∀ l < p.layers, (d.planes l).take tokens.length = (p.produced tokens).2 l
  recurrent : tokens ≠ [] → d.recurrent = (p.produced tokens).1

/-- The same over a pool that is there: what an invocation needs. -/
structure Filled (p : TokenProgram F Row ρ) (s : IreeSession) (cfg : KvPoolConfig) (tokens : List Int)
    (d : Shim Row ρ) : Prop extends Kept p s cfg tokens d where
  present : d.layerN ≠ 0

/-- What carries coherence through a run. -/
structure SessionInv (p : TokenProgram F Row ρ) (s : IreeSession) (cfg : KvPoolConfig)
    (t : SessionState (Shim Row ρ)) : Prop where
  length : t.history.length = t.position
  fits : t.position ≤ s.maxSeq
  kept : Kept p s cfg (t.history.map tokenI64) t.context

variable {p : TokenProgram F Row ρ} {exe : ChunkExecutable F Row ρ} {s : IreeSession} {cfg : KvPoolConfig}

/-- The pages a session asks for hold all the positions it admits. -/
theorem maxSeq_le_rows {pageSize : Nat} (hp : 0 < pageSize) : s.maxSeq ≤ s.maxPages pageSize * pageSize := by
  have hdiv : s.maxSeq < (s.maxSeq + pageSize - 1) / pageSize * pageSize + pageSize := by
    have := Nat.lt_div_mul_add (a := s.maxSeq + pageSize - 1) hp
    omega
  have hle : (s.maxSeq + pageSize - 1) / pageSize * pageSize ≤ s.maxPages pageSize * pageSize :=
    Nat.mul_le_mul_right _ (Nat.le_max_left _ _)
  have hmod := Nat.div_add_mod (s.maxSeq + pageSize - 1) pageSize
  have hlt := Nat.mod_lt (s.maxSeq + pageSize - 1) hp
  rw [Nat.mul_comm] at hmod
  omega

theorem Kept.spent {tokens : List Int} {d : Shim Row ρ} (h : Kept p s cfg tokens d) :
    Kept p s cfg tokens d.spent :=
  ⟨h.shaped.spent, by simpa using h.pool, by simpa using h.rows, by simpa using h.recurrent⟩

theorem Kept.holds {tokens : List Int} {d : Shim Row ρ} (h : Kept p s cfg tokens d) (hn : d.layerN ≠ 0) :
    Shim.Holds (s.maxPages cfg.pageSize) d := by
  refine ⟨?_, Nat.le_of_eq (h.shaped.planes hn).1.symm⟩
  rw [h.shaped.config]
  exact h.shaped.layers.resolve_left hn

/-- Of no tokens, any pool in shape keeps all there is. -/
theorem Kept.nil {d : Shim Row ρ} (h : PoolShaped cfg (s.maxPages cfg.pageSize) d) : Kept p s cfg [] d :=
  ⟨h, fun hne => absurd rfl hne, fun _ _ => rfl, fun hne => absurd rfl hne⟩

theorem Filled.zero {d : Shim Row ρ} (hshaped : PoolShaped cfg (s.maxPages cfg.pageSize) d)
    (hpresent : d.layerN ≠ 0) : Filled p s cfg [] d :=
  ⟨.nil hshaped, hpresent⟩

/-- The module does on the session's planes what `p` says. -/
abbrev Runs (p : TokenProgram F Row ρ) (s : IreeSession) (cfg : KvPoolConfig) (exe : ChunkExecutable F Row ρ) :
    Prop :=
  p.Implements (s.maxPages cfg.pageSize * cfg.pageSize) cfg.chunkSize exe

/-- An invocation that runs at the end of `tokens`: its outputs, and the rows of `tokens ++ more`. -/
theorem Filled.run (himp : Runs p s cfg exe) {tokens more : List Int} {d : Shim Row ρ}
    (h : Filled p s cfg tokens d) {window : List Int} {last : Nat}
    (hwidth : window.length = cfg.chunkSize ∨ window.length = 1) (hlast : last < window.length)
    (hmore : window.take (last + 1) = more)
    (hroom : tokens.length + more.length ≤ s.maxPages cfg.pageSize * cfg.pageSize) :
    (exe.run window last tokens.length d.recurrent d.planes).logits = p.logits (tokens ++ more) ∧
      (exe.run window last tokens.length d.recurrent d.planes).token = p.token (tokens ++ more) ∧
      Filled p s cfg (tokens ++ more)
        { d.spent with
          planes := (exe.run window last tokens.length d.recurrent d.planes).planes
          recurrent := (exe.run window last tokens.length d.recurrent d.planes).recurrent } := by
  subst hmore
  have hrows := (h.shaped.planes h.present).2
  rw [List.length_take] at hroom
  obtain ⟨⟨hlogits, htoken⟩, htake, hrec⟩ := himp.run hwidth hlast hrows (by omega) h.rows h.recurrent
  refine ⟨hlogits, htoken, ⟨?_, fun _ => by simpa using h.present, htake, fun _ => hrec⟩, by simpa using h.present⟩
  exact h.shaped.replace (by simp) (by simp) (by simp) fun l => (himp.keeps _ _ _ _ _ hrows l).trans (hrows l).symm

/-! ## A chunked prefill that nothing disturbs -/

/-- The prompt so far on the planes, and no fault in the next `n` calls. -/
def Filling (p : TokenProgram F Row ρ) (s : IreeSession) (cfg : KvPoolConfig) (tokens : List Int) (n : Nat)
    (d : Shim Row ρ) : Prop :=
  Filled p s cfg tokens d ∧ d.Quiet n

/-- A chunk that fits its window is presented whole and accepted. -/
def Presents (s : IreeSession) (chunkSize : Nat) (tokens : List TokenId) : Prop :=
  (s.prefillWindow = chunkSize ∨ s.prefillWindow = 1) ∧
    (chunkSize ≤ s.prefillWindow ∨ tokens.length ≤ s.prefillWindow)

theorem invoke_filling (himp : Runs p s cfg exe) {tokens more : List Int} {window : List Int} {last start : Int} {n : Nat}
    {wantLogits : Bool} (haccept : Shim.acceptsChunk cfg.chunkSize window last start = true)
    (hstart : start = tokens.length) (hmore : window.take (last.toNat + 1) = more)
    (hroom : tokens.length + more.length ≤ s.maxPages cfg.pageSize * cfg.pageSize) :
    Triple (Filling p s cfg tokens (n + 1))
      (Shim.invokePagedChunk exe window last start wantLogits)
      (fun r d => Filling p s cfg (tokens ++ more) n d ∧
        r.2 = p.token (tokens ++ more) ∧
        r.1 = if wantLogits then some (p.logits (tokens ++ more)) else none)
      (fun _ => False) := by
  subst hstart
  intro d ⟨hfilled, hquiet⟩
  obtain ⟨hnone, hquiet'⟩ := hquiet.spent
  obtain ⟨hwidth, hrange⟩ := acceptsChunk_iff.1 haccept
  obtain ⟨hlogits, htoken, hnew⟩ := hfilled.run himp hwidth (show last.toNat < window.length by omega) hmore hroom
  rw [Shim.invokePagedChunk_quiet hquiet (by rw [hfilled.shaped.config]; exact haccept) hfilled.present]
  simp only [Int.toNat_natCast]
  exact ⟨⟨hnew, hquiet'.of_faults rfl⟩, htoken, by rw [hlogits]⟩

theorem keepLogits_filling {P : Shim Row ρ → Prop} {wantLogits : Bool} {chunkLogits : Option (List F)}
    {values old : List F} (h : chunkLogits = if wantLogits then some values else none) :
    Triple P (keepLogits wantLogits chunkLogits old)
      (fun v d => P d ∧ v = if wantLogits then values else old) (fun _ => False) := by
  subst h
  cases wantLogits with
  | true => exact Triple.pure fun d hd => ⟨hd, rfl⟩
  | false => exact Triple.pure fun d hd => ⟨hd, rfl⟩

section chunks

variable {chunkSize : Nat} (himp : Runs p s cfg exe) (hc : 0 < chunkSize) (hcfg : cfg.chunkSize = chunkSize)
  (hw : 0 < s.prefillWindow)
include himp hc hcfg hw

/-- The call for the first chunk of `rest`, behind `pre`: accepted, and what it presents. -/
theorem firstChunk_filling {n i : Nat} {pre : List Int} {rest : List TokenId} {wantLogits : Bool}
    (hne : rest ≠ []) (hfits : Presents s chunkSize rest) (hpre : pre.length = i * chunkSize)
    (hroom : pre.length + rest.length ≤ s.maxPages cfg.pageSize * cfg.pageSize) :
    Triple (Filling p s cfg pre (n + 1))
      (Shim.invokePagedChunk exe (s.windowFromTokens (rest.take chunkSize)).1
        (s.windowFromTokens (rest.take chunkSize)).2 ((i * chunkSize : Nat) : Int) wantLogits)
      (fun r d => Filling p s cfg (pre ++ (rest.take chunkSize).map tokenI64) n d ∧
        r.2 = p.token (pre ++ (rest.take chunkSize).map tokenI64) ∧
        r.1 = if wantLogits then some (p.logits (pre ++ (rest.take chunkSize).map tokenI64))
          else none)
      (fun _ => False) := by
  have hpos : 0 < rest.length := List.length_pos_iff.2 hne
  have htake : (rest.take chunkSize).length = min chunkSize rest.length := List.length_take
  have hchunk : rest.take chunkSize ≠ [] := by
    rw [ne_eq, ← List.length_eq_zero_iff]; omega
  have hself : (rest.take chunkSize).take s.prefillWindow = rest.take chunkSize :=
    List.take_of_length_le (by have := hfits.2; omega)
  have hpresented := presented_chunkCall s chunkSize i hchunk hw
  rw [hself] at hpresented
  refine invoke_filling himp (by rw [hcfg]; exact (chunkCall_accepted (i := i) hw).2 hfits.1) (by rw [hpre]) ?_ ?_
  · rw [← hpresented, ChunkCall.presented]
    simp only [chunkCall, window_last]
    congr 1
  · rw [List.length_map]
    omega

/-- The chunk loop of `prefill` over what is left of the prompt. -/
theorem prefillChunks_filling {total n : Nat} (rest : List TokenId) :
    ∀ (i : Nat) (pre : List Int) (logits : List F), Presents s chunkSize rest →
      (rest ≠ [] → pre.length = i * chunkSize) → i + (chunks chunkSize rest).length = total →
      pre.length + rest.length ≤ s.maxPages cfg.pageSize * cfg.pageSize →
      Triple (Filling p s cfg pre ((chunks chunkSize rest).length + n))
        (prefillChunks (Shim.context exe) s chunkSize total i (chunks chunkSize rest) logits)
        (fun values d => Filling p s cfg (pre ++ rest.map tokenI64) n d ∧
          (values = p.logits (pre ++ rest.map tokenI64) ∨ (rest = [] ∧ values = logits)))
        (fun _ => False) := by
  induction rest using chunks_induction hc with
  | nil =>
    intro i pre logits _ _ _ _
    rw [chunks_nil]
    refine Triple.pure fun d hd => ⟨?_, .inr ⟨rfl, rfl⟩⟩
    simpa using hd
  | cons rest hne ih =>
    intro i pre logits hfits hpre htotal hroom
    have hlen : (chunks chunkSize rest).length = (chunks chunkSize (rest.drop chunkSize)).length + 1 := by
      rw [chunks_cons hc hne, List.length_cons]
    have hfits' : Presents s chunkSize (rest.drop chunkSize) :=
      ⟨hfits.1, by have := hfits.2; rw [List.length_drop]; omega⟩
    have hsplit : pre ++ (rest.take chunkSize).map tokenI64 ++ (rest.drop chunkSize).map tokenI64 =
        pre ++ rest.map tokenI64 := by
      rw [List.append_assoc, ← List.map_append, List.take_append_drop]
    rw [hlen] at htotal
    rw [hlen, chunks_cons hc hne, Nat.add_right_comm]
    unfold prefillChunks
    refine (firstChunk_filling himp hc hcfg hw hne hfits (hpre hne) hroom).bind fun r => ?_
    refine Triple.bind (Q := fun logits' d => Filling p s cfg (pre ++ (rest.take chunkSize).map tokenI64)
      ((chunks chunkSize (rest.drop chunkSize)).length + n) d ∧
      logits' = if i + 1 == total then p.logits (pre ++ (rest.take chunkSize).map tokenI64)
        else logits) ?_ fun logits' => ?_
    · exact Triple.of_forall fun d hd => (keepLogits_filling hd.2.2).conseq (fun d' hd' => hd' ▸ hd.1)
        (fun _ _ h => h) fun _ h => h
    · refine Triple.of_forall fun d hd => (ih (i + 1) _ logits' hfits' ?_ (by omega) ?_).conseq
        (fun d' hd' => hd' ▸ hd.1) ?_ fun _ h => h
      · intro hdrop
        have hmore : chunkSize < rest.length := by
          rw [ne_eq, ← List.length_eq_zero_iff, List.length_drop] at hdrop
          omega
        rw [List.length_append, List.length_map, List.length_take, hpre hne, Nat.succ_mul]
        omega
      · rw [List.length_append, List.length_map, List.length_take, List.length_drop]
        omega
      · intro values d' hvalues
        rw [hsplit] at hvalues
        refine ⟨hvalues.1, ?_⟩
        rcases hvalues.2 with h | ⟨hnil, h⟩
        · exact .inl h
        · -- This was the last chunk, so its logits were kept.
          refine .inl ?_
          rw [hnil, List.map_nil, List.append_nil] at hsplit
          rw [h, hd.2, hsplit, if_pos]
          rw [hnil, chunks_nil, List.length_nil] at htotal
          simpa using htotal

end chunks

/-! ## Prefills that nothing disturbs -/

/-- A prefill's guards let it through. -/
structure Admits (s : IreeSession) (tokens : List TokenId) : Prop where
  batch : s.config.batchSize = 1
  nonEmpty : tokens ≠ []
  fits : tokens.length ≤ s.maxSeq

/-- How many calls a prefill makes on its context. -/
def prefillCallCount (cfg : KvPoolConfig) (tokens : List TokenId) : Nat :=
  (chunks cfg.chunkSize tokens).length + 2

/-- The session's geometry is one under which an admitted prefill can go through: the pool's size does
not overflow, and windows carry the prompt's chunks. -/
structure Carries (s : IreeSession) (cfg : KvPoolConfig) (tokens : List TokenId) : Prop where
  bytes : ∃ planeBytes, cfg.planeBytes (s.maxPages cfg.pageSize) = .ok planeBytes
  presents : Presents s cfg.chunkSize tokens

/-- Calls in sequence on the context are one call. -/
theorem onContext_bind {D α β : Type} (x : EStateM DynInferError D α) (f : α → EStateM DynInferError D β) :
    onContext (x >>= f) = onContext x >>= fun a => onContext (f a) := by
  unfold onContext
  refine onPart_bind ?_ ?_ x f <;> intros <;> rfl

theorem expect_some {D α : Type} {P : D → Prop} (a : α) (message : String) :
    Triple P (expect (some a) message) (fun v d => v = a ∧ P d) (fun _ => False) :=
  Triple.pure fun _ h => ⟨rfl, h⟩

theorem get_triple {D : Type} {E : SessionState D → Prop} (t : SessionState D) :
    Triple (· = t) (get : EStateM DynInferError (SessionState D) (SessionState D))
      (fun a t' => a = t ∧ t' = t) E := by
  intro t' heq
  exact ⟨heq, heq⟩

/-- A call on the context leaves the session's own fields as they are. -/
theorem onContext_triple {D α : Type} {P E : D → Prop} {Q : α → D → Prop} {x : EStateM DynInferError D α}
    (h : Triple P x Q E) (position : Nat) (history : List TokenId) :
    Triple (fun t => t.position = position ∧ t.history = history ∧ P t.context) (onContext x)
      (fun a t => t.position = position ∧ t.history = history ∧ Q a t.context)
      (fun t => t.position = position ∧ t.history = history ∧ E t.context) := by
  intro t ⟨hpos, hhist, ht⟩
  have h' := h t.context ht
  rw [onContext, run_onPart]
  revert h'
  cases x.run t.context with
  | ok a d => exact fun h => ⟨hpos, hhist, h⟩
  | error e d => exact fun h => ⟨hpos, hhist, h⟩

section prefills

variable (hvalid : cfg.valid = true)
include hvalid

theorem cfg_pos : 0 < cfg.pageSize ∧ 0 < cfg.chunkSize ∧ cfg.layerCount ≠ 0 := by
  simp only [KvPoolConfig.valid, Bool.and_eq_true, bne_iff_ne] at hvalid
  omega

omit hvalid in
theorem maxPages_ne_zero (pageSize : Nat) : s.maxPages pageSize ≠ 0 := by
  unfold IreeSession.maxPages
  omega

omit hvalid in
theorem resetPagedKv_triple {pageCount n : Nat} (zeroRow : Row) :
    Triple (fun d : Shim Row ρ => PoolShaped cfg pageCount d ∧ d.Quiet (n + 1)) (Shim.resetPagedKv zeroRow)
      (fun _ d => PoolShaped cfg pageCount d ∧ d.Quiet n) (fun _ => False) := by
  intro d ⟨hshaped, hquiet⟩
  have hafter := resetPagedKv_shaped (ρ := ρ) zeroRow d hshaped
  have hq := hquiet.spent.2
  rw [Shim.resetPagedKv_quiet zeroRow hquiet] at hafter ⊢
  refine ⟨hafter, hq.of_faults ?_⟩
  split <;> rfl

theorem ensureKvPages_triple {n planeBytes : Nat} (hbytes : cfg.planeBytes (s.maxPages cfg.pageSize) = .ok planeBytes) :
    Triple (fun d : Shim Row ρ => PoolShaped cfg (s.maxPages cfg.pageSize) d ∧ d.Quiet (n + 1))
      (Shim.ensureKvPages exe.zeroRow (s.maxPages cfg.pageSize))
      (fun _ => Filling p s cfg [] n) (fun _ => False) := by
  intro d ⟨hshaped, hquiet⟩
  obtain ⟨hpage, -, hlayers⟩ := cfg_pos hvalid
  have hafter := ensureKvPages_shaped (ρ := ρ) exe.zeroRow d hshaped
  have hq := hquiet.spent.2
  rcases Shim.ensureKvPages_quiet exe.zeroRow hquiet (by rw [hshaped.config]; omega) (maxPages_ne_zero _)
    (by rw [hshaped.config]; exact hbytes) with ⟨hrun, hholds⟩ | hrun <;> rw [hrun] at hafter ⊢
  · refine ⟨Filled.zero hafter ?_, hq⟩
    rw [Shim.spent_layerN, hholds.1, hshaped.config]
    exact hlayers
  · refine ⟨Filled.zero hafter ?_, hq.of_faults rfl⟩
    simp only [Shim.allocate, Shim.release, Shim.spent_config, hshaped.config]
    exact hlayers

/-- A pool that is there stays as it is. -/
theorem ensureKvPages_filling (tokens : List Int) (n : Nat) (zeroRow : Row) :
    Triple (Filling p s cfg tokens (n + 1)) (Shim.ensureKvPages zeroRow (s.maxPages cfg.pageSize))
      (fun _ => Filling p s cfg tokens n) (fun _ => False) := by
  intro d ⟨hfilled, hquiet⟩
  have hpage := (cfg_pos hvalid).1
  rw [Shim.ensureKvPages_holds zeroRow hquiet (by rw [hfilled.shaped.config]; omega) (maxPages_ne_zero _)
    (hfilled.toKept.holds hfilled.present)]
  exact ⟨⟨hfilled.toKept.spent, by simpa using hfilled.present⟩, hquiet.spent.2⟩

omit hvalid in
theorem pagedGeometry_paged {pageSize chunkSize : Nat} (hs : s.kv.storage = .paged pageSize chunkSize) :
    s.pagedGeometry = some (pageSize, chunkSize) := by
  simp [IreeSession.pagedGeometry, hs]

/-- Behind an operation that went through: the session is at the end of `tokens`, which are on its
planes, and its next `n` calls meet no fault. -/
structure Settled (p : TokenProgram F Row ρ) (s : IreeSession) (cfg : KvPoolConfig) (tokens : List TokenId)
    (n : Nat) (t : SessionState (Shim Row ρ)) : Prop where
  position : t.position = tokens.length
  history : t.history = tokens
  filling : Filling p s cfg (tokens.map tokenI64) n t.context

/-- The planes are cleared, made sure of and filled, and the outputs pass their check. -/
theorem prefill_context_quiet {α β : Type} {tokens : List TokenId} {m n planeBytes : Nat} {V : β → Prop}
    {g : EStateM DynInferError (Shim Row ρ) β} {c : β → Bool} {e : β → DynInferError} {r : β → α}
    (hbytes : cfg.planeBytes (s.maxPages cfg.pageSize) = .ok planeBytes)
    (hg : Triple (Filling p s cfg [] m) g (fun v d => Filling p s cfg (tokens.map tokenI64) n d ∧ V v)
      (fun _ => False)) (hc : ∀ v, V v → c v = true) (position : Nat) :
    Triple
      (fun t => t.position = position ∧ t.history = tokens ∧
        PoolShaped cfg (s.maxPages cfg.pageSize) t.context ∧ t.context.Quiet (m + 2))
      (onContext (Shim.resetPagedKv exe.zeroRow) >>= fun _ =>
        onContext (Shim.ensureKvPages exe.zeroRow (s.maxPages cfg.pageSize)) >>= fun _ =>
        onContext g >>= fun v => require (c v) (e v) >>= fun _ =>
        setPosition tokens.length >>= fun _ => pure (r v))
      (fun a t => Settled p s cfg tokens n t ∧ ∃ v, V v ∧ a = r v) (fun _ => False) := by
  have noError : ∀ t : SessionState (Shim Row ρ), t.position = position ∧ t.history = tokens ∧ False → False :=
    fun _ h => h.2.2
  refine Triple.bind ((onContext_triple (resetPagedKv_triple exe.zeroRow) _ _).conseq (fun _ h => h)
    (fun _ _ h => h) noError) fun _ => ?_
  refine Triple.bind ((onContext_triple (ensureKvPages_triple (p := p) hvalid hbytes) _ _).conseq (fun _ h => h)
    (fun _ _ h => h) noError) fun _ => ?_
  refine Triple.bind ((onContext_triple hg _ _).conseq (fun _ h => h) (fun _ _ h => h) noError) fun v => ?_
  refine Triple.of_forall fun t ⟨_, hhist, hfilled, hv⟩ => Triple.pass (hc v hv) ?_
  refine Triple.bind (Triple.modify (Q := fun _ => Settled p s cfg tokens n) ?_)
    fun _ => Triple.pure fun t' h => ⟨h, v, hv, rfl⟩
  intro t' heq
  subst heq
  exact ⟨rfl, hhist, hfilled⟩

variable (himp : Runs p s cfg exe) {pageSize chunkSize : Nat} (hs : s.kv.storage = .paged pageSize chunkSize)
  (hpage : cfg.pageSize = pageSize) (hchunk : cfg.chunkSize = chunkSize) (hw : 0 < s.prefillWindow)
  {tokens : List TokenId} (hadmits : Admits s tokens) (hcarries : Carries s cfg tokens)
include himp hs hpage hchunk hw hadmits hcarries

/-- A prefill that is let through and meets no fault returns the logits of its prompt. -/
theorem prefill_quiet [HostFloat F] (hlen : (p.logits (tokens.map tokenI64)).length = s.vocabularySize) {n : Nat} :
    Triple (fun t => PoolShaped cfg (s.maxPages cfg.pageSize) t.context ∧
        t.context.Quiet (prefillCallCount cfg tokens + n)) (prefill (Shim.context exe) s tokens)
      (fun values t => Settled p s cfg tokens n t ∧ values = p.logits (tokens.map tokenI64)) (fun _ => False) := by
  obtain ⟨⟨planeBytes, hbytes⟩, hpresents⟩ := hcarries
  have hpos := cfg_pos hvalid
  have hrows := maxSeq_le_rows (s := s) hpos.1
  subst hpage hchunk
  simp only [prefill, prefillValues, pagedGeometry_paged hs, bind_assoc]
  refine Triple.pass (by simpa using hadmits.batch) (Triple.pass (by simpa using hadmits.nonEmpty)
    (Triple.pass rfl (Triple.pass (by simpa using hadmits.fits) ?_)))
  refine Triple.of_forall fun t ⟨hshaped, hquiet⟩ => ?_
  refine Triple.bind (Triple.modify (Q := fun _ t' => t'.position = t.position ∧ t'.history = tokens ∧
    PoolShaped cfg (s.maxPages cfg.pageSize) t'.context ∧
      t'.context.Quiet ((chunks cfg.chunkSize tokens).length + n + 2)) ?_) fun _ => ?_
  · intro t' heq
    subst heq
    refine ⟨rfl, rfl, hshaped, ?_⟩
    rwa [prefillCallCount, Nat.add_right_comm] at hquiet
  · refine (prefill_context_quiet (V := fun values => values = p.logits (tokens.map tokenI64))
      (r := id) hvalid hbytes ?_ (fun values hvalues => by simpa [hvalues] using hlen) t.position).conseq
      (fun _ h => h) (fun values t' h => ⟨h.1, ?_⟩) fun _ h => h
    · refine (prefillChunks_filling himp hpos.2.1 rfl hw tokens 0 [] [] hpresents (by simp) (by simp)
        (by simpa using Nat.le_trans hadmits.fits hrows)).conseq (fun _ h => h) (fun values d h => ?_) fun _ h => h
      exact ⟨h.1, h.2.resolve_right fun hnil => hadmits.nonEmpty hnil.1⟩
    · obtain ⟨v, hv, rfl⟩ := h.2
      exact hv

omit hchunk hw hadmits hcarries in
/-- A decode that is let through and meets no fault returns the logits behind its token. -/
theorem decode_quiet [HostFloat F] {token : TokenId} (hbatch : s.config.batchSize = 1)
    (hroom : tokens.length < s.maxSeq)
    (hlen : (p.logits ((tokens ++ [token]).map tokenI64)).length = s.vocabularySize) {n : Nat} :
    Triple (Settled p s cfg tokens (n + 2)) (decode (Shim.context exe) s token)
      (fun values t => Settled p s cfg (tokens ++ [token]) n t ∧
        values = p.logits ((tokens ++ [token]).map tokenI64)) (fun _ => False) := by
  have hpos := cfg_pos hvalid
  have hrows := maxSeq_le_rows (s := s) hpos.1
  have hmap : (tokens ++ [token]).map tokenI64 = tokens.map tokenI64 ++ [tokenI64 token] := by simp
  subst hpage
  unfold decode
  refine Triple.pass (by simpa using hbatch) ?_
  refine Triple.of_forall fun t hsettled => ?_
  have hposition := hsettled.position
  unfold checkDecodePosition
  rw [bind_assoc]
  refine (get_triple t).bind fun t₀ => Triple.assume fun heq => ?_
  obtain rfl := heq
  refine Triple.pass (by simpa [hposition] using hroom) ?_
  refine (get_triple t₀).bind fun t₁ => Triple.assume fun heq => ?_
  obtain rfl := heq
  simp only [decodeValues, pagedGeometry_paged hs, bind_assoc, Context.invokePagedChunk, onContext_bind]
  have noError : ∀ t : SessionState (Shim Row ρ), t.position = t₁.position ∧ t.history = t₁.history ∧ False →
      False := fun _ h => h.2.2
  refine Triple.bind ((onContext_triple (ensureKvPages_filling (p := p) hvalid
    (tokens.map tokenI64) (n + 1) exe.zeroRow) t₁.position t₁.history).conseq ?_
    (fun _ _ h => h) noError) fun _ => ?_
  · intro t' heq
    subst heq
    exact ⟨rfl, rfl, hsettled.filling⟩
  refine Triple.bind ((onContext_triple (invoke_filling (n := n) himp ?_ ?_ (show _ = [tokenI64 token] from rfl) ?_)
    t₁.position t₁.history).conseq (fun _ h => h) (fun _ _ h => h) noError) fun r => ?_
  · exact acceptsChunk_iff.2 ⟨.inr rfl, by simp, by simp, by omega⟩
  · rw [hposition, List.length_map]
  · rw [List.length_map, List.length_singleton]
    omega
  refine Triple.of_forall fun t' ⟨hpos', hhist', hfilling, htoken, hlogits⟩ => ?_
  rw [hlogits, if_pos rfl]
  refine Triple.bind ((onContext_triple
    (expect_some (P := Filling p s cfg (tokens.map tokenI64 ++ [tokenI64 token]) n) _ _)
    t₁.position t₁.history).conseq ?_ (fun _ _ h => h) noError) fun values => ?_
  · intro t'' heq
    subst heq
    exact ⟨hpos', hhist', hfilling⟩
  refine Triple.of_forall fun t'' ⟨hpos'', hhist'', hvalues, hfilled⟩ => ?_
  subst hvalues
  rw [← hmap] at hfilled ⊢
  refine Triple.pass (by simpa using hlen) ?_
  refine Triple.bind (Triple.modify (Q := fun _ => Settled p s cfg (tokens ++ [token]) n) ?_)
    fun _ => Triple.pure fun t h => ⟨h, rfl⟩
  intro t heq
  subst heq
  refine ⟨?_, ?_, hfilled⟩
  · rw [hpos'', hposition, List.length_append]
    rfl
  · rw [hhist'', hsettled.history]

end prefills

end Dyninfer
