/-
The planes a session's invocations run on, against the planes the chunk
functions were compiled for.

The runtime sizes a plane from the session's own cap: as many pages as cover
`min(config, manifest)` positions. The compiler sizes it from the manifest's
`max_kv` alone. Every invocation of every run is on planes of the first size;
the two sizes agree exactly when the configured cap reaches into the last page
of the compiled ones.
-/
import Dyninfer.Runtime.ChunkGuards
import Dyninfer.Runtime.SessionRun
import Dyninfer.Runtime.ShimFacts

namespace Dyninfer

open Effect Rows

/-! ## The compiled size -/

/-- `num_pages` of the lowering. -/
def compiledPages (maxKv pageSize : Nat) : Nat :=
  max ((maxKv + pageSize - 1) / pageSize) 1

/-- `kv_len` of the lowering, a saturating `u32` product: the rows of every plane argument. -/
def compiledKvLen (maxKv pageSize : Nat) : Nat :=
  min (compiledPages maxKv pageSize * pageSize) u32Max

/-- The most positions `supports_dense_emit` admits with paged KV. -/
def maxPagedKv : Nat := 1048576

/-- Up to the emitter's limits the product does not saturate. -/
theorem compiledKvLen_eq {maxKv pageSize : Nat} (hkv : maxKv ≤ maxPagedKv) (hp : pageSize ≤ 2 ^ 31) :
    compiledKvLen maxKv pageSize = compiledPages maxKv pageSize * pageSize := by
  have hdiv : (maxKv + pageSize - 1) / pageSize * pageSize ≤ maxKv + pageSize - 1 := Nat.div_mul_le_self _ _
  have hle : compiledPages maxKv pageSize * pageSize ≤ maxKv + pageSize := by
    unfold compiledPages
    rcases Nat.le_total ((maxKv + pageSize - 1) / pageSize) 1 with h | h
    · rw [Nat.max_eq_right h]; omega
    · rw [Nat.max_eq_left h]; omega
  have hmax : maxPagedKv = 1048576 := rfl
  rw [compiledKvLen, u32Max]
  omega

theorem pages_mul_le_iff {n p k : Nat} (hp : 0 < p) : k ≤ (n + p - 1) / p ↔ k * p < n + p := by
  rw [Nat.le_div_iff_mul_le hp]
  omega

/-- The pages of a cap `min a b` are those of `b` exactly when `a` reaches into `b`'s last page. -/
theorem pages_min_eq_iff {a b p : Nat} (hp : 0 < p) (ha : 1 ≤ a) (hb : 1 ≤ b) :
    max ((min a b + p - 1) / p) 1 = max ((b + p - 1) / p) 1 ↔ (max ((b + p - 1) / p) 1 - 1) * p < a := by
  have hone : ∀ n, 1 ≤ n → max ((n + p - 1) / p) 1 = (n + p - 1) / p := by
    intro n hn
    exact Nat.max_eq_left ((pages_mul_le_iff hp).2 (by omega))
  rw [hone _ (by omega), hone b hb]
  have hb1 : 1 ≤ (b + p - 1) / p := (pages_mul_le_iff hp).2 (by omega)
  have hle : (min a b + p - 1) / p ≤ (b + p - 1) / p := Nat.div_le_div_right (by omega)
  have hself : (b + p - 1) / p * p < b + p := (pages_mul_le_iff hp).1 (Nat.le_refl _)
  have hmul : ((b + p - 1) / p - 1) * p + p = (b + p - 1) / p * p := by
    rw [← Nat.succ_mul, Nat.succ_eq_add_one, Nat.sub_add_cancel hb1]
  constructor
  · intro heq
    have := (pages_mul_le_iff hp).1 (Nat.le_of_eq heq.symm)
    omega
  · intro hlt
    exact Nat.le_antisymm hle ((pages_mul_le_iff hp).2 (by omega))

/-! ## What the invocations of a run see -/

/-- The context `ctx` with what `view` saw of its state at each paged invocation. -/
def Context.watching {F D γ : Type} (view : D → γ) (ctx : Context F D) : Context F (D × List γ) where
  resetPagedKv := onPart Prod.fst (fun d t => (d, t.2)) ctx.resetPagedKv
  ensureKvPages pageCount := onPart Prod.fst (fun d t => (d, t.2)) (ctx.ensureKvPages pageCount)
  invokePagedChunkEx window last start wantLogits :=
    modify (fun t => (t.1, t.2 ++ [view t.1])) >>= fun _ =>
      onPart Prod.fst (fun d t => (d, t.2)) (ctx.invokePagedChunkEx window last start wantLogits)
  invokePrefill window last := onPart Prod.fst (fun d t => (d, t.2)) (ctx.invokePrefill window last)
  invokeDecode token position bias :=
    onPart Prod.fst (fun d t => (d, t.2)) (ctx.invokeDecode token position bias)

/-- The rows of the planes the shim passes to an invocation. -/
def Shim.planeRows {Row ρ : Type} (d : Shim Row ρ) : List Nat :=
  (List.range d.layerN).map fun l => (d.planes l).length

/-- No layer or every layer has planes, and they are `pageCount` pages of the configured size long. -/
structure PoolShaped {Row ρ : Type} (cfg : KvPoolConfig) (pageCount : Nat) (d : Shim Row ρ) : Prop where
  config : d.config = cfg
  layers : d.layerN = 0 ∨ d.layerN = cfg.layerCount
  planes : d.layerN ≠ 0 → d.pageCount = pageCount ∧ ∀ l, (d.planes l).length = pageCount * cfg.pageSize

variable {F Row ρ : Type} {cfg : KvPoolConfig} {pageCount : Nat} {exe : ChunkExecutable F Row ρ}

theorem PoolShaped.spent {d : Shim Row ρ} (h : PoolShaped cfg pageCount d) :
    PoolShaped cfg pageCount d.spent := by
  obtain ⟨hconfig, hlayers, hplanes⟩ := h
  exact ⟨by simpa using hconfig, by simpa using hlayers, by simpa using hplanes⟩

theorem PoolShaped.release {d : Shim Row ρ} (h : PoolShaped cfg pageCount d) :
    PoolShaped cfg pageCount d.release :=
  ⟨h.config, .inl rfl, fun h0 => absurd rfl h0⟩

theorem PoolShaped.allocate {d : Shim Row ρ} (h : PoolShaped cfg pageCount d) (zeroRow : Row)
    (planeBytes : Nat) : PoolShaped cfg pageCount (d.allocate zeroRow pageCount planeBytes) :=
  ⟨h.config, .inr (by simp [Shim.allocate, h.config]),
    fun _ => ⟨rfl, fun l => by simp [Shim.allocate, h.config]⟩⟩

/-- Replacing the planes by planes of their own lengths. -/
theorem PoolShaped.replace {d d' : Shim Row ρ} (h : PoolShaped cfg pageCount d)
    (hconfig : d'.config = d.config) (hn : d'.layerN = d.layerN) (hp : d'.pageCount = d.pageCount)
    (hlen : ∀ l, (d'.planes l).length = (d.planes l).length) : PoolShaped cfg pageCount d' := by
  refine ⟨hconfig.trans h.config, hn ▸ h.layers, fun h0 => ?_⟩
  obtain ⟨hpages, hrows⟩ := h.planes (hn ▸ h0)
  exact ⟨hp.trans hpages, fun l => (hlen l).trans (hrows l)⟩

theorem ensureKvPages_shaped (zeroRow : Row) :
    Triple (PoolShaped (ρ := ρ) cfg pageCount) (Shim.ensureKvPages zeroRow pageCount)
      (fun _ => PoolShaped cfg pageCount) (PoolShaped cfg pageCount) := by
  intro d hd
  rcases Shim.ensureKvPages_cases zeroRow pageCount d with
    ⟨e, h⟩ | ⟨h, -⟩ | ⟨e, h, -⟩ | ⟨planeBytes, h, -⟩ <;> rw [h]
  · exact hd.spent
  · exact hd.spent
  · exact hd.spent.release
  · exact hd.spent.release.allocate zeroRow planeBytes

theorem resetPagedKv_shaped (zeroRow : Row) :
    Triple (PoolShaped (ρ := ρ) cfg pageCount) (Shim.resetPagedKv zeroRow)
      (fun _ => PoolShaped cfg pageCount) (PoolShaped cfg pageCount) := by
  intro d hd
  rcases Shim.resetPagedKv_cases zeroRow d with ⟨e, h⟩ | ⟨h, h0⟩ | ⟨e, junk, r, h, -⟩ | ⟨h, -⟩ <;> rw [h]
  · exact hd.spent
  · exact ⟨hd.spent.config, .inl (by simpa using h0), fun hn => absurd (by simpa using h0) hn⟩
  · exact hd.spent.release
  · exact hd.spent.replace rfl rfl rfl fun l => by simp [Shim.clear]

theorem invokePagedChunk_shaped (hkeeps : exe.KeepsPlanes (pageCount * cfg.pageSize)) (tokens : List Int) (last start : Int)
    (wantLogits : Bool) :
    Triple (PoolShaped cfg pageCount) (Shim.invokePagedChunk exe tokens last start wantLogits)
      (fun _ => PoolShaped cfg pageCount) (PoolShaped cfg pageCount) := by
  intro d hd
  rcases Shim.invokePagedChunk_cases exe tokens last start wantLogits d with
    ⟨e, h⟩ | ⟨e, junk, recurrent, h, -⟩ | ⟨h, -, h0⟩ <;> rw [h]
  · exact hd.spent
  · exact hd.replace (by simp) (by simp) (by simp) fun l => by simp [Shim.torn]
  · have hrows := (hd.planes h0).2
    exact hd.replace (by simp) (by simp) (by simp) fun l => (hkeeps _ _ _ _ _ hrows l).trans (hrows l).symm

/-- What is watched stays within `R` if it holds of every state an invocation finds. -/
theorem watching_invariant [HostFloat F] {D γ : Type} {ctx : Context F D} {s : IreeSession}
    {I : D → Prop} {R : γ → Prop} (view : D → γ) (hctx : ContextInvariant ctx s I) (hview : ∀ d, I d → R (view d)) :
    ContextInvariant (ctx.watching view) s (fun t => I t.1 ∧ ∀ v ∈ t.2, R v) := by
  have lift : ∀ {α : Type} {x : EStateM DynInferError D α}, Triple I x (fun _ => I) I →
      Triple (fun t : D × List γ => I t.1 ∧ ∀ v ∈ t.2, R v) (onPart Prod.fst (fun d t => (d, t.2)) x)
        (fun _ t => I t.1 ∧ ∀ v ∈ t.2, R v) (fun t => I t.1 ∧ ∀ v ∈ t.2, R v) := by
    intro α x hx t ht
    have h' := hx t.1 ht.1
    rw [run_onPart]
    revert h'
    cases x.run t.1 with
    | ok a d => exact fun h => ⟨h, ht.2⟩
    | error e d => exact fun h => ⟨h, ht.2⟩
  refine ⟨lift hctx.reset, fun _ _ hs => lift (hctx.ensure _ _ hs), fun _ _ _ _ => ?_,
    fun _ _ => lift (hctx.prefill _ _), fun _ _ _ => lift (hctx.decode _ _ _)⟩
  refine Triple.bind (Triple.modify (Q := fun _ t => I t.1 ∧ ∀ v ∈ t.2, R v) fun t ht => ?_)
    fun _ => lift (hctx.invoke _ _ _ _)
  refine ⟨ht.1, fun v hv => ?_⟩
  rcases List.mem_append.1 hv with hv | hv
  · exact ht.2 v hv
  · rw [List.mem_singleton.1 hv]
    exact hview t.1 ht.1

/-- The shim keeps its planes in the shape the session asks for. -/
theorem context_shaped [HostFloat F] {s : IreeSession} {pageSize chunkSize : Nat} (hcfg : cfg.pageSize = pageSize)
    (hkeeps : exe.KeepsPlanes (s.maxPages pageSize * pageSize)) (hs : s.kv.storage = .paged pageSize chunkSize) :
    ContextInvariant (Shim.context exe) s (PoolShaped cfg (s.maxPages pageSize)) where
  reset := resetPagedKv_shaped exe.zeroRow
  ensure page chunk h := by
    obtain ⟨rfl, rfl⟩ := KvCacheStorage.paged.inj (hs.symm.trans h)
    exact ensureKvPages_shaped exe.zeroRow
  invoke := invokePagedChunk_shaped (hcfg.symm ▸ hkeeps)
  prefill _ _ := Triple.throw fun _ h => h
  decode _ _ _ := Triple.throw fun _ h => h

/-- Every plane a session's run passes to an invocation has the rows the session asks for. -/
theorem run_planeRows [HostFloat F] {s : IreeSession} {pageSize chunkSize : Nat}
    (hkeeps : exe.KeepsPlanes (s.maxPages pageSize * pageSize))
    (hs : s.kv.storage = .paged pageSize chunkSize) (hcfg : cfg.pageSize = pageSize) {d : Shim Row ρ}
    (hd : PoolShaped cfg (s.maxPages pageSize) d) (ops : List SessionOp) :
    ∀ rows ∈ (runOps ((Shim.context exe).watching Shim.planeRows) s (.new (d, [])) ops).context.2,
      ∀ n ∈ rows, n = s.maxPages pageSize * pageSize := by
  have hview : ∀ d : Shim Row ρ, PoolShaped cfg (s.maxPages pageSize) d →
      ∀ n ∈ d.planeRows, n = s.maxPages pageSize * pageSize := by
    intro d hd n hn
    simp only [Shim.planeRows, List.mem_map, List.mem_range] at hn
    obtain ⟨l, hl, rfl⟩ := hn
    rw [(hd.planes (by omega)).2 l, hcfg]
  have hinv := watching_invariant (R := fun rows => ∀ n ∈ rows, n = s.maxPages pageSize * pageSize)
    Shim.planeRows (context_shaped hcfg hkeeps hs) hview
  exact (runOps_context hinv ops ⟨hd, fun _ hrows => absurd hrows List.not_mem_nil⟩).2

/-- A session just made has no planes. -/
theorem createSession_shaped {metadata : ModelMetadata} {m : ExecutableManifest} {config : SessionConfig}
    {opened : Shim Row ρ} {session : IreeSession} {t : SessionState (Shim Row ρ)} {pageSize chunkSize : Nat}
    (hs : m.kvCache.storage = .paged pageSize chunkSize) (hopened : opened.layerN = 0)
    (h : createSession metadata m config opened = .ok (session, t)) (pageCount : Nat) :
    PoolShaped (sessionPoolConfig m metadata.vocabularySize pageSize chunkSize) pageCount t.context := by
  obtain ⟨rfl, -, d, rfl, hrun⟩ := createSession_paged hs h
  obtain ⟨-, -, rfl⟩ := Shim.configurePagedKv_ok hrun
  have hnone := (Shim.spent_layerN opened).trans hopened
  exact ⟨rfl, .inl hnone, fun h0 => absurd hnone h0⟩

/-- **A session's planes have the compiled shape exactly when its cap reaches the last compiled
page.** For every session of a paged manifest within the emitter's limits, under every pattern of
failures: each invocation of each run is on planes of the rows the session asks for, and these are the
compiled rows if and only if the configured maximum lies above all pages but the last. -/
theorem planes_compiled_iff [HostFloat F] {metadata : ModelMetadata} {m : ExecutableManifest}
    {config : SessionConfig} {opened : Shim Row ρ} {session : IreeSession} {t : SessionState (Shim Row ρ)}
    {pageSize chunkSize : Nat} (hs : m.kvCache.storage = .paged pageSize chunkSize)
    (hopened : opened.layerN = 0) (h : createSession metadata m config opened = .ok (session, t))
    (hkv : 1 ≤ m.kvCache.maxSequenceLength) (hkv' : m.kvCache.maxSequenceLength ≤ maxPagedKv)
    (hp : pageSize ≤ 2 ^ 31) :
    (∀ exe : ChunkExecutable F Row ρ, exe.KeepsPlanes (session.maxPages pageSize * pageSize) → ∀ ops,
        ∀ rows ∈ (runOps ((Shim.context exe).watching Shim.planeRows) session
          (.new (t.context, [])) ops).context.2,
        ∀ n ∈ rows, n = session.maxPages pageSize * pageSize) ∧
      (session.maxPages pageSize * pageSize = compiledKvLen m.kvCache.maxSequenceLength pageSize ↔
        (compiledPages m.kvCache.maxSequenceLength pageSize - 1) * pageSize <
          max config.maxSequenceLength 1) := by
  have hshaped := createSession_shaped hs hopened h (session.maxPages pageSize)
  obtain ⟨rfl, hvalid, -⟩ := createSession_paged hs h
  have hpos : 0 < pageSize := by
    simp only [KvPoolConfig.valid, sessionPoolConfig, Bool.and_eq_true, bne_iff_ne] at hvalid
    omega
  constructor
  · intro exe hkeeps ops
    exact run_planeRows hkeeps hs rfl hshaped ops
  · have hpages : (IreeSession.new metadata config m.kvCache m.prefillWindow).maxPages pageSize =
        max ((min (max config.maxSequenceLength 1) m.kvCache.maxSequenceLength + pageSize - 1) / pageSize) 1 := by
      simp only [IreeSession.maxPages, IreeSession.maxSeq, IreeSession.new, Nat.max_eq_left hkv]
    have hmul : ∀ a b : Nat, a * pageSize = b * pageSize ↔ a = b :=
      fun a b => Nat.mul_left_inj (by omega)
    rw [compiledKvLen_eq hkv' hp, hmul, hpages]
    exact pages_min_eq_iff hpos (by omega) hkv

/-- The default session configuration on a manifest of 4096 positions: planes of 2048 rows. -/
theorem default_config_short_planes :
    (IreeSession.new { vocabularySize := 32000 } {}
        { layerCount := 1, maxBatchSize := 1, maxSequenceLength := 4096, kvHeadCount := 2
          headDimension := 64, elementType := .f16, storage := .paged 256 512 } 512).maxPages 256 * 256 ≠
      compiledKvLen 4096 256 := by
  decide

theorem planes_compiled_iff_two :
    (pagedSession 2 2 2).maxPages 2 * 2 = compiledKvLen 4 2 ↔ (compiledPages 4 2 - 1) * 2 < max 2048 1 :=
  (planes_compiled_iff (F := Nat) (m := pagedManifest 2 2 2) rfl rfl
    (rfl : createSession { vocabularySize := 8 } (pagedManifest 2 2 2) {}
      (Shim.opened () ([] : List (Fault Unit Unit))) = .ok (pagedSession 2 2 2, _))
    (by decide) (by decide) (by decide)).2

end Dyninfer
