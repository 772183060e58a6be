/-
Whether a chunked prefill presents its prompt: every token once, at its own
position, in invocations the shim accepts.

The chunk size of the loop comes from the manifest's KV storage, the width of
a window from its `prefill_window`, and nothing compares the two. So the
answer depends on the manifest: a window of the chunk's width presents every
prompt, and a window of another width is refused by the shim, unless it is of
one token. Then the shim takes it for a decode, and of each chunk only the
first token is presented.
-/
import Dyninfer.Runtime.Recording
import Dyninfer.Runtime.Shim

namespace Dyninfer

open Effect Rows IreeSession

/-- The invocations `calls` present `tokens`: put end to end their real rows are the prompt, each row
is the prompt's token of its position, the starts leave no gap, and the shim accepts each. -/
structure PresentsOnce (chunkSize : Nat) (tokens : List TokenId) (calls : List ChunkCall) : Prop where
  whole : (calls.map ChunkCall.presented).flatten = tokens.map tokenI64
  own : ∀ c ∈ calls, ∀ j : Nat, (j : Int) ≤ c.last →
    ∃ t, tokens[c.start.toNat + j]? = some t ∧ c.window[j]? = some (tokenI64 t)
  first : ∀ c, calls.head? = some c → c.start = 0
  next : ∀ (i : Nat) (c d : ChunkCall), calls[i]? = some c → calls[i + 1]? = some d →
    d.start = c.start + c.last + 1
  accepted : ∀ c ∈ calls, Shim.acceptsChunk chunkSize c.window c.last c.start = true

variable {s : IreeSession} {chunkSize : Nat} {tokens : List TokenId}

/-! ## The calls of a plan -/

theorem mem_prefillPlan (hc : 0 < chunkSize) {c : ChunkCall} (h : c ∈ s.prefillPlan chunkSize tokens) :
    ∃ i, i * chunkSize < tokens.length ∧
      c = s.chunkCall chunkSize i (extractSlice tokens (i * chunkSize) chunkSize) := by
  obtain ⟨i, hi⟩ := List.mem_iff_getElem?.1 h
  rw [getElem?_prefillPlan hc] at hi
  split at hi
  · next hlt => exact ⟨i, hlt, (Option.some.inj hi).symm⟩
  · cases hi

theorem prefillPlan_head? (hc : 0 < chunkSize) (hn : 1 ≤ tokens.length) :
    (s.prefillPlan chunkSize tokens).head? = some (s.chunkCall chunkSize 0 (tokens.take chunkSize)) := by
  rw [List.head?_eq_getElem?, getElem?_prefillPlan hc, Nat.zero_mul, if_pos (by omega), extractSlice,
    List.drop_zero]

/-- Whatever the width, the real rows of a window are tokens of their own positions. -/
theorem prefillPlan_own (hc : 0 < chunkSize) (hw : 0 < s.prefillWindow) {c : ChunkCall}
    (h : c ∈ s.prefillPlan chunkSize tokens) {j : Nat} (hj : (j : Int) ≤ c.last) :
    ∃ t, tokens[c.start.toNat + j]? = some t ∧ c.window[j]? = some (tokenI64 t) := by
  obtain ⟨i, hi, rfl⟩ := mem_prefillPlan hc h
  simp only [chunkCall, window_last, length_extractSlice] at hj
  have hlt : i * chunkSize + j < tokens.length := by omega
  refine ⟨tokens[i * chunkSize + j], ?_, ?_⟩
  · simp only [chunkCall, Int.toNat_natCast]
    exact List.getElem?_eq_getElem hlt
  · simp only [chunkCall]
    rw [getElem?_window, length_extractSlice, if_pos (by omega), List.getElem?_map, getElem?_extractSlice,
      if_pos (by omega), List.getElem?_eq_getElem hlt]
    rfl

theorem acceptsChunk_iff {window : List Int} {last start : Int} :
    Shim.acceptsChunk chunkSize window last start = true ↔
      (window.length = chunkSize ∨ window.length = 1) ∧ 0 ≤ last ∧ last < window.length ∧ 0 ≤ start := by
  simp only [Shim.acceptsChunk, Bool.not_eq_true', Bool.or_eq_false_iff, Bool.and_eq_false_iff,
    bne_eq_false_iff_eq, decide_eq_false_iff_not]
  omega

/-- The shim accepts a call of the plan by its width alone. -/
theorem chunkCall_accepted {i : Nat} {chunk : List TokenId} (hw : 0 < s.prefillWindow) :
    Shim.acceptsChunk chunkSize (s.chunkCall chunkSize i chunk).window (s.chunkCall chunkSize i chunk).last
        (s.chunkCall chunkSize i chunk).start = true ↔
      s.prefillWindow = chunkSize ∨ s.prefillWindow = 1 := by
  rw [acceptsChunk_iff]
  simp only [chunkCall, length_window, window_last]
  omega

/-! ## When a plan presents its prompt -/

theorem presentsOnce_of_fits (hc : 0 < chunkSize) (hw : 0 < s.prefillWindow)
    (hwidth : s.prefillWindow = chunkSize ∨ s.prefillWindow = 1)
    (hfits : chunkSize ≤ s.prefillWindow ∨ tokens.length ≤ s.prefillWindow) :
    PresentsOnce chunkSize tokens (s.prefillPlan chunkSize tokens) where
  whole := by
    have hcalls : (s.prefillPlan chunkSize tokens).map ChunkCall.presented =
        (chunks chunkSize tokens).map (List.map tokenI64) := by
      apply List.ext_getElem?
      intro i
      rw [List.getElem?_map, List.getElem?_map, getElem?_prefillPlan hc, getElem?_chunks hc]
      split
      · next hi =>
        have hlen := length_extractSlice tokens (i * chunkSize) chunkSize
        have hne : extractSlice tokens (i * chunkSize) chunkSize ≠ [] := by
          rw [ne_eq, ← List.length_eq_zero_iff]; omega
        rw [Option.map_some, Option.map_some, presented_chunkCall s chunkSize i hne hw,
          List.take_of_length_le (by omega)]
      · rfl
    rw [hcalls, ← List.map_flatten, flatten_chunks hc]
  own c hmem j hj := prefillPlan_own hc hw hmem hj
  first c hhead := by
    rw [List.head?_eq_getElem?, getElem?_prefillPlan hc] at hhead
    split at hhead
    · obtain rfl := Option.some.inj hhead
      simp [chunkCall]
    · cases hhead
  next i c d hi hd := by
    rw [getElem?_prefillPlan hc] at hi hd
    split at hd
    · next hlt =>
      rw [Nat.succ_mul] at hlt
      rw [if_pos (by omega)] at hi
      obtain rfl := Option.some.inj hi
      obtain rfl := Option.some.inj hd
      simp only [chunkCall, window_last, length_extractSlice, Nat.succ_mul]
      omega
    · cases hd
  accepted c hmem := by
    obtain ⟨i, -, rfl⟩ := mem_prefillPlan hc hmem
    exact (chunkCall_accepted hw).2 hwidth

/-- A plan presents its prompt exactly when windows are as wide as chunks, or of one token and so is
the prompt. -/
theorem presentsOnce_prefillPlan_iff (hc : 0 < chunkSize) (hw : 0 < s.prefillWindow)
    (hn : 1 ≤ tokens.length) :
    PresentsOnce chunkSize tokens (s.prefillPlan chunkSize tokens) ↔
      s.prefillWindow = chunkSize ∨ (s.prefillWindow = 1 ∧ tokens.length = 1) := by
  constructor
  · intro h
    have hhead := prefillPlan_head? (s := s) hc hn
    have hmem := List.mem_of_mem_head? hhead
    rcases (chunkCall_accepted hw).1 (h.accepted _ hmem) with hwidth | hone
    · exact .inl hwidth
    refine Classical.byContradiction fun hcon => ?_
    have hc2 : chunkSize ≠ 1 := fun h1 => hcon (.inl (h1 ▸ hone))
    have hn2 : tokens.length ≠ 1 := fun h1 => hcon (.inr ⟨hone, h1⟩)
    rw [List.head?_eq_getElem?] at hhead
    by_cases hmore : chunkSize < tokens.length
    · -- A second chunk starts where the first one's single row does not end.
      have hsecond := getElem?_prefillPlan (s := s) hc tokens 1
      rw [if_pos (by omega)] at hsecond
      have hnext := h.next 0 _ _ hhead hsecond
      simp only [chunkCall, window_last, hone] at hnext
      omega
    · -- One chunk, and one row of it.
      have hlen : (s.prefillPlan chunkSize tokens).length = 1 := by
        rw [length_prefillPlan]
        exact Nat.div_eq_of_lt_le (by omega) (by omega)
      obtain ⟨c, hc'⟩ := List.length_eq_one_iff.1 hlen
      rw [hc', List.getElem?_cons_zero] at hhead
      have hwhole := congrArg List.length h.whole
      rw [hc', Option.some.inj hhead, List.map_singleton, List.flatten_singleton, List.length_map,
        presented_chunkCall s chunkSize 0 ?_ hw, List.length_map, List.length_take, List.length_take,
        hone] at hwhole
      · omega
      · rw [ne_eq, ← List.length_eq_zero_iff, List.length_take]; omega
  · rintro (hwidth | ⟨hone, hn1⟩)
    · exact presentsOnce_of_fits hc hw (.inl hwidth) (.inl (by omega))
    · exact presentsOnce_of_fits hc hw (.inr hone) (.inr (by omega))

/-! ## Sessions -/

theorem KvPoolConfig.valid_chunkSize {c : KvPoolConfig} (h : c.valid = true) : 0 < c.chunkSize := by
  simp only [KvPoolConfig.valid, Bool.and_eq_true, bne_iff_ne] at h
  omega

/-- What a session of a paged manifest is, and that the shim took its geometry. -/
theorem createSession_paged {Row ρ : Type} {metadata : ModelMetadata} {m : ExecutableManifest}
    {config : SessionConfig} {opened : Shim Row ρ} {session : IreeSession} {t : SessionState (Shim Row ρ)}
    {pageSize chunkSize : Nat} (hs : m.kvCache.storage = .paged pageSize chunkSize)
    (h : createSession metadata m config opened = .ok (session, t)) :
    session = IreeSession.new metadata config m.kvCache m.prefillWindow ∧
      (sessionPoolConfig m metadata.vocabularySize pageSize chunkSize).valid = true ∧
      ∃ d, t = .new d ∧ (Shim.configurePagedKv
        (sessionPoolConfig m metadata.vocabularySize pageSize chunkSize)).run opened = .ok () d := by
  unfold createSession at h
  simp only [hs] at h
  split at h
  · next d hrun =>
    obtain ⟨rfl, rfl⟩ := Prod.mk.inj (Except.ok.inj h)
    refine ⟨rfl, ?_, d, rfl, hrun⟩
    apply Classical.byContradiction
    intro hv
    rw [Bool.not_eq_true] at hv
    simp only [EStateM.run, Shim.configurePagedKv, hv] at hrun
    split at hrun <;> cases hrun
  · cases h

/-- **A chunked prefill presents its prompt exactly when windows are as wide as chunks.** For every
paged manifest a session can be made of, both prefills make the calls of the plan (or fail after a
beginning of them), and the plan presents the prompt if and only if the manifest's prefill window is
its chunk size, or both the window and the prompt are one token. -/
theorem prefill_presents_iff {Row ρ : Type} {metadata : ModelMetadata} {m : ExecutableManifest}
    {config : SessionConfig} {opened : Shim Row ρ} {session : IreeSession} {t : SessionState (Shim Row ρ)}
    {pageSize chunkSize : Nat} (hs : m.kvCache.storage = .paged pageSize chunkSize)
    (h : createSession metadata m config opened = .ok (session, t)) (tokens : List TokenId)
    (hn : 1 ≤ tokens.length) :
    (∀ (F D : Type) [HostFloat F] (ctx : Context F D) (u : SessionState (D × List ContextCall)),
        EmitsAt callsMade (prefill ctx.recording session tokens)
          (prefillCalls session pageSize chunkSize tokens) (fun _ => True) u ∧
        EmitsAt callsMade (prefillArgmax ctx.recording session tokens)
          (prefillCalls session pageSize chunkSize tokens) (fun _ => True) u) ∧
      (PresentsOnce chunkSize tokens (session.prefillPlan chunkSize tokens) ↔
        max m.prefillWindow 1 = chunkSize ∨ (max m.prefillWindow 1 = 1 ∧ tokens.length = 1)) := by
  obtain ⟨rfl, hvalid, -⟩ := createSession_paged hs h
  refine ⟨fun F D _ ctx u => ⟨prefill_emits hs tokens u, prefillArgmax_emits hs tokens u⟩, ?_⟩
  exact presentsOnce_prefillPlan_iff (KvPoolConfig.valid_chunkSize hvalid)
    (new_prefillWindow_pos metadata config m.kvCache m.prefillWindow) hn

/-- A paged manifest of one layer whose windows are `prefillWindow` wide. -/
def pagedManifest (pageSize chunkSize prefillWindow : Nat) : ExecutableManifest where
  format := "dyninfer.bundle"
  version := 11
  architectureId := "llama.decoder"
  architectureRevision := "0.2.0"
  checkpointSchema := { digest := "", entryCount := 0, totalBytes := 0 }
  target := { driver := "local-task" }
  precisionPolicy := {}
  selectedKernels := []
  shapeProfile := { batchSizes := [1], sequenceBuckets := [chunkSize], maxSequenceLength := 4 }
  entrypoints := ["prefill_chunk", "decode_chunk"]
  kvCache :=
    { layerCount := 1, maxBatchSize := 1, maxSequenceLength := 4, kvHeadCount := 1, headDimension := 2
      elementType := .f32, storage := .paged pageSize chunkSize }
  parameterScope := "weights"
  parameterComponents := []
  derivedParametersRequired := false
  vmfbPath := "executables/model.vmfb"
  prefillWindow := prefillWindow
  diagnostics := []

/-- The session `create_session` makes of `pagedManifest` on a context just opened. -/
def pagedSession (pageSize chunkSize prefillWindow : Nat) : IreeSession :=
  .new { vocabularySize := 8 } {} (pagedManifest pageSize chunkSize prefillWindow).kvCache prefillWindow

theorem prefill_presents_iff_two :
    PresentsOnce 2 [7, 8, 9] ((pagedSession 2 2 2).prefillPlan 2 [7, 8, 9]) ↔
      max 2 1 = 2 ∨ (max 2 1 = 1 ∧ [7, 8, (9 : TokenId)].length = 1) :=
  (prefill_presents_iff (m := pagedManifest 2 2 2) rfl
    (rfl : createSession { vocabularySize := 8 } (pagedManifest 2 2 2) {}
      (Shim.opened () ([] : List (Fault Unit Unit))) = .ok (pagedSession 2 2 2, _)) [7, 8, 9] (by decide)).2

/-- A manifest that passes validation, of which a session is made, whose prefill of two tokens
presents the first alone. -/
theorem narrow_window_drops_token :
    validateExecutableAbi (pagedManifest 2 2 1) "bundle" = .ok () ∧
      (∃ t, createSession { vocabularySize := 8 } (pagedManifest 2 2 1) {}
        (Shim.opened () ([] : List (Fault Unit Unit))) = .ok (pagedSession 2 2 1, t)) ∧
      ¬ PresentsOnce 2 [7, 8] ((pagedSession 2 2 1).prefillPlan 2 [7, 8]) := by
  refine ⟨rfl, ⟨_, rfl⟩, fun h => ?_⟩
  have hwhole := h.whole
  revert hwhole
  decide

end Dyninfer
