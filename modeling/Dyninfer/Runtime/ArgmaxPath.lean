/-
The argmax fast path against the logits path: `prefill_argmax` and
`decode_argmax` repeat the guards, the chunk loop and the state updates of
`prefill` and `decode`, and differ from them in what they copy back.

Two runs are compared from one state, over a context of which only this is
assumed: an invocation succeeds, and leaves the same state, whether or not its
logits are wanted; the logits it returns have `vocabulary_size` entries; and
its token is the index of their first maximum.
-/
import Dyninfer.Lib.FirstMax
import Dyninfer.Runtime.Recording

namespace Dyninfer

open Effect Rows FirstMax

variable {F D : Type} [HostFloat F]

/-- The comparison of the host's floats as an order: what comparing numbers is, no NaN among them. -/
def HostOrder (F : Type) [HostFloat F] : Prop :=
  WeakOrder (HostFloat.gt (F := F)) HostFloat.negInfinity

/-- `token` is the compiled argmax of `logits`, which cover the vocabulary. -/
def CompiledArgmax (vocabularySize : Nat) (logits : List F) (token : Int) : Prop :=
  logits.length = vocabularySize ∧ ∃ i : Nat, token = i ∧ IsFirstMax HostFloat.gt logits i

/-- Whether an invocation's logits are wanted changes neither its outcome nor its effect, and its
token is the argmax of its logits. -/
def ArgmaxDevice (ctx : Context F D) (vocabularySize : Nat) : Prop :=
  ∀ window last start d,
    AgreeAt (fun r r' => r.2 = r'.2 ∧ ∃ logits, r.1 = some logits ∧
        CompiledArgmax vocabularySize logits r'.2)
      (ctx.invokePagedChunkEx window last start true)
      (ctx.invokePagedChunkEx window last start false) d

theorem isFirstMax_lt {logits : List F} {i : Nat} (h : IsFirstMax HostFloat.gt logits i) :
    i < logits.length := by
  obtain ⟨before, m, after, rfl, rfl, -, -⟩ := h
  simp

/-- The host's scan finds the token the device reports. -/
theorem argmax_eq_toTokenId (hF : HostOrder F) {vocabularySize : Nat} (hv : vocabularySize ≤ 2 ^ 32)
    {logits : List F} {token : Int} (h : CompiledArgmax vocabularySize logits token) :
    argmax logits = toTokenId token := by
  obtain ⟨hlen, i, rfl, hmax⟩ := h
  have hlt := isFirstMax_lt hmax
  have hscan : argmax logits = UInt32.ofNat (scan HostFloat.gt (0, HostFloat.negInfinity) logits 0).1 := rfl
  rw [hscan, scan_eq hF hmax, toTokenId]
  congr 1
  omega

theorem CompiledArgmax.nonneg {vocabularySize : Nat} {logits : List F} {token : Int}
    (h : CompiledArgmax vocabularySize logits token) : 0 ≤ token := by
  obtain ⟨-, i, rfl, -⟩ := h
  omega

/-- Recording the calls keeps what is assumed of the context. -/
theorem ArgmaxDevice.recording {ctx : Context F D} {vocabularySize : Nat}
    (h : ArgmaxDevice ctx vocabularySize) : ArgmaxDevice ctx.recording vocabularySize := by
  intro window last start d
  exact AgreeAt.bind_same _ fun _ t _ => (h window last start t.1).onPart

variable {ctx : Context F D} {s : IreeSession}

omit [HostFloat F] in
theorem keepLogits_last {logits : List F} (old : List F) (d : D) :
    (keepLogits true (some logits) old).run d = .ok logits d := rfl

omit [HostFloat F] in
theorem keepLogits_inner (chunkLogits : Option (List F)) (old : List F) (d : D) :
    (keepLogits false chunkLogits old).run d = .ok old d := rfl

/-- The two chunk loops, over what is left of the chunks. -/
theorem prefillChunks_agree (hctx : ArgmaxDevice ctx s.vocabularySize) (chunkSize total : Nat)
    (pieces : List (List TokenId)) :
    ∀ (i : Nat) (logits : List F) (token : Int) (d : D), pieces ≠ [] → i + pieces.length = total →
      AgreeAt (CompiledArgmax s.vocabularySize) (prefillChunks ctx s chunkSize total i pieces logits)
        (prefillArgmaxChunks ctx s chunkSize i pieces token) d := by
  induction pieces with
  | nil => intro i logits token d h; exact absurd rfl h
  | cons chunk rest ih =>
    intro i logits token d _ htotal
    unfold prefillChunks prefillArgmaxChunks
    simp only
    rw [List.length_cons] at htotal
    cases rest with
    | nil =>
      -- The last chunk: one run has the logits copied back, the other only the token.
      have hwant : (i + 1 == total) = true := by simpa using htotal
      rw [hwant]
      refine (hctx _ _ _ d).bind fun r r' d' hr => ?_
      obtain ⟨-, values, hvalues, hmax⟩ := hr
      rw [hvalues]
      exact AgreeAt.skip_left (keepLogits_last _ d') (AgreeAt.pure hmax)
    | cons next rest =>
      have hwant : (i + 1 == total) = false := by
        rw [beq_eq_false_iff_ne]
        rw [List.length_cons] at htotal
        omega
      rw [hwant]
      refine AgreeAt.bind_same _ fun r d' _ => ?_
      exact AgreeAt.skip_left (keepLogits_inner _ _ d') (ih (i + 1) _ _ d' (by simp) (by omega))

theorem invokePagedChunk_agree {vocabularySize : Nat} (hctx : ArgmaxDevice ctx vocabularySize)
    (window : List Int) (last start : Int) (d : D) :
    AgreeAt (fun values r => CompiledArgmax vocabularySize values r.2)
      (ctx.invokePagedChunk window last start) (ctx.invokePagedChunkEx window last start false) d := by
  unfold Context.invokePagedChunk
  rw [← bind_pure (ctx.invokePagedChunkEx window last start false)]
  refine (hctx _ _ _ d).bind fun r r' d' hr => ?_
  obtain ⟨-, values, hvalues, hmax⟩ := hr
  rw [hvalues]
  exact AgreeAt.pure hmax

omit [HostFloat F] in
theorem pagedGeometry_eq {pageSize chunkSize : Nat} (h : s.pagedGeometry = some (pageSize, chunkSize)) :
    s.kv.storage = .paged pageSize chunkSize := by
  unfold IreeSession.pagedGeometry at h
  split at h
  · cases h
  · next hs =>
    obtain ⟨rfl, rfl⟩ := Prod.mk.inj (Option.some.inj h)
    exact hs

/-- **`prefill_argmax` is `prefill` followed by the argmax of its logits**, in what it returns and in
the state it leaves. -/
theorem prefill_agree (hF : HostOrder F) (hctx : ArgmaxDevice ctx s.vocabularySize)
    (hv : s.vocabularySize ≤ 2 ^ 32)
    (hs : ∀ pageSize chunkSize, s.kv.storage = .paged pageSize chunkSize → 0 < chunkSize)
    (tokens : List TokenId) (t : SessionState D) :
    AgreeAt (fun values token => argmax values = token) (prefill ctx s tokens)
      (prefillArgmax ctx s tokens) t := by
  unfold prefillArgmax
  cases hgeo : s.pagedGeometry with
  | none => exact AgreeAt.map_right _ _ t
  | some geometry =>
    obtain ⟨pageSize, chunkSize⟩ := geometry
    have hchunk : 0 < chunkSize := hs pageSize chunkSize (pagedGeometry_eq hgeo)
    simp only [prefill, prefillValues, hgeo, bind_assoc]
    refine AgreeAt.bind_same _ fun _ t _ => ?_
    refine AgreeAt.bind_same _ fun _ t hne => ?_
    have hpieces : chunks chunkSize tokens ≠ [] := by
      have htokens : tokens ≠ [] := by simpa using (require_ok hne).1
      rw [chunks_cons hchunk htokens]
      exact List.cons_ne_nil _ _
    refine AgreeAt.skip_left (run_require_true rfl _ t) ?_
    refine AgreeAt.bind_same _ fun _ t _ => ?_
    refine AgreeAt.bind_same _ fun _ t _ => ?_
    refine AgreeAt.bind_same _ fun _ t _ => ?_
    refine AgreeAt.bind_same _ fun _ t _ => ?_
    refine AgreeAt.bind (AgreeAt.onPart (prefillChunks_agree hctx _ _ _ 0 [] (-1) _ hpieces
      (Nat.zero_add _))) fun values token t hmax => ?_
    refine AgreeAt.skip_left (run_require_true (by simpa using hmax.1) _ t) ?_
    refine AgreeAt.skip_right (run_require_true (by simpa using hmax.nonneg) _ t) ?_
    exact AgreeAt.bind_same _ fun _ t _ => AgreeAt.pure (argmax_eq_toTokenId hF hv hmax)

/-- **`decode_argmax` is `decode` followed by the argmax of its logits**, in what it returns and in
the state it leaves. -/
theorem decode_agree (hF : HostOrder F) (hctx : ArgmaxDevice ctx s.vocabularySize)
    (hv : s.vocabularySize ≤ 2 ^ 32) (token : TokenId) (t : SessionState D) :
    AgreeAt (fun values token => argmax values = token) (decode ctx s token)
      (decodeArgmax ctx s token) t := by
  unfold decodeArgmax
  cases hgeo : s.pagedGeometry with
  | none => exact AgreeAt.map_right _ _ t
  | some geometry =>
    obtain ⟨pageSize, chunkSize⟩ := geometry
    simp only [decode, decodeValues, hgeo, bind_assoc]
    refine AgreeAt.bind_same _ fun _ t _ => ?_
    refine AgreeAt.bind_same _ fun _ t _ => ?_
    refine AgreeAt.bind_same _ fun position t _ => ?_
    refine AgreeAt.bind_same _ fun _ t _ => ?_
    refine AgreeAt.bind (AgreeAt.onPart (invokePagedChunk_agree hctx _ _ _ _)) fun values r t hmax => ?_
    refine AgreeAt.skip_left (run_require_true (by simpa using hmax.1) _ t) ?_
    refine AgreeAt.skip_right (run_require_true (by simpa using hmax.nonneg) _ t) ?_
    exact AgreeAt.bind_same _ fun _ t _ => AgreeAt.pure (argmax_eq_toTokenId hF hv hmax)

/-- **The argmax fast path refines the logits path.** Over every context whose token is the argmax of
its logits, in every session state, `prefill_argmax` and `prefill` make the same calls, return
together with the one the argmax of the other, and leave the same state; so do the decodes. -/
theorem argmax_path_refines (hF : HostOrder F) (hctx : ArgmaxDevice ctx s.vocabularySize)
    (hv : s.vocabularySize ≤ 2 ^ 32)
    (hs : ∀ pageSize chunkSize, s.kv.storage = .paged pageSize chunkSize → 0 < chunkSize)
    (t : SessionState (D × List ContextCall)) :
    (∀ tokens, AgreeAt (fun values token => argmax values = token) (prefill ctx.recording s tokens)
      (prefillArgmax ctx.recording s tokens) t) ∧
    (∀ token, AgreeAt (fun values token => argmax values = token) (decode ctx.recording s token)
      (decodeArgmax ctx.recording s token) t) :=
  ⟨fun tokens => prefill_agree hF hctx.recording hv hs tokens t,
    fun token => decode_agree hF hctx.recording hv token t⟩

/-- A context that counts its invocations and answers each with the logits `0, 7, 3`. -/
def countingContext : Context Nat Nat where
  resetPagedKv := set 0
  ensureKvPages _ := pure ()
  invokePagedChunkEx _ _ _ wantLogits := do
    modify (· + 1)
    pure (if wantLogits then some [0, 7, 3] else none, 1)
  invokePrefill _ _ := pure [0, 7, 3]
  invokeDecode _ _ _ := pure [0, 7, 3]

theorem countingContext_argmaxDevice : ArgmaxDevice countingContext 3 :=
  fun _ _ _ _ => ⟨⟨rfl, [0, 7, 3], rfl, rfl, 1, rfl, [0], 7, [3], rfl, rfl, by decide, by decide⟩, rfl⟩

theorem natHostOrder : HostOrder Nat where
  split x y z h := by
    simp only [HostFloat.gt, decide_eq_true_eq] at h ⊢
    omega
  bot_least x := by simp [HostFloat.gt, HostFloat.negInfinity]

theorem argmax_path_refines_counting :
    AgreeAt (fun values token => argmax values = token)
      (prefill countingContext.recording
        { vocabularySize := 3, config := {}, prefillWindow := 2, padTokenId := 0
          kv := ⟨1, 1, 4, 1, 2, .f32, .paged 2 2⟩ } [5, 6, 7])
      (prefillArgmax countingContext.recording
        { vocabularySize := 3, config := {}, prefillWindow := 2, padTokenId := 0
          kv := ⟨1, 1, 4, 1, 2, .f32, .paged 2 2⟩ } [5, 6, 7]) (.new (0, [])) :=
  (argmax_path_refines natHostOrder countingContext_argmaxDevice (by decide)
    (fun _ _ h => by cases h; decide) (.new (0, []))).1 [5, 6, 7]

end Dyninfer
