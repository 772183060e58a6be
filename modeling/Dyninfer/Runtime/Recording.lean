/-
A context that writes down the calls made on it, and which calls the session's
prefills make: a reset, the pages, then one invocation for each chunk of the
prompt, and no more of them than that when something fails on the way.
-/
import Dyninfer.Lib.Trace
import Dyninfer.Runtime.ChunkPlan

namespace Dyninfer

open Effect Rows

/-- A call on a context. Whether an invocation wants its logits is not part of what it does. -/
inductive ContextCall where
  | resetPagedKv
  | ensureKvPages (pageCount : Nat)
  | chunk (call : ChunkCall)
  | prefill (window : List Int) (last : Int)
  | decode (token position : Int)
  deriving DecidableEq, Repr

/-- `x`, written down as `call` before it runs. -/
def recorded {D α : Type} (call : ContextCall) (x : EStateM DynInferError D α) :
    EStateM DynInferError (D × List ContextCall) α :=
  modify (fun t => (t.1, t.2 ++ [call])) >>= fun _ => onPart Prod.fst (fun d t => (d, t.2)) x

/-- The context `ctx` with a list of the calls made so far. -/
def Context.recording {F D : Type} (ctx : Context F D) : Context F (D × List ContextCall) where
  resetPagedKv := recorded .resetPagedKv ctx.resetPagedKv
  ensureKvPages pageCount := recorded (.ensureKvPages pageCount) (ctx.ensureKvPages pageCount)
  invokePagedChunkEx window last start wantLogits :=
    recorded (.chunk { window, last, start }) (ctx.invokePagedChunkEx window last start wantLogits)
  invokePrefill window last := recorded (.prefill window last) (ctx.invokePrefill window last)
  invokeDecode token position bias :=
    recorded (.decode token position) (ctx.invokeDecode token position bias)

/-- The calls a session state has made. -/
def callsMade {D : Type} (t : SessionState (D × List ContextCall)) : List ContextCall := t.context.2

variable {F D : Type} {ctx : Context F D} {s : IreeSession}

theorem recorded_emits {α : Type} (call : ContextCall) (x : EStateM DynInferError D α)
    (t : D × List ContextCall) : EmitsAt Prod.snd (recorded call x) [call] (fun _ => True) t := by
  unfold EmitsAt recorded
  rw [EStateM.run_bind, EStateM.run_modify]
  simp only
  rw [run_onPart]
  cases x.run t.1 with
  | ok a d => exact ⟨rfl, trivial⟩
  | error e d => exact ⟨[call], List.prefix_refl _, rfl⟩

theorem onContext_emits {α : Type} {cs : List ContextCall} {Q : α → Prop}
    {x : EStateM DynInferError (D × List ContextCall) α} {t : SessionState (D × List ContextCall)}
    (h : EmitsAt Prod.snd x cs Q t.context) : EmitsAt callsMade (onContext x) cs Q t :=
  EmitsAt.onPart (fun _ _ => rfl) h

theorem expect_emits {α : Type} (v : Option α) (message : String) (t : D × List ContextCall) :
    EmitsAt Prod.snd (expect v message) [] (fun _ => True) t := by
  cases v with
  | none => exact EmitsAt.throw
  | some a => exact EmitsAt.pure trivial

theorem keepLogits_emits (wantLogits : Bool) (chunkLogits : Option (List F)) (logits : List F)
    (t : D × List ContextCall) :
    EmitsAt Prod.snd (keepLogits wantLogits chunkLogits logits) [] (fun _ => True) t := by
  unfold keepLogits
  split
  · exact expect_emits _ _ t
  · exact EmitsAt.pure trivial

theorem prefillChunks_emits (chunkSize total : Nat) (pieces : List (List TokenId)) :
    ∀ (i : Nat) (logits : List F) (t : D × List ContextCall),
      EmitsAt Prod.snd (prefillChunks ctx.recording s chunkSize total i pieces logits)
        ((s.chunkCalls chunkSize i pieces).map .chunk) (fun _ => True) t := by
  induction pieces with
  | nil => intro i logits t; exact EmitsAt.pure trivial
  | cons chunk rest ih =>
    intro i logits t
    unfold prefillChunks
    refine (recorded_emits _ _ t).bind fun r t' _ => ?_
    exact (keepLogits_emits _ _ _ t').bind_silent fun logits' t'' _ => ih (i + 1) logits' t''

theorem prefillArgmaxChunks_emits (chunkSize : Nat) (pieces : List (List TokenId)) :
    ∀ (i : Nat) (token : Int) (t : D × List ContextCall),
      EmitsAt Prod.snd (prefillArgmaxChunks ctx.recording s chunkSize i pieces token)
        ((s.chunkCalls chunkSize i pieces).map .chunk) (fun _ => True) t := by
  induction pieces with
  | nil => intro i token t; exact EmitsAt.pure trivial
  | cons chunk rest ih =>
    intro i token t
    unfold prefillArgmaxChunks
    exact (recorded_emits _ _ t).bind fun r t' _ => ih (i + 1) r.2 t'

/-- What both prefills do before the chunks, and how the calls they make add up. -/
def prefillCalls (s : IreeSession) (pageSize chunkSize : Nat) (tokens : List TokenId) : List ContextCall :=
  .resetPagedKv :: .ensureKvPages (s.maxPages pageSize) :: (s.prefillPlan chunkSize tokens).map .chunk

theorem checkBatchSize_emits (t : SessionState (D × List ContextCall)) :
    EmitsAt callsMade (checkBatchSize s) [] (fun _ => True) t :=
  EmitsAt.require.conseq fun _ _ => trivial

theorem checkNonEmpty_emits (tokens : List TokenId) (t : SessionState (D × List ContextCall)) :
    EmitsAt callsMade (checkNonEmpty tokens) [] (fun _ => True) t :=
  EmitsAt.require.conseq fun _ _ => trivial

theorem checkPrefillLength_emits (tokens : List TokenId) (t : SessionState (D × List ContextCall)) :
    EmitsAt callsMade (checkPrefillLength s tokens) [] (fun _ => True) t :=
  EmitsAt.require.conseq fun _ _ => trivial

/-- `prefill` makes the calls of its plan, or fails after a beginning of them. -/
theorem prefill_emits {pageSize chunkSize : Nat} (hs : s.kv.storage = .paged pageSize chunkSize)
    (tokens : List TokenId) (t : SessionState (D × List ContextCall)) :
    EmitsAt callsMade (prefill ctx.recording s tokens) (prefillCalls s pageSize chunkSize tokens)
      (fun _ => True) t := by
  have hgeo : s.pagedGeometry = some (pageSize, chunkSize) := by rw [IreeSession.pagedGeometry, hs]
  have hvalues : ∀ t : SessionState (D × List ContextCall),
      EmitsAt callsMade (prefillValues ctx.recording s tokens) (prefillCalls s pageSize chunkSize tokens)
        (fun _ => True) t := by
    intro t
    unfold prefillValues
    rw [hgeo]
    refine (onContext_emits (recorded_emits _ _ _)).bind fun _ t₁ _ => ?_
    refine (onContext_emits (recorded_emits _ _ _)).bind fun _ t₂ _ => ?_
    exact onContext_emits (prefillChunks_emits _ _ _ _ _ _)
  unfold prefill
  refine (checkBatchSize_emits t).bind_silent fun _ t _ => ?_
  refine (checkNonEmpty_emits tokens t).bind_silent fun _ t _ => ?_
  refine EmitsAt.require.bind_silent fun _ t _ => ?_
  refine (checkPrefillLength_emits tokens t).bind_silent fun _ t _ => ?_
  refine (EmitsAt.modify rfl).bind_silent fun _ t _ => ?_
  rw [← List.append_nil (prefillCalls s pageSize chunkSize tokens)]
  refine (hvalues t).bind fun values t _ => ?_
  refine EmitsAt.require.bind_silent fun _ t _ => ?_
  exact (EmitsAt.modify rfl).bind_silent fun _ t _ => EmitsAt.pure trivial

/-- And so does `prefill_argmax`: the same calls. -/
theorem prefillArgmax_emits [HostFloat F] {pageSize chunkSize : Nat} (hs : s.kv.storage = .paged pageSize chunkSize)
    (tokens : List TokenId) (t : SessionState (D × List ContextCall)) :
    EmitsAt callsMade (prefillArgmax ctx.recording s tokens) (prefillCalls s pageSize chunkSize tokens)
      (fun _ => True) t := by
  have hgeo : s.pagedGeometry = some (pageSize, chunkSize) := by rw [IreeSession.pagedGeometry, hs]
  unfold prefillArgmax
  rw [hgeo]
  refine (checkBatchSize_emits t).bind_silent fun _ t _ => ?_
  refine (checkNonEmpty_emits tokens t).bind_silent fun _ t _ => ?_
  refine (checkPrefillLength_emits tokens t).bind_silent fun _ t _ => ?_
  refine (EmitsAt.modify rfl).bind_silent fun _ t _ => ?_
  refine (onContext_emits (recorded_emits _ _ _)).bind fun _ t _ => ?_
  refine (onContext_emits (recorded_emits _ _ _)).bind fun _ t _ => ?_
  rw [← List.append_nil (List.map _ _)]
  refine (onContext_emits (prefillArgmaxChunks_emits _ _ _ _ _)).bind fun token t _ => ?_
  refine EmitsAt.require.bind_silent fun _ t _ => ?_
  exact (EmitsAt.modify rfl).bind_silent fun _ t _ => EmitsAt.pure trivial

end Dyninfer
