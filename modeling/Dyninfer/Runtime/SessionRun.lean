/-
Runs of a session: any sequence of its five operations, each keeping the state
it reached whether or not it succeeded.
-/
import Dyninfer.Runtime.Session

namespace Dyninfer

open Effect Rows

/-- An operation a caller makes on a session. -/
inductive SessionOp where
  | prefill (tokens : List TokenId)
  | decode (token : TokenId)
  | prefillArgmax (tokens : List TokenId)
  | decodeArgmax (token : TokenId)
  | reset
  deriving DecidableEq, Repr

variable {F D : Type} [HostFloat F]

/-- The operation as a program, its value dropped. -/
def SessionOp.program (ctx : Context F D) (s : IreeSession) :
    SessionOp → EStateM DynInferError (SessionState D) Unit
  | .prefill tokens => do let _ ← Dyninfer.prefill ctx s tokens
  | .decode token => do let _ ← Dyninfer.decode ctx s token
  | .prefillArgmax tokens => do let _ ← Dyninfer.prefillArgmax ctx s tokens
  | .decodeArgmax token => do let _ ← Dyninfer.decodeArgmax ctx s token
  | .reset => Dyninfer.reset ctx s

/-- The state behind an operation, successful or not. -/
def SessionOp.exec (ctx : Context F D) (s : IreeSession) (t : SessionState D) (op : SessionOp) :
    SessionState D :=
  match (op.program ctx s).run t with
  | .ok _ t' => t'
  | .error _ t' => t'

/-- The state behind a sequence of operations. -/
def runOps (ctx : Context F D) (s : IreeSession) (t : SessionState D) (ops : List SessionOp) :
    SessionState D :=
  ops.foldl (SessionOp.exec ctx s) t

variable {ctx : Context F D} {s : IreeSession}

theorem exec_of_triple {P Q : SessionState D → Prop} {op : SessionOp}
    (h : Triple P (op.program ctx s) (fun _ => Q) Q) {t : SessionState D} (ht : P t) :
    Q (op.exec ctx s t) := by
  have h' := h t ht
  unfold SessionOp.exec
  revert h'
  cases (op.program ctx s).run t with
  | ok _ t' => exact fun h => h
  | error _ t' => exact fun h => h

/-- What every operation preserves holds behind every run. -/
theorem runOps_invariant {P : SessionState D → Prop}
    (hstep : ∀ (op : SessionOp) t, P t → P (op.exec ctx s t)) (ops : List SessionOp) :
    ∀ {t : SessionState D}, P t → P (runOps ctx s t ops) := by
  induction ops with
  | nil => intro t ht; exact ht
  | cons op ops ih => intro t ht; exact ih (hstep op t ht)

/-! ## Invariants of the context -/

/-- A property of the context that each call the session may make on it keeps. -/
structure ContextInvariant (ctx : Context F D) (s : IreeSession) (I : D → Prop) : Prop where
  reset : Triple I ctx.resetPagedKv (fun _ => I) I
  ensure : ∀ pageSize chunkSize, s.kv.storage = .paged pageSize chunkSize →
    Triple I (ctx.ensureKvPages (s.maxPages pageSize)) (fun _ => I) I
  invoke : ∀ window last start wantLogits,
    Triple I (ctx.invokePagedChunkEx window last start wantLogits) (fun _ => I) I
  prefill : ∀ window last, Triple I (ctx.invokePrefill window last) (fun _ => I) I
  decode : ∀ token position bias, Triple I (ctx.invokeDecode token position bias) (fun _ => I) I

section preserved

variable {I : D → Prop}

/-- A program that keeps `I` of the context, whatever it does to the session's own fields. -/
def Keeps (I : D → Prop) {α : Type} (x : EStateM DynInferError (SessionState D) α) : Prop :=
  Triple (fun t => I t.context) x (fun _ t => I t.context) (fun t => I t.context)

theorem Keeps.bind {α β : Type} {x : EStateM DynInferError (SessionState D) α}
    {f : α → EStateM DynInferError (SessionState D) β} (hx : Keeps I x) (hf : ∀ a, Keeps I (f a)) :
    Keeps I (x >>= f) := Triple.bind hx hf

theorem Keeps.pure {α : Type} (a : α) : Keeps I (Pure.pure a) := Triple.pure fun _ h => h

theorem Keeps.require {c : Bool} {e : DynInferError} : Keeps I (require c e) :=
  Triple.require (fun _ _ h => h) fun _ _ h => h

theorem Keeps.modify {g : SessionState D → SessionState D} (h : ∀ t, (g t).context = t.context) :
    Keeps I (modify g) := Triple.modify fun t ht => by rw [h]; exact ht

theorem Keeps.onContext {α : Type} {x : EStateM DynInferError D α} (h : Triple I x (fun _ => I) I) :
    Keeps I (onContext x) := by
  intro t ht
  have h' := h t.context ht
  rw [Dyninfer.onContext, run_onPart]
  revert h'
  cases x.run t.context with
  | ok a d => exact fun h => h
  | error e d => exact fun h => h

theorem Keeps.checkDecodePosition : Keeps I (checkDecodePosition s) :=
  Keeps.bind (fun _ h => h) fun _ => Keeps.require

omit [HostFloat F] in
theorem expect_triple {α : Type} (v : Option α) (message : String) :
    Triple I (expect v message) (fun _ => I) I := by
  cases v with
  | none => exact Triple.throw fun _ h => h
  | some a => exact Triple.pure fun _ h => h

omit [HostFloat F] in
theorem keepLogits_triple (wantLogits : Bool) (chunkLogits : Option (List F)) (logits : List F) :
    Triple I (keepLogits wantLogits chunkLogits logits) (fun _ => I) I := by
  unfold keepLogits
  split
  · exact expect_triple _ _
  · exact Triple.pure fun _ h => h

variable (hI : ContextInvariant ctx s I)
include hI

omit [HostFloat F] in
theorem prefillChunks_triple (chunkSize total : Nat) (pieces : List (List TokenId)) :
    ∀ (i : Nat) (logits : List F),
      Triple I (prefillChunks ctx s chunkSize total i pieces logits) (fun _ => I) I := by
  induction pieces with
  | nil => intro i logits; exact Triple.pure fun _ h => h
  | cons chunk rest ih =>
    intro i logits
    exact (hI.invoke _ _ _ _).bind fun r => (keepLogits_triple _ _ _).bind fun logits' => ih (i + 1) logits'

omit [HostFloat F] in
theorem prefillArgmaxChunks_triple (chunkSize : Nat) (pieces : List (List TokenId)) :
    ∀ (i : Nat) (token : Int),
      Triple I (prefillArgmaxChunks ctx s chunkSize i pieces token) (fun _ => I) I := by
  induction pieces with
  | nil => intro i token; exact Triple.pure fun _ h => h
  | cons chunk rest ih =>
    intro i token
    exact (hI.invoke _ _ _ _).bind fun r => ih (i + 1) r.2

omit [HostFloat F] in
theorem pagedGeometry_ensure {pageSize chunkSize : Nat} (h : s.pagedGeometry = some (pageSize, chunkSize)) :
    Triple I (ctx.ensureKvPages (s.maxPages pageSize)) (fun _ => I) I := by
  unfold IreeSession.pagedGeometry at h
  split at h
  · cases h
  · next hs =>
    obtain ⟨rfl, rfl⟩ := Prod.mk.inj (Option.some.inj h)
    exact hI.ensure _ _ hs

omit [HostFloat F] in
theorem prefill_keeps (tokens : List TokenId) : Keeps I (prefill ctx s tokens) := by
  refine Keeps.bind Keeps.require fun _ => Keeps.bind Keeps.require fun _ => Keeps.bind Keeps.require
    fun _ => Keeps.bind Keeps.require fun _ => Keeps.bind (Keeps.modify fun _ => rfl) fun _ => ?_
  refine Keeps.bind ?_ fun values => Keeps.bind Keeps.require fun _ =>
    Keeps.bind (Keeps.modify fun _ => rfl) fun _ => Keeps.pure _
  unfold prefillValues
  split
  · next hgeo =>
    exact Keeps.bind (Keeps.onContext hI.reset) fun _ =>
      Keeps.bind (Keeps.onContext (pagedGeometry_ensure hI hgeo)) fun _ =>
        Keeps.onContext (prefillChunks_triple hI _ _ _ _ _)
  · exact Keeps.onContext (hI.prefill _ _)

theorem decode_keeps (token : TokenId) : Keeps I (decode ctx s token) := by
  refine Keeps.bind Keeps.require fun _ => Keeps.bind Keeps.checkDecodePosition fun _ =>
    Keeps.bind (fun _ h => h) fun t => ?_
  refine Keeps.bind ?_ fun values => Keeps.bind Keeps.require fun _ =>
    Keeps.bind (Keeps.modify fun _ => rfl) fun _ => Keeps.pure _
  unfold decodeValues
  split
  · next hgeo =>
    exact Keeps.bind (Keeps.onContext (pagedGeometry_ensure hI hgeo)) fun _ =>
      Keeps.onContext ((hI.invoke _ _ _ _).bind fun r => expect_triple _ _)
  · exact Keeps.onContext (hI.decode _ _ _)

theorem prefillArgmax_keeps (tokens : List TokenId) : Keeps I (prefillArgmax ctx s tokens) := by
  unfold prefillArgmax
  split
  · exact Keeps.bind (prefill_keeps hI tokens) fun _ => Keeps.pure _
  · next hgeo =>
    exact Keeps.bind Keeps.require fun _ => Keeps.bind Keeps.require fun _ =>
      Keeps.bind Keeps.require fun _ => Keeps.bind (Keeps.modify fun _ => rfl) fun _ =>
      Keeps.bind (Keeps.onContext hI.reset) fun _ =>
      Keeps.bind (Keeps.onContext (pagedGeometry_ensure hI hgeo)) fun _ =>
      Keeps.bind (Keeps.onContext (prefillArgmaxChunks_triple hI _ _ _ _)) fun _ =>
      Keeps.bind Keeps.require fun _ => Keeps.bind (Keeps.modify fun _ => rfl) fun _ => Keeps.pure _

theorem decodeArgmax_keeps (token : TokenId) : Keeps I (decodeArgmax ctx s token) := by
  unfold decodeArgmax
  split
  · exact Keeps.bind (decode_keeps hI token) fun _ => Keeps.pure _
  · next hgeo =>
    exact Keeps.bind Keeps.require fun _ => Keeps.bind Keeps.checkDecodePosition fun _ =>
      Keeps.bind (fun _ h => h) fun _ =>
      Keeps.bind (Keeps.onContext (pagedGeometry_ensure hI hgeo)) fun _ =>
      Keeps.bind (Keeps.onContext (hI.invoke _ _ _ _)) fun _ =>
      Keeps.bind Keeps.require fun _ => Keeps.bind (Keeps.modify fun _ => rfl) fun _ => Keeps.pure _

omit [HostFloat F] in
theorem reset_keeps : Keeps I (reset ctx s) := by
  refine Keeps.bind ?_ fun _ => Keeps.modify fun _ => rfl
  unfold resetContext
  split
  · exact Keeps.onContext hI.reset
  · exact Keeps.pure _

/-- What every context call keeps, every run keeps. -/
theorem runOps_context (ops : List SessionOp) {t : SessionState D} (ht : I t.context) :
    I (runOps ctx s t ops).context := by
  refine runOps_invariant (P := fun t => I t.context) (fun op t ht => ?_) ops ht
  refine exec_of_triple (P := fun t => I t.context) (Q := fun t => I t.context) ?_ ht
  cases op with
  | prefill tokens => exact Keeps.bind (prefill_keeps hI tokens) fun _ => Keeps.pure _
  | decode token => exact Keeps.bind (decode_keeps hI token) fun _ => Keeps.pure _
  | prefillArgmax tokens => exact Keeps.bind (prefillArgmax_keeps hI tokens) fun _ => Keeps.pure _
  | decodeArgmax token => exact Keeps.bind (decodeArgmax_keeps hI token) fun _ => Keeps.pure _
  | reset => exact reset_keeps hI

end preserved

end Dyninfer
