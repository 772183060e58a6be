/-
The publish lock of the artifact cache (`dyninfer-cache`): a file created
with `create_new`, tested for staleness, removed when stale and removed again
by the guard's `Drop`. Every file-system call of a publisher is a step of its
own, so publishers interleave between any two of them; any call that the code
takes an error from may fail. A file keeps an identity of its own (its inode),
because a path may name another file by the time a test's verdict is used.

The clock counts milliseconds and does not go back. A lock file found at the
start is an earlier publisher's, of any age.
-/
import Dyninfer.Lib.Runs
import Mathlib.Logic.Function.Basic

namespace Dyninfer

/-- What a lock file holds and the times its metadata give. -/
structure LockFile where
  holder : Option Nat
  created : Nat
  modified : Nat
  deriving DecidableEq

/-- Where a publisher stands in `acquire_publish_lock`, with the attempts left to it. -/
inductive LockPhase where
  | idle
  | acquiring (attempts : Nat)
  /-- `create_new` found a lock; its metadata is read next. -/
  | testing (attempts : Nat)
  | measuring (attempts file modified : Nat)
  /-- The lock is old; its holder is read next. -/
  | probing (attempts file : Nat)
  /-- The lock was judged stale, from this file or from none; it is removed next. -/
  | reclaiming (attempts : Nat) (file : Option Nat)
  | sleeping (attempts : Nat)
  | created (file : Nat)
  | holding (file : Nat)
  | released
  | failed
  | crashed
  deriving DecidableEq

/-- The lock of one digest and its publishers. -/
structure LockState (P : Type) where
  phase : P → LockPhase
  /-- The file at the lock's path. -/
  path : Option Nat
  files : Nat → LockFile
  /-- The identity the next file gets. -/
  next : Nat
  now : Nat
  running : Nat → Bool

/-- The process of each publisher, and whether the host is a Linux. -/
structure LockHost (P : Type) where
  pid : P → Nat
  linux : Bool

inductive LockAction (P : Type) where
  | acquire (p : P) (error : Bool)
  | createNew (p : P) (error : Bool)
  | writePid (p : P) (error : Bool)
  | metadata (p : P) (error : Bool)
  | elapsed (p : P)
  | readHolder (p : P) (error : Bool)
  | removeStale (p : P)
  | sleep (p : P)
  | release (p : P)
  | crash (p : P)
  | tick (ms : Nat)
  | processes (running : Nat → Bool)

def publishAttempts : Nat := 500

/-- `STALE_SECS`. -/
def staleSecs : Nat := 300

/-- `Duration::as_secs`. -/
def asSecs (ms : Nat) : Nat := ms / 1000

/-- The file a publisher holds: it created it and has not released it. -/
def LockPhase.held : LockPhase → Option Nat
  | .created file | .holding file => some file
  | _ => none

/-- The file a publisher has found old. -/
def LockPhase.judged : LockPhase → Option Nat
  | .probing _ file => some file
  | .reclaiming _ file => file
  | _ => none

namespace LockState

variable {P : Type}

/-- `process_is_running`. -/
def processIsRunning (host : LockHost P) (s : LockState P) (pid : Nat) : Bool :=
  host.linux && pid != 0 && s.running pid

/-- The process the lock names: the path is read again, whatever file is there by now. -/
def readLock (s : LockState P) (error : Bool) : Option Nat :=
  if error then none else s.path.bind fun file => (s.files file).holder

section step

variable [DecidableEq P]

def setPhase (s : LockState P) (p : P) (phase : LockPhase) : LockState P :=
  { s with phase := Function.update s.phase p phase }

/-- One file-system call of one publisher, or a change around them. -/
def step (host : LockHost P) (s : LockState P) : LockAction P → Option (LockState P)
  | .acquire p error =>
    match s.phase p with
    | .idle => some (s.setPhase p (if error then .failed else .acquiring publishAttempts))
    | _ => none
  | .createNew p error =>
    match s.phase p with
    | .acquiring 0 => some (s.setPhase p .failed)
    | .acquiring (n + 1) =>
      if error then some (s.setPhase p .failed)
      else match s.path with
        | some _ => some (s.setPhase p (.testing n))
        | none => some { s.setPhase p (.created s.next) with
            path := some s.next
            files := Function.update s.files s.next ⟨none, s.now, s.now⟩
            next := s.next + 1 }
    | _ => none
  | .writePid p error =>
    match s.phase p with
    | .created file =>
      if error then some (s.setPhase p (.holding file))
      else some { s.setPhase p (.holding file) with
        files := Function.update s.files file { s.files file with holder := some (host.pid p), modified := s.now } }
    | _ => none
  | .metadata p error =>
    match s.phase p with
    | .testing n =>
      match s.path, error with
      | some file, false => some (s.setPhase p (.measuring n file (s.files file).modified))
      -- a lock that has vanished counts as stale, as does one whose metadata cannot be read
      | _, _ => some (s.setPhase p (.reclaiming n none))
    | _ => none
  | .elapsed p =>
    match s.phase p with
    | .measuring n file modified =>
      if s.now < modified then some (s.setPhase p (.reclaiming n (some file)))
      else if asSecs (s.now - modified) < staleSecs then some (s.setPhase p (.sleeping n))
      else some (s.setPhase p (.probing n file))
    | _ => none
  | .readHolder p error =>
    match s.phase p with
    | .probing n file =>
      if (s.readLock error).any (s.processIsRunning host) then some (s.setPhase p (.sleeping n))
      else some (s.setPhase p (.reclaiming n (some file)))
    | _ => none
  | .removeStale p =>
    match s.phase p with
    | .reclaiming n _ => some { s.setPhase p (.acquiring n) with path := none }
    | _ => none
  | .sleep p =>
    match s.phase p with
    | .sleeping n => some (s.setPhase p (.acquiring n))
    | _ => none
  | .release p =>
    match s.phase p with
    | .holding _ => some { s.setPhase p .released with path := none }
    | _ => none
  | .crash p => some (s.setPhase p .crashed)
  | .tick ms => some { s with now := s.now + ms }
  | .processes running => some { s with running }

end step

/-- No publisher has begun; a lock left at the path is none of theirs. -/
structure Start (s : LockState P) : Prop where
  idle : ∀ p, s.phase p = .idle
  fresh : ∀ file, s.path = some file → file < s.next

/-- Every holder is running, and its lock is not older than the threshold. -/
def Orderly (host : LockHost P) (s : LockState P) : Prop :=
  ∀ p, ∀ file ∈ (s.phase p).held,
    s.running (host.pid p) = true ∧ s.now < (s.files file).created + 1000 * staleSecs

instance {n : Nat} (host : LockHost (Fin n)) (s : LockState (Fin n)) : Decidable (s.Orderly host) := by
  unfold Orderly; infer_instance

/-- What is removed as stale is the file the test looked at, or no longer there. -/
def ReclaimsTested (s : LockState P) : LockAction P → Prop
  | .removeStale p => s.path = none ∨ s.path = (s.phase p).judged
  | _ => True

instance (s : LockState P) (a : LockAction P) : Decidable (s.ReclaimsTested a) := by
  cases a <;> unfold ReclaimsTested <;> infer_instance

/-- At most one publisher holds the lock. -/
def Exclusive (s : LockState P) : Prop :=
  ∀ p q, (s.phase p).held.isSome → (s.phase q).held.isSome → p = q

/-- What every step keeps: a holder's file is the one at the path and nobody has found it old. -/
structure Inv (s : LockState P) : Prop where
  fresh : ∀ file, s.path = some file → file < s.next
  own : ∀ p file, (s.phase p).held = some file → s.path = some file
  unique : ∀ p q file, (s.phase p).held = some file → (s.phase q).held = some file → p = q
  timed : ∀ p file, (s.phase p).held = some file →
    (s.files file).created ≤ (s.files file).modified ∧ (s.files file).modified ≤ s.now
  measured : ∀ p n file modified, s.phase p = .measuring n file modified →
    file < s.next ∧ ∀ q, (s.phase q).held = some file → (s.files file).created ≤ modified ∧ modified ≤ s.now
  judged : ∀ p file, (s.phase p).judged = some file → file < s.next ∧ ∀ q, (s.phase q).held ≠ some file

variable {s : LockState P}

theorem Start.inv (h : s.Start) : s.Inv where
  fresh := h.fresh
  own := by simp [h.idle, LockPhase.held]
  unique := by simp [h.idle, LockPhase.held]
  timed := by simp [h.idle, LockPhase.held]
  measured := by simp [h.idle]
  judged := by simp [h.idle, LockPhase.judged]

theorem Inv.exclusive (h : s.Inv) : s.Exclusive := by
  intro p q hp hq
  obtain ⟨file, hfile⟩ := Option.isSome_iff_exists.mp hp
  obtain ⟨file', hfile'⟩ := Option.isSome_iff_exists.mp hq
  have heq : file = file' := Option.some_inj.mp ((h.own p file hfile).symm.trans (h.own q file' hfile'))
  exact h.unique p q file hfile (heq ▸ hfile')

/-- With no holder, the path may be cleared. -/
theorem Inv.clear (h : s.Inv) (hnone : ∀ p, (s.phase p).held = none) : Inv { s with path := none } where
  fresh := by simp
  own := by simp [hnone]
  unique := by simp [hnone]
  timed := by simp [hnone]
  measured p n file modified hp := ⟨(h.measured p n file modified hp).1, by simp [hnone]⟩
  judged p file hp := ⟨(h.judged p file hp).1, by simp [hnone]⟩

theorem Inv.tick (h : s.Inv) (ms : Nat) : Inv { s with now := s.now + ms } where
  fresh := h.fresh
  own := h.own
  unique := h.unique
  timed p file hp := ⟨(h.timed p file hp).1, Nat.le_add_right_of_le (h.timed p file hp).2⟩
  measured p n file modified hp := ⟨(h.measured p n file modified hp).1, fun q hq =>
    ⟨((h.measured p n file modified hp).2 q hq).1, Nat.le_add_right_of_le ((h.measured p n file modified hp).2 q hq).2⟩⟩
  judged := h.judged

/-- The owner of a file writes to it. -/
theorem Inv.write (h : s.Inv) {p : P} {file : Nat} (hheld : (s.phase p).held = some file) (holder : Option Nat) :
    Inv { s with files := Function.update s.files file { s.files file with holder, modified := s.now } } where
  fresh := h.fresh
  own := h.own
  unique := h.unique
  timed q f hq := by
    by_cases hf : f = file
    · subst hf
      simp only [Function.update_self]
      exact ⟨Nat.le_trans (h.timed q f hq).1 (h.timed q f hq).2, Nat.le_refl _⟩
    · simp only [Function.update_of_ne hf]
      exact h.timed q f hq
  measured q n f modified hq := by
    refine ⟨(h.measured q n f modified hq).1, fun r hr => ?_⟩
    have hcreated : (Function.update s.files file { s.files file with holder, modified := s.now } f).created =
        (s.files f).created := by
      by_cases hf : f = file
      · subst hf; simp only [Function.update_self]
      · simp only [Function.update_of_ne hf]
    simp only [hcreated]
    exact (h.measured q n f modified hq).2 r hr
  judged := h.judged

/-- A lock that measured old is nobody's: its holder would have released it by now. -/
theorem Inv.old (h : s.Inv) {host : LockHost P} (horderly : s.Orderly host) {p : P} {n file modified : Nat}
    (hphase : s.phase p = .measuring n file modified)
    (hold : s.now < modified ∨ staleSecs ≤ asSecs (s.now - modified)) :
    file < s.next ∧ ∀ q, (s.phase q).held ≠ some file := by
  obtain ⟨hlt, hmeasured⟩ := h.measured p n file modified hphase
  refine ⟨hlt, fun q hq => ?_⟩
  obtain ⟨hcreated, hnow⟩ := hmeasured q hq
  have hfresh := (horderly q file hq).2
  rcases hold with hold | hold
  · exact absurd hold (Nat.not_lt.mpr hnow)
  · unfold asSecs staleSecs at *
    omega

variable [DecidableEq P]

@[simp] theorem setPhase_phase_self (s : LockState P) (p : P) (phase : LockPhase) :
    (s.setPhase p phase).phase p = phase := Function.update_self ..

theorem setPhase_phase_ne (s : LockState P) {p q : P} (phase : LockPhase) (h : q ≠ p) :
    (s.setPhase p phase).phase q = s.phase q := Function.update_of_ne h ..

/-- A publisher moves on without taking a file; what it measured or judged is so. -/
theorem Inv.setPhase (h : s.Inv) (p : P) {phase : LockPhase}
    (hheld : ∀ file, phase.held = some file → (s.phase p).held = some file)
    (hmeasured : ∀ n file modified, phase = .measuring n file modified →
      file < s.next ∧ ∀ q, (s.phase q).held = some file → (s.files file).created ≤ modified ∧ modified ≤ s.now)
    (hjudged : ∀ file, phase.judged = some file → file < s.next ∧ ∀ q, (s.phase q).held ≠ some file) :
    (s.setPhase p phase).Inv := by
  have hold : ∀ q file, ((s.setPhase p phase).phase q).held = some file → (s.phase q).held = some file := by
    intro q file hq
    by_cases hqp : q = p
    · subst hqp
      rw [setPhase_phase_self] at hq
      exact hheld file hq
    · rwa [setPhase_phase_ne s phase hqp] at hq
  refine ⟨h.fresh, fun q file hq => h.own q file (hold q file hq),
    fun q r file hq hr => h.unique q r file (hold q file hq) (hold r file hr),
    fun q file hq => h.timed q file (hold q file hq), ?_, ?_⟩
  · intro q n file modified hq
    by_cases hqp : q = p
    · subst hqp
      rw [setPhase_phase_self] at hq
      exact ⟨(hmeasured n file modified hq).1, fun r hr => (hmeasured n file modified hq).2 r (hold r file hr)⟩
    · rw [setPhase_phase_ne s phase hqp] at hq
      exact ⟨(h.measured q n file modified hq).1, fun r hr => (h.measured q n file modified hq).2 r (hold r file hr)⟩
  · intro q file hq
    by_cases hqp : q = p
    · subst hqp
      rw [setPhase_phase_self] at hq
      exact ⟨(hjudged file hq).1, fun r hr => (hjudged file hq).2 r (hold r file hr)⟩
    · rw [setPhase_phase_ne s phase hqp] at hq
      exact ⟨(h.judged q file hq).1, fun r hr => (h.judged q file hq).2 r (hold r file hr)⟩

/-- A publisher moves on with nothing taken, measured or judged. -/
theorem Inv.advance (h : s.Inv) (p : P) (phase : LockPhase) (hheld : phase.held = none)
    (hmeasured : ∀ n file modified, phase ≠ .measuring n file modified) (hjudged : phase.judged = none) :
    (s.setPhase p phase).Inv :=
  h.setPhase p (fun file hf => by rw [hheld] at hf; cases hf)
    (fun n file modified hp => absurd hp (hmeasured n file modified))
    (fun file hf => by rw [hjudged] at hf; cases hf)

/-! ## What one step keeps -/

/-- `create_new` finds no lock and makes one, so nobody held any. -/
theorem Inv.create (h : s.Inv) (p : P) (hpath : s.path = none) :
    Inv { s.setPhase p (.created s.next) with
      path := some s.next, files := Function.update s.files s.next ⟨none, s.now, s.now⟩, next := s.next + 1 } := by
  have hnone : ∀ q, (s.phase q).held = none := fun q => by
    rw [Option.eq_none_iff_forall_ne_some]
    intro file hq
    rw [h.own q file hq] at hpath
    cases hpath
  have hheld : ∀ q file, ((s.setPhase p (.created s.next)).phase q).held = some file → q = p ∧ file = s.next := by
    intro q file hq
    by_cases hqp : q = p
    · subst hqp
      rw [setPhase_phase_self, LockPhase.held, Option.some_inj] at hq
      exact ⟨rfl, hq.symm⟩
    · rw [setPhase_phase_ne s _ hqp, hnone] at hq
      cases hq
  refine ⟨?_, ?_, ?_, ?_, ?_, ?_⟩
  · rintro file ⟨⟩
    exact Nat.lt_succ_self _
  · intro q file hq
    rw [(hheld q file hq).2]
  · intro q r file hq hr
    exact (hheld q file hq).1.trans (hheld r file hr).1.symm
  · intro q file hq
    rw [(hheld q file hq).2]
    simp only [Function.update_self]
    exact ⟨Nat.le_refl _, Nat.le_refl _⟩
  · intro q n file modified hq
    have hqp : q ≠ p := fun hqp => by subst hqp; rw [setPhase_phase_self] at hq; cases hq
    rw [setPhase_phase_ne s _ hqp] at hq
    have hlt := (h.measured q n file modified hq).1
    exact ⟨Nat.lt_succ_of_lt hlt, fun r hr => absurd (hheld r file hr).2 (Nat.ne_of_lt hlt)⟩
  · intro q file hq
    have hqp : q ≠ p := fun hqp => by subst hqp; rw [setPhase_phase_self] at hq; cases hq
    rw [setPhase_phase_ne s _ hqp] at hq
    have hlt := (h.judged q file hq).1
    exact ⟨Nat.lt_succ_of_lt hlt, fun r hr => absurd (hheld r file hr).2 (Nat.ne_of_lt hlt)⟩

theorem Inv.step {host : LockHost P} (h : s.Inv) (horderly : s.Orderly host) {a : LockAction P}
    (htested : s.ReclaimsTested a) {t : LockState P} (hstep : s.step host a = some t) : t.Inv := by
  cases a with
  | acquire p error =>
    simp only [LockState.step] at hstep
    split at hstep <;> cases hstep
    cases error <;> exact h.advance p _ rfl nofun rfl
  | createNew p error =>
    simp only [LockState.step] at hstep
    split at hstep
    case h_1 => cases hstep; exact h.advance p _ rfl nofun rfl
    case h_3 => cases hstep
    case h_2 n hphase =>
      split at hstep
      case isTrue => cases hstep; exact h.advance p _ rfl nofun rfl
      case isFalse =>
        split at hstep <;> cases hstep
        case h_1 => exact h.advance p _ rfl nofun rfl
        case h_2 hpath => exact h.create p hpath
  | writePid p error =>
    simp only [LockState.step] at hstep
    split at hstep <;> try cases hstep
    next file hphase =>
      have hheld : ∀ f, LockPhase.held (.holding file) = some f → (s.phase p).held = some f := fun f hf => by
        rw [hphase]; exact hf
      have hmove := h.setPhase p hheld nofun nofun
      split at hstep <;> cases hstep
      case isTrue => exact hmove
      case isFalse => exact hmove.write (p := p) (by rw [setPhase_phase_self]; rfl) _
  | metadata p error =>
    simp only [LockState.step] at hstep
    split at hstep <;> try cases hstep
    split at hstep <;> cases hstep
    case h_2 => exact h.advance p _ rfl nofun rfl
    case h_1 n _ _ _ file hpath =>
      refine h.setPhase p nofun ?_ nofun
      rintro _ _ _ ⟨⟩
      exact ⟨h.fresh file hpath, fun q hq => h.timed q file hq⟩
  | elapsed p =>
    simp only [LockState.step] at hstep
    split at hstep <;> try cases hstep
    next n file modified hphase =>
      split at hstep
      case isTrue hfuture =>
        cases hstep
        refine h.setPhase p nofun nofun ?_
        rintro _ ⟨⟩
        exact h.old horderly hphase (.inl hfuture)
      case isFalse =>
        split at hstep <;> cases hstep
        case isTrue => exact h.advance p _ rfl nofun rfl
        case isFalse hage =>
          refine h.setPhase p nofun nofun ?_
          rintro _ ⟨⟩
          exact h.old horderly hphase (.inr (Nat.not_lt.mp hage))
  | readHolder p error =>
    simp only [LockState.step] at hstep
    split at hstep <;> try cases hstep
    next n file hphase =>
      split at hstep <;> cases hstep
      case isTrue => exact h.advance p _ rfl nofun rfl
      case isFalse =>
        refine h.setPhase p nofun nofun ?_
        rintro _ ⟨⟩
        exact h.judged p _ (by rw [hphase]; rfl)
  | removeStale p =>
    simp only [LockState.step] at hstep
    split at hstep <;> cases hstep
    next n file hphase =>
      -- a holder's file is at the path, and what was tested is nobody's
      have hnone : ∀ q, (s.phase q).held = none := fun q => by
        rw [Option.eq_none_iff_forall_ne_some]
        intro f hq
        have hpath := h.own q f hq
        rcases htested with hgone | hsame
        · rw [hpath] at hgone; cases hgone
        · exact (h.judged p f (hsame.symm.trans hpath)).2 q hq
      have hmove := h.advance p (.acquiring n) rfl nofun rfl
      refine hmove.clear fun q => ?_
      by_cases hqp : q = p
      · subst hqp; rw [setPhase_phase_self]; rfl
      · rw [setPhase_phase_ne s _ hqp, hnone q]
  | sleep p =>
    simp only [LockState.step] at hstep
    split at hstep <;> cases hstep
    exact h.advance p _ rfl nofun rfl
  | release p =>
    simp only [LockState.step] at hstep
    split at hstep <;> cases hstep
    next file hphase =>
      have hmove := h.advance p .released rfl nofun rfl
      refine hmove.clear fun q => ?_
      by_cases hqp : q = p
      · subst hqp; rw [setPhase_phase_self]; rfl
      · rw [setPhase_phase_ne s _ hqp, Option.eq_none_iff_forall_ne_some]
        intro f hq
        refine hqp (h.exclusive q p ?_ ?_)
        · rw [hq]; rfl
        · rw [hphase]; rfl
  | crash p =>
    cases hstep
    exact h.advance p _ rfl nofun rfl
  | tick ms =>
    cases hstep
    exact h.tick ms
  | processes running =>
    cases hstep
    exact ⟨h.fresh, h.own, h.unique, h.timed, h.measured, h.judged⟩

/-- **The publish lock excludes.** In every run whose holders are alive and on time, and in which a lock
removed as stale is the one that was tested, at most one publisher is between acquiring and releasing
the lock, in every state. -/
theorem publish_lock_excludes {host : LockHost P} {s t : LockState P} (hstart : s.Start)
    (hrun : Runs.Reaches (step host) (fun s a => s.Orderly host ∧ s.ReclaimsTested a) s t) : t.Exclusive :=
  (hrun.invariant (fun _ _ _ h hok hstep => h.step hok.1 hok.2 hstep) hstart.inv).exclusive

end LockState

/-- Three publishers of one digest, each its own process. -/
def threePublishers : LockHost (Fin 3) := ⟨fun p => p.val + 1, true⟩

/-- No lock, and nobody has begun. -/
def LockState.unlocked : LockState (Fin 3) where
  phase _ := .idle
  path := none
  files _ := ⟨none, 0, 0⟩
  next := 0
  now := 0
  running _ := true

theorem LockState.start_unlocked : LockState.unlocked.Start := ⟨fun _ => rfl, nofun⟩

theorem publish_lock_excludes_waiting :
    ∃ t, Runs.Reaches (LockState.step threePublishers)
        (fun s a => s.Orderly threePublishers ∧ s.ReclaimsTested a) LockState.unlocked t ∧
      (t.phase 1).held = some 1 ∧ t.Exclusive := by
  obtain ⟨t, hrun, hheld⟩ := Runs.exists_reaches (LockState.step threePublishers)
    (fun s a => s.Orderly threePublishers ∧ s.ReclaimsTested a)
    [.acquire 0 false, .createNew 0 false, .writePid 0 false, .acquire 1 false, .createNew 1 false,
      .tick 20, .metadata 1 false, .elapsed 1, .release 0, .sleep 1, .createNew 1 false]
    LockState.unlocked (fun t => (t.phase 1).held == some 1) (by decide)
  exact ⟨t, hrun, eq_of_beq hheld, LockState.publish_lock_excludes LockState.start_unlocked hrun⟩

/-- A publisher finds the released lock gone, takes that for stale, and removes the lock a third one has
made meanwhile. -/
theorem vanished_lock_reclaimed :
    ¬ ∀ (host : LockHost (Fin 3)) (s t : LockState (Fin 3)), s.Start →
      Runs.Reaches (LockState.step host) (fun s _ => s.Orderly host) s t → t.Exclusive := by
  intro hall
  obtain ⟨t, hrun, hboth⟩ := Runs.exists_reaches (LockState.step threePublishers)
    (fun s _ => s.Orderly threePublishers)
    [.acquire 0 false, .createNew 0 false, .writePid 0 false, .acquire 1 false, .acquire 2 false,
      .createNew 1 false, .release 0, .metadata 1 false, .createNew 2 false, .writePid 2 false, .removeStale 1,
      .createNew 1 false]
    LockState.unlocked (fun t => (t.phase 1).held.isSome && (t.phase 2).held.isSome) (by decide)
  rw [Bool.and_eq_true] at hboth
  exact absurd (hall threePublishers _ t LockState.start_unlocked hrun 1 2 hboth.1 hboth.2) (by decide)

end Dyninfer
