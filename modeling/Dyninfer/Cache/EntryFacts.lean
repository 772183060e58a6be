/-
What a lookup can see of an entry. A directory at an entry's path is either
whole, that is some publication's, or deficient: without `manifest.json` or
`model.vmfb`, so no completeness test accepts it. Publications keep this by
renaming a whole directory into place and by deleting deficient ones alone.

`remove` does not: it deletes whole directories piece by piece, under no lock.
The run theorem therefore asks of each of its deletions that no lookup is
between its first and its last test, and that `manifest.json` or `model.vmfb`
goes before the files no test asks for.
-/
import Dyninfer.Cache.ArtifactCache

namespace Dyninfer

set_option linter.unusedSectionVars false

/-! ## Directories -/

namespace EntryDir

/-- No completeness test accepts the directory as it stands. -/
def Deficient (dir : EntryDir) : Prop := dir .manifest = none ∨ dir .model = none

instance (dir : EntryDir) : Decidable dir.Deficient := by unfold Deficient; infer_instance

theorem unlink_eq_none {dir : EntryDir} {file : EntryFile} (h : dir file = none) (removed : EntryFile) :
    dir.unlink removed file = none := by
  unfold unlink
  by_cases hf : file = removed
  · rw [hf, Function.update_self]
  · rwa [Function.update_of_ne hf]

theorem unlink_self (dir : EntryDir) (file : EntryFile) : dir.unlink file file = none :=
  Function.update_self ..

theorem Deficient.unlink {dir : EntryDir} (h : dir.Deficient) (file : EntryFile) : (dir.unlink file).Deficient :=
  h.imp (unlink_eq_none · file) (unlink_eq_none · file)

theorem Deficient.of_isEmpty {dir : EntryDir} (h : dir.isEmpty = true) : dir.Deficient := by
  refine .inl (Option.isNone_iff_eq_none.mp (List.all_eq_true.mp h .manifest ?_))
  exact List.mem_of_elem_eq_true rfl

end EntryDir

namespace Publication

variable (publication : Publication)

theorem dir_model : publication.dir .model = some publication.vmfb := by
  cases h : publication.decodeVmfb <;> simp [dir, files, h, EntryDir.writeAll, EntryDir.write]

theorem dir_manifest : publication.dir .manifest = some publication.manifest := by
  cases h : publication.decodeVmfb <;> simp [dir, files, h, EntryDir.writeAll, EntryDir.write]

theorem dir_decode : publication.dir .decode = publication.decodeVmfb := by
  cases h : publication.decodeVmfb <;> simp [dir, files, h, EntryDir.writeAll, EntryDir.write, EntryDir.empty]

theorem not_deficient : ¬ publication.dir.Deficient := by
  simp [EntryDir.Deficient, dir_manifest, dir_model]

end Publication

/-! ## The invariant -/

/-- The publication is inside the lock. -/
def PublishPhase.active : PublishPhase → Bool
  | .idle | .done | .crashed => false
  | _ => true

/-- The staging directory and what is still to be written to it. -/
def PublishPhase.staged : PublishPhase → Option (EntryDir × List (EntryFile × Bytes))
  | .staging dir todo => some (dir, todo)
  | .rechecking _ dir | .clearing dir | .removing dir | .moving dir => some (dir, [])
  | _ => none

/-- The publication has found the entry incomplete and is replacing it. -/
def PublishPhase.replacing : PublishPhase → Bool
  | .clearing _ | .removing _ | .moving _ => true
  | _ => false

theorem PublishPhase.active_of_replacing {phase : PublishPhase} (h : phase.replacing = true) : phase.active = true := by
  cases phase <;> first | rfl | cases h

/-- The directory of some publication of a digest. -/
def CacheRequests.Whole {D P L : Type} (requests : CacheRequests D P L) (digest : D) (dir : EntryDir) : Prop :=
  ∃ p, requests.digest p = digest ∧ dir = (requests.publication p).dir

/-- A step of `remove`. -/
def CacheAction.isRemoval {D P L R : Type} : CacheAction D P L R → Bool
  | .removeBegin .. | .removeUnlink .. | .removeEnd _ | .removeStop _ => true
  | _ => false

namespace CacheState

variable {D P L R : Type} {requests : CacheRequests D P L} {s : CacheState D P L R}

/-- Nothing has begun, and the cache is empty. -/
structure Start (s : CacheState D P L R) : Prop where
  entry : ∀ digest, s.entry digest = none
  publish : ∀ p, s.publish p = .idle
  lookup : ∀ l, s.lookup l = .idle

structure Inv (requests : CacheRequests D P L) (s : CacheState D P L R) : Prop where
  entries : ∀ digest dir, s.entry digest = some dir → requests.Whole digest dir ∨ dir.Deficient
  locked : ∀ p, (s.publish p).active = true → s.lock (requests.digest p) = some p
  staged : ∀ p dir todo, (s.publish p).staged = some (dir, todo) →
    dir.writeAll todo = (requests.publication p).dir
  replacing : ∀ p, (s.publish p).replacing = true → ∀ dir, s.entry (requests.digest p) = some dir → dir.Deficient
  /-- After its first test, a lookup faces a whole directory or one that fails its second. -/
  looking : ∀ l, s.lookup l = .checking .model → ∀ dir, s.entry (requests.lookedUp l) = some dir →
    requests.Whole (requests.lookedUp l) dir ∨ dir .model = none
  reading : ∀ l, s.lookup l = .checking .decode →
    ∃ dir, s.entry (requests.lookedUp l) = some dir ∧ requests.Whole (requests.lookedUp l) dir

theorem Start.inv (h : s.Start) : s.Inv requests where
  entries := by simp [h.entry]
  locked := by simp [h.publish, PublishPhase.active]
  staged := by simp [h.publish, PublishPhase.staged]
  replacing := by simp [h.entry]
  looking := by simp [h.entry]
  reading := by simp [h.lookup]

theorem not_whole_of_deficient {digest : D} {dir : EntryDir} (h : dir.Deficient) : ¬ requests.Whole digest dir := by
  rintro ⟨p, _, rfl⟩
  exact (requests.publication p).not_deficient h

/-- The lock of a digest is one publication's. -/
theorem Inv.active_unique (h : s.Inv requests) {p q : P} (hp : (s.publish p).active = true)
    (hq : (s.publish q).active = true) (hdigest : requests.digest q = requests.digest p) : q = p := by
  have hlock := h.locked q hq
  rw [hdigest, h.locked p hp, Option.some_inj] at hlock
  exact hlock.symm

variable [DecidableEq D] [DecidableEq P] [DecidableEq L] [DecidableEq R]

theorem Inv.setPublish (h : s.Inv requests) (p : P) {phase : PublishPhase}
    (hactive : phase.active = true → s.lock (requests.digest p) = some p)
    (hstaged : ∀ dir todo, phase.staged = some (dir, todo) → dir.writeAll todo = (requests.publication p).dir)
    (hreplacing : phase.replacing = true → ∀ dir, s.entry (requests.digest p) = some dir → dir.Deficient) :
    (s.setPublish p phase).Inv requests := by
  have hself : (s.setPublish p phase).publish p = phase := Function.update_self ..
  have hne : ∀ q, q ≠ p → (s.setPublish p phase).publish q = s.publish q := fun q hq => Function.update_of_ne hq ..
  refine ⟨h.entries, fun q hq => ?_, fun q dir todo hq => ?_, fun q hq => ?_, h.looking, h.reading⟩
  · by_cases hqp : q = p
    · subst hqp; rw [hself] at hq; exact hactive hq
    · rw [hne q hqp] at hq; exact h.locked q hq
  · by_cases hqp : q = p
    · subst hqp; rw [hself] at hq; exact hstaged dir todo hq
    · rw [hne q hqp] at hq; exact h.staged q dir todo hq
  · by_cases hqp : q = p
    · subst hqp; rw [hself] at hq; exact hreplacing hq
    · rw [hne q hqp] at hq; exact h.replacing q hq

/-- A publication moves on inside its lock, with its staging directory as it was. -/
theorem Inv.advance (h : s.Inv requests) {p : P} (hp : (s.publish p).active = true) (phase : PublishPhase)
    (hstaged : phase.staged = (s.publish p).staged ∨ phase.staged = none)
    (hreplacing : phase.replacing = true → ∀ dir, s.entry (requests.digest p) = some dir → dir.Deficient) :
    (s.setPublish p phase).Inv requests := by
  refine h.setPublish p (fun _ => h.locked p hp) (fun dir todo hdir => ?_) hreplacing
  rcases hstaged with hsame | hnone
  · exact h.staged p dir todo (hsame ▸ hdir)
  · rw [hnone] at hdir; cases hdir

theorem Inv.setEntry (h : s.Inv requests) (digest : D) {dir : Option EntryDir}
    (hentry : ∀ e, dir = some e → requests.Whole digest e ∨ e.Deficient)
    (hreplacing : ∀ p, requests.digest p = digest → (s.publish p).replacing = true →
      ∀ e, dir = some e → e.Deficient)
    (hlooking : ∀ l, requests.lookedUp l = digest → s.lookup l = .checking .model →
      ∀ e, dir = some e → requests.Whole digest e ∨ e .model = none)
    (hreading : ∀ l, requests.lookedUp l = digest → s.lookup l = .checking .decode →
      ∃ e, dir = some e ∧ requests.Whole digest e) :
    (s.setEntry digest dir).Inv requests := by
  have hself : (s.setEntry digest dir).entry digest = dir := Function.update_self ..
  have hne : ∀ d, d ≠ digest → (s.setEntry digest dir).entry d = s.entry d := fun d hd => Function.update_of_ne hd ..
  refine ⟨fun d e hd => ?_, h.locked, h.staged, fun p hp e he => ?_, fun l hl e he => ?_, fun l hl => ?_⟩
  · by_cases hdd : d = digest
    · subst hdd; rw [hself] at hd; exact hentry e hd
    · rw [hne d hdd] at hd; exact h.entries d e hd
  · by_cases hdd : requests.digest p = digest
    · rw [hdd, hself] at he; exact hreplacing p hdd hp e he
    · rw [hne _ hdd] at he; exact h.replacing p hp e he
  · by_cases hdd : requests.lookedUp l = digest
    · rw [hdd, hself] at he; rw [hdd]; exact hlooking l hdd hl e he
    · rw [hne _ hdd] at he; exact h.looking l hl e he
  · by_cases hdd : requests.lookedUp l = digest
    · rw [hdd, hself]; exact hreading l hdd hl
    · rw [hne _ hdd]; exact h.reading l hl

theorem Inv.setLookup (h : s.Inv requests) (l : L) {phase : LookupPhase}
    (hlooking : phase = .checking .model → ∀ dir, s.entry (requests.lookedUp l) = some dir →
      requests.Whole (requests.lookedUp l) dir ∨ dir .model = none)
    (hreading : phase = .checking .decode →
      ∃ dir, s.entry (requests.lookedUp l) = some dir ∧ requests.Whole (requests.lookedUp l) dir) :
    (s.setLookup l phase).Inv requests := by
  have hself : (s.setLookup l phase).lookup l = phase := Function.update_self ..
  have hne : ∀ k, k ≠ l → (s.setLookup l phase).lookup k = s.lookup k := fun k hk => Function.update_of_ne hk ..
  refine ⟨h.entries, h.locked, h.staged, h.replacing, fun k hk => ?_, fun k hk => ?_⟩
  · by_cases hkl : k = l
    · subst hkl; rw [hself] at hk; exact hlooking hk
    · rw [hne k hkl] at hk; exact h.looking k hk
  · by_cases hkl : k = l
    · subst hkl; rw [hself] at hk; exact hreading hk
    · rw [hne k hkl] at hk; exact h.reading k hk

theorem Inv.setRemove (h : s.Inv requests) (r : R) (digest : Option D) : (s.setRemove r digest).Inv requests :=
  ⟨h.entries, h.locked, h.staged, h.replacing, h.looking, h.reading⟩

/-- The lock of a digest changes hands while no publication of it is inside. -/
theorem Inv.setLock (h : s.Inv requests) (digest : D) (holder : Option P)
    (hnone : ∀ p, requests.digest p = digest → (s.publish p).active = false) :
    (s.setLock digest holder).Inv requests := by
  refine ⟨h.entries, fun p hp => ?_, h.staged, h.replacing, h.looking, h.reading⟩
  have hne : requests.digest p ≠ digest := fun heq => by
    have hidle := hnone p heq
    rw [show (s.publish p).active = true from hp] at hidle
    cases hidle
  exact (Function.update_of_ne hne ..).trans (h.locked p hp)

/-- A publication leaves, and its lock is free. -/
theorem Inv.leave (h : s.Inv requests) {p : P} (hp : (s.publish p).active = true) (phase : PublishPhase)
    (hphase : phase.active = false) (hstaged : phase.staged = none) :
    ((s.setLock (requests.digest p) none).setPublish p phase).Inv requests := by
  have hreplacing : phase.replacing = true → ∀ dir, s.entry (requests.digest p) = some dir → dir.Deficient :=
    fun hr => by rw [PublishPhase.active_of_replacing hr] at hphase; cases hphase
  have hmoved := h.advance hp phase (.inr hstaged) hreplacing
  refine hmoved.setLock (requests.digest p) none fun q hq => ?_
  by_cases hqp : q = p
  · subst hqp
    exact (congrArg PublishPhase.active (Function.update_self ..)).trans hphase
  · rw [show (s.setPublish p phase).publish q = s.publish q from Function.update_of_ne hqp ..]
    cases hactive : (s.publish q).active with
    | false => rfl
    | true => exact absurd (h.active_unique hp hactive hq) hqp

/-! ## What deletions and renames keep -/

theorem Inv.unlink_deficient (h : s.Inv requests) {digest : D} {dir : EntryDir} (hdir : s.entry digest = some dir)
    (hdeficient : dir.Deficient) (file : EntryFile) :
    (s.setEntry digest (some (dir.unlink file))).Inv requests := by
  refine h.setEntry digest ?_ ?_ ?_ ?_
  · rintro _ ⟨⟩
    exact .inr (hdeficient.unlink file)
  · rintro p _ _ _ ⟨⟩
    exact hdeficient.unlink file
  · rintro l rfl hl _ ⟨⟩
    have hmodel := (h.looking l hl dir hdir).resolve_left (not_whole_of_deficient hdeficient)
    exact .inr (EntryDir.unlink_eq_none hmodel file)
  · rintro l rfl hl
    obtain ⟨dir', hdir', hwhole⟩ := h.reading l hl
    rw [hdir, Option.some_inj] at hdir'
    exact absurd (hdir' ▸ hwhole) (not_whole_of_deficient hdeficient)

theorem Inv.rmdir (h : s.Inv requests) {digest : D} (hempty : (s.entry digest).any (·.isEmpty) = true) :
    (s.setEntry digest none).Inv requests := by
  refine h.setEntry digest nofun (fun _ _ _ => nofun) (fun _ _ _ => nofun) ?_
  rintro l rfl hl
  obtain ⟨dir, hdir, hwhole⟩ := h.reading l hl
  rw [hdir] at hempty
  exact absurd hwhole (not_whole_of_deficient (.of_isEmpty hempty))

/-- A finished staging directory becomes the entry. -/
theorem Inv.rename (h : s.Inv requests) {p : P} {dir : EntryDir} (hphase : s.publish p = .moving dir) :
    ((s.setEntry (requests.digest p) (some dir)).setPublish p .cleaning).Inv requests := by
  have hactive : (s.publish p).active = true := by rw [hphase]; rfl
  have hdir : dir = (requests.publication p).dir := h.staged p dir [] (by rw [hphase]; rfl)
  have hwhole : requests.Whole (requests.digest p) dir := ⟨p, rfl, hdir⟩
  have hmoved := h.advance hactive .cleaning (.inr rfl) nofun
  refine hmoved.setEntry (requests.digest p) ?_ ?_ ?_ ?_
  · rintro _ ⟨⟩
    exact .inl hwhole
  · intro q hq hreplacing
    have hcleaning : (s.setPublish p .cleaning).publish p = .cleaning := Function.update_self ..
    have hqp := hmoved.active_unique (by rw [hcleaning]; rfl) (PublishPhase.active_of_replacing hreplacing) hq
    rw [hqp, hcleaning] at hreplacing
    cases hreplacing
  · rintro l _ _ _ ⟨⟩
    exact .inl hwhole
  · exact fun l _ _ => ⟨dir, rfl, hwhole⟩

/-! ## What one step keeps -/

/-- A removal deletes a file while no lookup of its digest is between its tests, and the files no test
asks for once the entry is deficient. -/
def Guarded (requests : CacheRequests D P L) (s : CacheState D P L R) : CacheAction D P L R → Prop
  | .removeUnlink r file => ∀ digest ∈ s.remove r, ∀ dir ∈ s.entry digest,
    (∀ l, requests.lookedUp l = digest → s.lookup l ≠ .checking .model ∧ s.lookup l ≠ .checking .decode) ∧
      (file = .decode ∨ file = .key → dir.Deficient)
  | _ => True

instance {n : Nat} (requests : CacheRequests D P (Fin n)) (s : CacheState D P (Fin n) R)
    (a : CacheAction D P (Fin n) R) : Decidable (s.Guarded requests a) := by
  cases a <;> unfold Guarded <;> infer_instance

theorem missing_manifest {dir : EntryDir} (h : entryIfComplete (some dir) .manifest = .missing) :
    dir .manifest = none := by
  simp only [entryIfComplete, Option.bind_some] at h
  split at h
  · cases h
  · next hnone => exact Option.not_isSome_iff_eq_none.mp hnone

theorem missing_model {dir : EntryDir} (h : entryIfComplete (some dir) .model = .missing) : dir .model = none := by
  simp only [entryIfComplete, Option.bind_some] at h
  split at h
  · cases h
  · next hnone => exact Option.not_isSome_iff_eq_none.mp hnone

/-- A completeness test that accepts has asked for everything up to the decode module. -/
theorem complete_decode {dir : Option EntryDir} {phase : CheckPhase} {hasDecode : Bool}
    (h : entryIfComplete dir phase = .complete hasDecode) :
    phase = .decode ∧ hasDecode = (dir.bind (· .decode)).isSome := by
  cases phase with
  | manifest | model => simp only [entryIfComplete] at h; split at h <;> cases h
  | decode => cases h; exact ⟨rfl, rfl⟩

theorem Inv.publishStep (h : s.Inv requests) {p : P} {t : CacheState D P L R}
    (hstep : s.publishStep requests p = some t) : t.Inv requests := by
  unfold CacheState.publishStep at hstep
  simp only at hstep
  cases hphase : s.publish p with
  | idle =>
    simp only [hphase] at hstep
    split at hstep <;> cases hstep
    next hfree =>
      rw [Option.isNone_iff_eq_none] at hfree
      have hnone : ∀ q, requests.digest q = requests.digest p → (s.publish q).active = false := fun q hq => by
        cases hactive : (s.publish q).active with
        | false => rfl
        | true =>
          have hlock := h.locked q hactive
          rw [hq, hfree] at hlock
          cases hlock
      refine (h.setLock _ (some p) hnone).setPublish p (fun _ => ?_) nofun nofun
      exact Function.update_self ..
  | checking phase =>
    have hactive : (s.publish p).active = true := by rw [hphase]; rfl
    simp only [hphase] at hstep
    split at hstep <;> cases hstep
    · exact h.advance hactive _ (.inr rfl) nofun
    · refine h.setPublish p (fun _ => h.locked p hactive) ?_ nofun
      rintro _ _ ⟨⟩
      rfl
    · exact h.advance hactive _ (.inr rfl) nofun
  | staging dir todo =>
    have hactive : (s.publish p).active = true := by rw [hphase]; rfl
    have hstaged := h.staged p dir todo (by rw [hphase]; rfl)
    cases todo with
    | nil =>
      simp only [hphase] at hstep
      cases hstep
      exact h.advance hactive _ (.inl (by rw [hphase]; rfl)) nofun
    | cons file todo =>
      simp only [hphase] at hstep
      cases hstep
      refine h.setPublish p (fun _ => h.locked p hactive) ?_ nofun
      rintro _ _ ⟨⟩
      exact hstaged
  | rechecking phase dir =>
    have hactive : (s.publish p).active = true := by rw [hphase]; rfl
    simp only [hphase] at hstep
    cases hcheck : entryIfComplete (s.entry (requests.digest p)) phase with
    | next phase' =>
      simp only [hcheck] at hstep
      cases hstep
      exact h.advance hactive _ (.inl (by rw [hphase]; rfl)) nofun
    | complete hasDecode =>
      simp only [hcheck] at hstep
      cases hstep
      exact h.advance hactive _ (.inr rfl) nofun
    | missing =>
      simp only [hcheck] at hstep
      cases hstep
      refine h.advance hactive _ (.inl (by rw [hphase]; rfl)) fun _ e he => ?_
      rw [he] at hcheck
      cases phase with
      | manifest => exact .inl (missing_manifest hcheck)
      | model => exact .inr (missing_model hcheck)
      | decode => cases hcheck
  | clearing dir =>
    have hactive : (s.publish p).active = true := by rw [hphase]; rfl
    have hreplacing := h.replacing p (by rw [hphase]; rfl)
    simp only [hphase] at hstep
    cases hstep
    split <;> exact h.advance hactive _ (.inl (by rw [hphase]; rfl)) fun _ => hreplacing
  | removing dir =>
    have hactive : (s.publish p).active = true := by rw [hphase]; rfl
    simp only [hphase] at hstep
    split at hstep <;> cases hstep
    next hempty =>
      refine (h.rmdir hempty).advance hactive _ (.inl (by rw [show (s.setEntry _ none).publish p = _ from hphase]; rfl)) ?_
      intro _ e he
      rw [show (s.setEntry (requests.digest p) none).entry (requests.digest p) = none from Function.update_self ..] at he
      cases he
  | moving dir =>
    have hactive : (s.publish p).active = true := by rw [hphase]; rfl
    simp only [hphase] at hstep
    split at hstep <;> cases hstep
    · exact h.rename hphase
    · exact h.advance hactive _ (.inr rfl) nofun
  | cleaning =>
    have hactive : (s.publish p).active = true := by rw [hphase]; rfl
    simp only [hphase] at hstep
    cases hstep
    exact h.advance hactive _ (.inr rfl) nofun
  | releasing =>
    have hactive : (s.publish p).active = true := by rw [hphase]; rfl
    simp only [hphase] at hstep
    cases hstep
    exact h.leave hactive .done rfl rfl
  | done => simp only [hphase] at hstep; cases hstep
  | crashed => simp only [hphase] at hstep; cases hstep

theorem Inv.lookupStep (h : s.Inv requests) {l : L} {t : CacheState D P L R}
    (hstep : s.lookupStep requests l = some t) : t.Inv requests := by
  unfold CacheState.lookupStep at hstep
  cases hphase : s.lookup l with
  | idle =>
    simp only [hphase] at hstep
    cases hstep
    exact h.setLookup l nofun nofun
  | missed => simp only [hphase] at hstep; cases hstep
  | found hasDecode => simp only [hphase] at hstep; cases hstep
  | checking phase =>
    simp only [hphase] at hstep
    cases hentry : s.entry (requests.lookedUp l) with
    | none =>
      cases phase <;> (rw [hentry] at hstep; cases hstep; exact h.setLookup l nofun nofun)
    | some dir =>
      rw [hentry] at hstep
      cases phase with
      | manifest =>
        cases hmanifest : dir .manifest with
        | none =>
          simp only [entryIfComplete, Option.bind_some, hmanifest] at hstep
          cases hstep
          exact h.setLookup l nofun nofun
        | some bytes =>
          simp only [entryIfComplete, Option.bind_some, hmanifest] at hstep
          cases hstep
          refine h.setLookup l (fun _ e he => ?_) nofun
          obtain rfl : dir = e := Option.some_inj.mp (hentry.symm.trans he)
          refine (h.entries _ dir hentry).imp id fun hdeficient => hdeficient.resolve_left ?_
          rw [hmanifest]
          exact nofun
      | model =>
        cases hmodel : dir .model with
        | none =>
          simp only [entryIfComplete, Option.bind_some, hmodel] at hstep
          cases hstep
          exact h.setLookup l nofun nofun
        | some bytes =>
          simp only [entryIfComplete, Option.bind_some, hmodel] at hstep
          cases hstep
          refine h.setLookup l nofun fun _ => ⟨dir, hentry, ?_⟩
          refine (h.looking l hphase dir hentry).resolve_right ?_
          rw [hmodel]
          exact nofun
      | decode =>
        simp only [entryIfComplete] at hstep
        cases hstep
        exact h.setLookup l nofun nofun

theorem Inv.removeUnlink (h : s.Inv requests) {r : R} {digest : D} {dir : EntryDir} {file : EntryFile}
    (hremove : s.remove r = some digest) (hdir : s.entry digest = some dir)
    (hguard : s.Guarded requests (.removeUnlink r file)) :
    (s.setEntry digest (some (dir.unlink file))).Inv requests := by
  obtain ⟨hlookups, hlast⟩ := hguard digest hremove dir hdir
  have hdeficient : (dir.unlink file).Deficient := by
    cases file with
    | manifest => exact .inl (EntryDir.unlink_self dir .manifest)
    | model => exact .inr (EntryDir.unlink_self dir .model)
    | decode => exact (hlast (.inl rfl)).unlink _
    | key => exact (hlast (.inr rfl)).unlink _
  refine h.setEntry digest ?_ ?_ (fun l hl hmodel => absurd hmodel (hlookups l hl).1)
    (fun l hl hdecode => absurd hdecode (hlookups l hl).2)
  · rintro _ ⟨⟩
    exact .inr hdeficient
  · rintro p _ _ _ ⟨⟩
    exact hdeficient

theorem Inv.step (h : s.Inv requests) {a : CacheAction D P L R} (hguard : s.Guarded requests a)
    {t : CacheState D P L R} (hstep : s.step requests a = some t) : t.Inv requests := by
  cases a with
  | publish p => exact h.publishStep hstep
  | publishError p =>
    simp only [CacheState.step] at hstep
    split at hstep <;> cases hstep
    all_goals
      next hphase => exact h.advance (by rw [hphase]; rfl) _ (.inr rfl) nofun
  | publishUnlink p file =>
    simp only [CacheState.step] at hstep
    split at hstep
    next hphase =>
      obtain ⟨dir, hdir, rfl⟩ := Option.map_eq_some_iff.mp hstep
      exact h.unlink_deficient hdir (h.replacing p (by rw [hphase]; rfl) dir hdir) file
    next => cases hstep
  | publishCrash p =>
    simp only [CacheState.step] at hstep
    cases hactive : (s.publish p).active with
    | false => cases hphase : s.publish p <;> simp only [hphase] at hstep hactive <;> cases hstep <;> cases hactive
    | true =>
      have hleave := h.leave hactive .crashed rfl rfl
      split at hstep <;> cases hstep
      exact hleave
  | lookup l => exact h.lookupStep hstep
  | removeBegin r digest =>
    simp only [CacheState.step] at hstep
    split at hstep
    next =>
      split at hstep <;> cases hstep
      exact h.setRemove r _
    next => cases hstep
  | removeUnlink r file =>
    simp only [CacheState.step] at hstep
    obtain ⟨digest, hremove, hstep⟩ := Option.bind_eq_some_iff.mp hstep
    obtain ⟨dir, hdir, rfl⟩ := Option.map_eq_some_iff.mp hstep
    exact h.removeUnlink hremove hdir hguard
  | removeEnd r =>
    simp only [CacheState.step] at hstep
    obtain ⟨digest, hremove, hstep⟩ := Option.bind_eq_some_iff.mp hstep
    split at hstep <;> cases hstep
    next hempty => exact (h.rmdir hempty).setRemove r none
  | removeStop r =>
    simp only [CacheState.step] at hstep
    obtain ⟨digest, hremove, rfl⟩ := Option.map_eq_some_iff.mp hstep
    exact h.setRemove r none

/-! ## All or nothing -/

/-- A lookup's last test returns an entry from a directory that is some publication's, with its decode
module; no publication or lookup touches such a directory. -/
structure AllOrNothing (requests : CacheRequests D P L) (s : CacheState D P L R) : Prop where
  whole : ∀ l t hasDecode, s.step requests (.lookup l) = some t → t.lookup l = .found hasDecode →
    ∃ p, requests.digest p = requests.lookedUp l ∧
      s.entry (requests.lookedUp l) = some (requests.publication p).dir ∧
      hasDecode = (requests.publication p).decodeVmfb.isSome
  kept : ∀ a t, a.isRemoval = false → s.step requests a = some t → ∀ digest dir,
    requests.Whole digest dir → s.entry digest = some dir → t.entry digest = some dir

theorem Inv.whole (h : s.Inv requests) {l : L} {t : CacheState D P L R} {hasDecode : Bool}
    (hstep : s.lookupStep requests l = some t) (hfound : t.lookup l = .found hasDecode) :
    ∃ p, requests.digest p = requests.lookedUp l ∧
      s.entry (requests.lookedUp l) = some (requests.publication p).dir ∧
      hasDecode = (requests.publication p).decodeVmfb.isSome := by
  have hself : ∀ phase, (s.setLookup l phase).lookup l = phase := fun _ => Function.update_self ..
  unfold CacheState.lookupStep at hstep
  cases hphase : s.lookup l with
  | idle => simp only [hphase] at hstep; cases hstep; rw [hself] at hfound; cases hfound
  | missed => simp only [hphase] at hstep; cases hstep
  | found _ => simp only [hphase] at hstep; cases hstep
  | checking phase =>
    simp only [hphase] at hstep
    cases hcheck : entryIfComplete (s.entry (requests.lookedUp l)) phase with
    | next _ => simp only [hcheck] at hstep; cases hstep; rw [hself] at hfound; cases hfound
    | missing => simp only [hcheck] at hstep; cases hstep; rw [hself] at hfound; cases hfound
    | complete decoded =>
      simp only [hcheck] at hstep
      cases hstep
      rw [hself] at hfound
      cases hfound
      obtain ⟨rfl, hdecoded⟩ := complete_decode hcheck
      obtain ⟨dir, hdir, p, hdigest, rfl⟩ := h.reading l hphase
      refine ⟨p, hdigest, hdir, ?_⟩
      rw [hdecoded, hdir, Option.bind_some, Publication.dir_decode]

theorem setEntry_entry_of_ne (s : CacheState D P L R) {digest d : D} (dir : Option EntryDir) (h : d ≠ digest) :
    (s.setEntry digest dir).entry d = s.entry d := Function.update_of_ne h ..

/-- A publication that is replacing an entry, or deletes an empty one, has no whole one before it. -/
theorem ne_of_deficient {digest d : D} {dir : EntryDir} (hwhole : requests.Whole d dir) (hdir : s.entry d = some dir)
    (hdeficient : ∀ e, s.entry digest = some e → e.Deficient) : d ≠ digest := by
  rintro rfl
  exact not_whole_of_deficient (hdeficient dir hdir) hwhole

theorem Inv.kept (h : s.Inv requests) {a : CacheAction D P L R} (hremoval : a.isRemoval = false)
    {t : CacheState D P L R} (hstep : s.step requests a = some t) {digest : D} {dir : EntryDir}
    (hwhole : requests.Whole digest dir) (hdir : s.entry digest = some dir) : t.entry digest = some dir := by
  cases a with
  | removeBegin | removeUnlink | removeEnd | removeStop => cases hremoval
  | publishError p =>
    simp only [CacheState.step] at hstep
    split at hstep <;> cases hstep <;> exact hdir
  | publishCrash p =>
    simp only [CacheState.step] at hstep
    split at hstep <;> cases hstep
    exact hdir
  | publishUnlink p file =>
    simp only [CacheState.step] at hstep
    split at hstep
    next hphase =>
      obtain ⟨e, he, rfl⟩ := Option.map_eq_some_iff.mp hstep
      have hne := ne_of_deficient hwhole hdir (h.replacing p (by rw [hphase]; rfl))
      rw [setEntry_entry_of_ne s _ hne, hdir]
    next => cases hstep
  | lookup l =>
    simp only [CacheState.step, CacheState.lookupStep] at hstep
    split at hstep
    case h_1 => cases hstep; exact hdir
    case h_2 => split at hstep <;> cases hstep <;> exact hdir
    all_goals cases hstep
  | publish p =>
    simp only [CacheState.step, CacheState.publishStep] at hstep
    split at hstep
    case h_7 =>
      next hphase =>
        split at hstep <;> cases hstep
        have hne := ne_of_deficient hwhole hdir (h.replacing p (by rw [hphase]; rfl))
        exact (setEntry_entry_of_ne s _ hne).trans hdir
    case h_8 =>
      next hphase =>
        split at hstep <;> cases hstep
        · have hne := ne_of_deficient hwhole hdir (h.replacing p (by rw [hphase]; rfl))
          exact (setEntry_entry_of_ne s _ hne).trans hdir
        · exact hdir
    all_goals
      first
      | (split at hstep <;> cases hstep <;> exact hdir)
      | (cases hstep; done)
      | (cases hstep; exact hdir)

/-- **Cache entries are all or nothing.** In every run in which removals delete no file under a lookup's
eyes, nor a file no test asks for from a whole entry, every state is all or nothing. -/
theorem entries_all_or_nothing {t : CacheState D P L R} (hstart : s.Start)
    (hrun : Runs.Reaches (step requests) (Guarded requests) s t) : t.AllOrNothing requests := by
  have h := hrun.invariant (fun _ _ _ h hguard hstep => h.step hguard hstep) (hstart.inv)
  exact ⟨fun l u hasDecode hstep hfound => h.whole hstep hfound,
    fun a u hremoval hstep digest dir hwhole hdir => h.kept hremoval hstep hwhole hdir⟩

end CacheState

/-- A publication with a decode module, a lookup of it and a removal. -/
def oneEntry : CacheRequests Unit (Fin 1) (Fin 1) where
  digest _ := ()
  publication _ := ⟨[1], some [2], [3], [4]⟩
  lookedUp _ := ()

/-- An empty cache. -/
def CacheState.fresh : CacheState Unit (Fin 1) (Fin 1) (Fin 1) where
  entry _ := none
  lock _ := none
  publish _ := .idle
  lookup _ := .idle
  remove _ := none

theorem CacheState.start_fresh : CacheState.fresh.Start := ⟨fun _ => rfl, fun _ => rfl, fun _ => rfl⟩

/-- The steps of a publication that finds no entry. -/
def publishFresh : List (CacheAction Unit (Fin 1) (Fin 1) (Fin 1)) :=
  List.replicate 12 (.publish 0)

theorem entries_all_or_nothing_removed :
    ∃ t, Runs.Reaches (CacheState.step oneEntry) (CacheState.Guarded oneEntry) CacheState.fresh t ∧
      t.lookup 0 = .found true ∧ t.entry () = none ∧ t.AllOrNothing oneEntry := by
  obtain ⟨t, hrun, hend⟩ := Runs.exists_reaches (CacheState.step oneEntry) (CacheState.Guarded oneEntry)
    (publishFresh ++ List.replicate 4 (.lookup 0) ++
      [.removeBegin 0 (), .removeUnlink 0 .manifest, .removeUnlink 0 .decode, .removeUnlink 0 .key,
        .removeUnlink 0 .model, .removeEnd 0])
    CacheState.fresh (fun t => t.lookup 0 == .found true && (t.entry ()).isNone) (by decide)
  rw [Bool.and_eq_true] at hend
  exact ⟨t, hrun, eq_of_beq hend.1, Option.isNone_iff_eq_none.mp hend.2,
    CacheState.entries_all_or_nothing CacheState.start_fresh hrun⟩

/-- A removal stops after it has deleted `decode.vmfb`, and a lookup returns what is left. -/
theorem partial_removal_found :
    ¬ ∀ (requests : CacheRequests Unit (Fin 1) (Fin 1)) (s t : CacheState Unit (Fin 1) (Fin 1) (Fin 1)), s.Start →
      Runs.Reaches (CacheState.step requests) (fun _ _ => True) s t → t.AllOrNothing requests := by
  intro hall
  obtain ⟨t, hrun, hend⟩ := Runs.exists_reaches (CacheState.step oneEntry) (fun _ _ => True)
    (publishFresh ++ [.removeBegin 0 (), .removeUnlink 0 .decode, .removeStop 0] ++ List.replicate 3 (.lookup 0))
    CacheState.fresh
    (fun t => (t.step oneEntry (.lookup 0)).any fun u => u.lookup 0 == .found false) (by decide)
  obtain ⟨u, hstep, hfound⟩ := (Option.any_eq_true _ _).mp hend
  obtain ⟨p, -, -, hdecode⟩ := (hall oneEntry _ t CacheState.start_fresh hrun).whole 0 u false hstep (eq_of_beq hfound)
  cases hdecode

end Dyninfer
