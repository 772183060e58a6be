/-
The work of the GGUF reader. A reader that counts its calls of `read_value`,
and notes the bytes each successful one took, runs like the reader itself. A
value takes at least one byte, so the calls that succeeded are paid for by
their own bytes, and the one that fails by what was read before it: an array
pays with its element type and its count, a pair with its key. Neither a
declared length nor nesting makes the reader loop without reading.
-/
import Dyninfer.Checkpoint.GgufFacts
import Mathlib.Data.Int.Order.Basic

namespace Dyninfer.Gguf

open Bytes Effect

/-! ## Counting the calls -/

/-- The cursor, how often `read_value` was called, and from where to where the calls that succeeded read. -/
structure Work where
  pos : Nat
  calls : Nat
  spans : List (Nat × Nat)

def Work.start : Work := ⟨0, 0, []⟩

abbrev CountM := EStateM DynInferError Work

/-- A reading that calls no `read_value` of its own. -/
def uncounted {α : Type} (x : CursorM α) : CountM α := onPart Work.pos (fun pos w => { w with pos }) x

/-- A call of `read_value`. -/
def counted {α : Type} (x : CountM α) : CountM α := do
  let before ← get
  set { before with calls := before.calls + 1 }
  let a ← x
  modify fun after => { after with spans := (before.pos, after.pos) :: after.spans }
  return a

section count

variable (source : RandomAccessSource) (limits : InspectionLimits)

/-- `read_value`; an array calls it for each element. -/
def countedValue : Nat → Nat → CountM Json
  | 0, valueType => uncounted (readValue source limits 0 valueType)
  | depth + 1, 9 => counted do
    let elemType ← uncounted (readU32 source)
    let count ← uncounted (readU64 source)
    uncounted (require (count ≤ limits.maxMetadataEntries)
      (invalidCheckpoint s!"GGUF array length {count} exceeds limit"))
    let arr ← times (countedValue depth elemType) count
    return .array arr
  | depth + 1, valueType => counted (uncounted (readValue source limits (depth + 1) valueType))

def countedPair : CountM (String × Json) := do
  let key ← uncounted (readString source limits)
  uncounted (lift (limits.validateKey key))
  let valueType ← uncounted (readU32 source)
  let value ← countedValue source limits (source.len + 1) valueType
  return (key, value)

def countedHeader : CountM Header := do
  let found ← uncounted (readExact source 4)
  uncounted (require (found == magic) (invalidCheckpoint "not a GGUF file"))
  let version ← uncounted (readU32 source)
  uncounted (require (2 ≤ version ∧ version ≤ 3)
    (invalidCheckpoint s!"unsupported GGUF version {version}" none (some "supported: 2, 3")))
  let tensorCount ← uncounted (readU64 source)
  let kvCount ← uncounted (readU64 source)
  uncounted (require (tensorCount ≤ limits.maxTensorCount ∧ kvCount ≤ limits.maxMetadataEntries)
    (invalidCheckpoint s!"GGUF counts exceed limits: tensors={tensorCount} kv={kvCount}"))
  let pairs ← times (countedPair source limits) kvCount
  let metadata := AssocMap.insertAll [] Prod.fst Prod.snd pairs
  let dirs ← times (uncounted (readTensorDir source limits)) tensorCount
  return { version, metadata, dirs }

end count

/-! ## Counting changes nothing -/

/-- The outcome of a counting reader, without what it counted. -/
def uncount {α : Type} : EStateM.Result DynInferError Work α → EStateM.Result DynInferError Nat α
  | .ok a w => .ok a w.pos
  | .error e w => .error e w.pos

/-- A counting reader runs like a reader. -/
structure Counts {α : Type} (x : CountM α) (y : CursorM α) : Prop where
  run : ∀ w, uncount (x.run w) = y.run w.pos

section counts

variable {source : RandomAccessSource} {limits : InspectionLimits} {α β : Type} {x : CountM α} {y : CursorM α}
  {f : α → CountM β} {g : α → CursorM β}

theorem Counts.pure (a : α) : Counts (Pure.pure a) (Pure.pure a) := ⟨fun _ => rfl⟩

theorem Counts.bind (hx : Counts x y) (hf : ∀ a, Counts (f a) (g a)) : Counts (x >>= f) (y >>= g) := by
  refine ⟨fun w => ?_⟩
  rw [EStateM.run_bind, EStateM.run_bind, ← hx.run w]
  cases x.run w with
  | ok a w' => exact (hf a).run w'
  | error e w' => rfl

theorem Counts.last {h : α → β} (hx : Counts x y) :
    Counts (x >>= fun a => Pure.pure (h a)) (y >>= fun a => Pure.pure (h a)) :=
  hx.bind fun _ => .pure _

theorem counts_uncounted (y : CursorM α) : Counts (uncounted y) y := by
  refine ⟨fun w => ?_⟩
  rw [uncounted, run_onPart]
  cases y.run w.pos <;> rfl

theorem counts_counted (hx : Counts x y) : Counts (counted x) y := by
  refine ⟨fun w => ?_⟩
  rw [← hx.run { w with calls := w.calls + 1 }]
  simp only [counted, EStateM.run_bind, EStateM.run_get, EStateM.run_set, EStateM.run_modify]
  cases x.run { w with calls := w.calls + 1 } <;> rfl

theorem counts_times (hx : Counts x y) (n : Nat) : Counts (times x n) (readTimes y n) := by
  induction n with
  | zero => exact .pure []
  | succ n ih => exact hx.bind fun _ => ih.last

theorem countedValue_array (depth : Nat) : countedValue source limits (depth + 1) 9 = counted (do
    let elemType ← uncounted (readU32 source)
    let count ← uncounted (readU64 source)
    uncounted (require (count ≤ limits.maxMetadataEntries)
      (invalidCheckpoint s!"GGUF array length {count} exceeds limit"))
    let arr ← times (countedValue source limits depth elemType) count
    return .array arr) := rfl

theorem countedValue_other (depth : Nat) {valueType : Nat} (h : valueType ≠ 9) :
    countedValue source limits (depth + 1) valueType =
      counted (uncounted (readValue source limits (depth + 1) valueType)) := by
  rw [countedValue]
  exact h

theorem counts_countedValue (depth valueType : Nat) :
    Counts (countedValue source limits depth valueType) (readValue source limits depth valueType) := by
  induction depth generalizing valueType with
  | zero => exact counts_uncounted _
  | succ depth ih =>
    by_cases harray : valueType = 9
    · subst harray
      rw [countedValue_array]
      refine counts_counted ?_
      refine (counts_uncounted _).bind fun elemType => (counts_uncounted _).bind fun count => ?_
      exact (counts_uncounted _).bind fun _ => (counts_times (ih elemType) count).last
    · rw [countedValue_other depth harray]
      exact counts_counted (counts_uncounted _)

theorem counts_countedPair : Counts (countedPair source limits) (readPair source limits) :=
  (counts_uncounted _).bind fun _ => (counts_uncounted _).bind fun _ => (counts_uncounted _).bind fun _ =>
    (counts_countedValue _ _).last

/-- The counting reader is the reader. -/
theorem counts_countedHeader : Counts (countedHeader source limits) (readHeader source limits) := by
  refine (counts_uncounted _).bind fun found => (counts_uncounted _).bind fun _ => ?_
  refine (counts_uncounted _).bind fun version => (counts_uncounted _).bind fun _ => ?_
  refine (counts_uncounted _).bind fun tensorCount => (counts_uncounted _).bind fun kvCount => ?_
  refine (counts_uncounted _).bind fun _ => (counts_times counts_countedPair _).bind fun pairs => ?_
  exact (counts_times (counts_uncounted _) _).last

end counts

/-! ## What the calls cost -/

/-- The cursor has come from `start` and is inside the source, the calls are paid for by the bytes read up to a
debt, and every call that succeeded took bytes. -/
structure Work.Within (source : RandomAccessSource) (start : Nat) (debt : Int) (w : Work) : Prop where
  start : start ≤ w.pos
  inside : w.pos ≤ source.len
  calls : (w.calls : Int) ≤ w.pos + debt
  spans : ∀ span ∈ w.spans, span.1 < span.2 ∧ span.2 ≤ w.pos

theorem Work.Within.mono {source : RandomAccessSource} {start start' : Nat} {debt debt' : Int} {w : Work}
    (h : w.Within source start debt) (hstart : start' ≤ start) (hdebt : debt ≤ debt') : w.Within source start' debt' :=
  ⟨hstart.trans h.start, h.inside, by have := h.calls; omega, h.spans⟩

/-- The cursor moves on by at least `k` bytes. -/
theorem Work.Within.advance {source : RandomAccessSource} {start k p : Nat} {debt : Int} {w : Work}
    (h : w.Within source start debt) (hk : w.pos + k ≤ p) (hp : p ≤ source.len) :
    Work.Within source (start + k) (debt - k) { w with pos := p } := by
  refine ⟨?_, hp, ?_, fun span hspan => ?_⟩
  · have := h.start
    show start + k ≤ p
    omega
  · have := h.calls
    show (w.calls : Int) ≤ p + (debt - k)
    omega
  · have := h.spans span hspan
    show span.1 < span.2 ∧ span.2 ≤ p
    omega

/-- A counting reader that pays `paid` bytes where it succeeds, and is left with a debt of at most `owed` more
where it fails. -/
structure Pays (source : RandomAccessSource) (paid owed : Nat) {α : Type} (x : CountM α) : Prop where
  run : ∀ start debt, Triple (Work.Within source start debt) x
    (fun _ w => w.Within source (start + paid) (debt - paid)) (fun w => w.Within source start (debt + owed))

section pays

variable {source : RandomAccessSource} {limits : InspectionLimits} {α β : Type} {x : CountM α} {f : α → CountM β}
  {paid paid' owed owed' : Nat}

theorem Pays.pure (a : α) : Pays source 0 owed (Pure.pure a) :=
  ⟨fun _ _ => Triple.pure fun _ hw => hw.mono le_rfl (by omega)⟩

theorem Pays.imp (hx : Pays source paid owed x) (hpaid : paid' ≤ paid) (howed : owed ≤ owed') :
    Pays source paid' owed' x :=
  ⟨fun start debt => (hx.run start debt).conseq (fun _ hw => hw) (fun _ w hw => hw.mono (by omega) (by omega))
    fun w hw => hw.mono le_rfl (by omega)⟩

/-- What the first part pays may be owed by the second. -/
theorem Pays.step (hx : Pays source paid owed x) (hf : ∀ a, Pays source 0 (owed + paid) (f a)) :
    Pays source paid owed (x >>= f) := by
  refine ⟨fun start debt => (hx.run start debt).bind fun a => ?_⟩
  refine ((hf a).run _ _).conseq (fun _ hw => hw) (fun _ w hw => hw.mono (by omega) (by omega)) fun w hw => ?_
  exact hw.mono (by omega) (by push_cast; omega)

theorem Pays.any (hx : Pays source paid owed x) (hf : ∀ a, Pays source 0 (owed + paid) (f a)) :
    Pays source 0 owed (x >>= f) := (hx.step hf).imp (Nat.zero_le paid) le_rfl

/-- The last step of a reader. -/
theorem Pays.last {g : α → β} (hx : Pays source paid owed x) : Pays source paid owed (x >>= fun a => Pure.pure (g a)) :=
  hx.step fun a => .pure (g a)

theorem pays_uncounted {y : CursorM α} (hy : Forward source paid y) : Pays source paid owed (uncounted y) := by
  refine ⟨fun start debt w hw => ?_⟩
  have hrun := hy.run w.pos w.pos ⟨rfl, hw.inside⟩
  rw [uncounted, run_onPart]
  revert hrun
  cases y.run w.pos with
  | ok a p => exact fun hp => hw.advance hp.1 hp.2
  | error e p => exact fun hp => (hw.advance (k := 0) hp.1 hp.2).mono (by omega) (by omega)

/-- A call pays for itself with the first byte it takes; a call that fails is owed. -/
theorem pays_counted (hx : Pays source 1 0 x) : Pays source 0 1 (counted x) := by
  refine ⟨fun start debt w hw => ?_⟩
  have hbegin : Work.Within source w.pos (debt + 1) { w with calls := w.calls + 1 } :=
    ⟨le_rfl, hw.inside, by have := hw.calls; push_cast; omega, hw.spans⟩
  have hrun := hx.run w.pos (debt + 1) _ hbegin
  simp only [counted, EStateM.run_bind, EStateM.run_get, EStateM.run_set, EStateM.run_modify]
  revert hrun
  cases x.run { w with calls := w.calls + 1 } with
  | ok a w' =>
    intro hw'
    have hstart := hw'.start
    refine ⟨by have := hw.start; dsimp only; omega, hw'.inside, by have := hw'.calls; dsimp only; omega, ?_⟩
    exact List.forall_mem_cons.mpr ⟨⟨by dsimp only; omega, le_rfl⟩, hw'.spans⟩
  | error e w' => exact fun hw' => hw'.mono hw.start (by omega)

theorem pays_times (hx : Pays source 0 owed x) (n : Nat) : Pays source 0 owed (times x n) := by
  induction n with
  | zero => exact .pure []
  | succ n ih => exact hx.step fun _ => ih.step fun _ => .pure _

theorem pays_countedValue (depth valueType : Nat) : Pays source 0 1 (countedValue source limits depth valueType) := by
  induction depth generalizing valueType with
  | zero => exact (pays_uncounted (forward_readValue 0 valueType)).imp (Nat.zero_le 1) le_rfl
  | succ depth ih =>
    by_cases harray : valueType = 9
    · subst harray
      rw [countedValue_array]
      refine pays_counted ((?_ : Pays source 4 0 _).imp (by decide) le_rfl)
      -- what the array reads first pays for its own call and for the element that fails
      refine (pays_uncounted (forward_readUint 4)).step fun elemType => ?_
      refine (pays_uncounted (forward_readUint 8)).any fun count => ?_
      refine (pays_uncounted (forward_require _ _)).any fun _ => ?_
      exact (pays_times ((ih elemType).imp le_rfl (by decide)) count).last
    · rw [countedValue_other depth harray]
      exact pays_counted (pays_uncounted (forward_readValue _ _))

theorem pays_countedPair : Pays source 0 0 (countedPair source limits) := by
  refine (pays_uncounted forward_readString).any fun key => ?_
  refine (pays_uncounted (forward_lift _)).any fun _ => ?_
  refine (pays_uncounted (forward_readUint 4)).any fun valueType => ?_
  exact ((pays_countedValue _ _).imp le_rfl (by decide)).last

/-- The whole reader owes nothing. -/
theorem pays_countedHeader : Pays source 0 0 (countedHeader source limits) := by
  refine (pays_uncounted (forward_readExact 4)).any fun found => ?_
  refine (pays_uncounted (forward_require _ _)).any fun _ => ?_
  refine (pays_uncounted (forward_readUint 4)).any fun version => ?_
  refine (pays_uncounted (forward_require _ _)).any fun _ => ?_
  refine (pays_uncounted (forward_readUint 8)).any fun tensorCount => ?_
  refine (pays_uncounted (forward_readUint 8)).any fun kvCount => ?_
  refine (pays_uncounted (forward_require _ _)).any fun _ => ?_
  refine ((pays_times pays_countedPair kvCount).imp le_rfl (Nat.zero_le _)).any fun pairs => ?_
  exact (pays_times (pays_uncounted forward_readTensorDir) tensorCount).last

end pays

/-! ## The depth does not run out -/

/-- A reading from a position that does not fail for want of depth. -/
structure Shallow (pos : Nat) {α : Type} (x : CursorM α) : Prop where
  run : ∀ message p, x.run pos ≠ .error (.internal message) p

section shallow

variable {source : RandomAccessSource} {limits : InspectionLimits} {α β : Type} {x : CursorM α} {f : α → CursorM β}
  {pos : Nat}

theorem Shallow.pure (a : α) : Shallow pos (Pure.pure a) := ⟨nofun⟩

theorem Shallow.bind (hx : Shallow pos x) (hf : ∀ a p, x.run pos = .ok a p → Shallow p (f a)) :
    Shallow pos (x >>= f) := by
  refine ⟨fun message p h => ?_⟩
  rw [EStateM.run_bind] at h
  cases hrun : x.run pos with
  | ok a q =>
    rw [hrun] at h
    exact (hf a q hrun).run message p h
  | error e q =>
    rw [hrun] at h
    cases h
    exact hx.run message p hrun

theorem Shallow.last {g : α → β} (hx : Shallow pos x) : Shallow pos (x >>= fun a => Pure.pure (g a)) :=
  hx.bind fun _ _ _ => .pure _

theorem shallow_require (c : Bool) (message : String) : Shallow pos (require c (invalidCheckpoint message)) := by
  refine ⟨fun message p h => ?_⟩
  cases c <;> cases h

theorem shallow_readExact (len : Nat) : Shallow pos (readExact source len) := by
  refine ⟨fun message p h => ?_⟩
  rw [run_readExact] at h
  unfold RandomAccessSource.readRange RandomAccessSource.readPastEnd at h
  by_cases hover : pos + len ≥ 2 ^ 64
  · rw [if_pos hover] at h
    cases h
  · by_cases hend : pos + len > source.len
    · rw [if_neg hover, if_pos hend] at h
      cases hkind : source.kind <;> rw [hkind] at h <;> cases h
    · rw [if_neg hover, if_neg hend] at h
      cases h

theorem shallow_readUint (width : Nat) : Shallow pos (readUint source width) := (shallow_readExact width).last

theorem shallow_readString : Shallow pos (readString source limits) := by
  refine (shallow_readUint 8).bind fun len _ _ => (shallow_require _ _).bind fun _ _ _ => ?_
  refine (shallow_readExact len).bind fun bytes _ _ => ?_
  cases fromUtf8 bytes with
  | some s => exact .pure s
  | none => exact ⟨nofun⟩

theorem shallow_readTimes (hforward : Forward source 0 x) (hx : ∀ p, pos ≤ p → p ≤ source.len → Shallow p x)
    (hpos : pos ≤ source.len) (n : Nat) : Shallow pos (readTimes x n) := by
  induction n generalizing pos with
  | zero => exact .pure []
  | succ n ih =>
    refine (hx pos le_rfl hpos).bind fun a p hrun => ?_
    have hp := hforward.ok hpos hrun
    exact (ih (fun q hq => hx q (by omega)) hp.2).last

/-- A value that is given more depth than bytes are left does not run out of it. -/
theorem shallow_readValue (valueType : Nat) {depth : Nat} (hpos : pos ≤ source.len) (hdepth : source.len < pos + depth) :
    Shallow pos (readValue source limits depth valueType) := by
  induction depth generalizing valueType pos with
  | zero => omega
  | succ depth ih =>
    by_cases harray : valueType = 9
    · subst harray
      refine (shallow_readUint 4).bind fun elemType p helem => ?_
      have hp := (forward_readUint 4).ok hpos helem
      refine (shallow_readUint 8).bind fun count q hcount => ?_
      have hq := (forward_readUint 8).ok hp.2 hcount
      refine (shallow_require _ _).bind fun _ r hrequire => ?_
      obtain ⟨-, rfl⟩ := require_ok hrequire
      refine (shallow_readTimes ((forward_readValue depth elemType).imp (Nat.zero_le 1)) (fun r hr hr' => ?_) hq.2
        count).last
      exact ih elemType hr' (by omega)
    · unfold readValue
      split
      case h_11 => contradiction
      case h_10 => exact shallow_readString.last
      all_goals first
        | contradiction
        | exact (shallow_readUint _).last
        | exact (shallow_readUint _).last.last
        | exact ⟨nofun⟩

end shallow

/-! ## Bounded work -/

/-- What bounds the work of the reader over a source. -/
structure BoundedWork (source : RandomAccessSource) (limits : InspectionLimits) : Prop where
  /-- Every recursion into arrays ends before the depth it is given does. -/
  ends : ∀ valueType depth pos, pos ≤ source.len → source.len < pos + depth →
    Shallow pos (readValue source limits depth valueType)
  /-- What moves the cursor moves it forward, and never past the end. -/
  cursor : ∀ len, Forward source len (readExact source len)
  /-- A value takes at least one byte, and no reading of the reader goes back, whether or not it succeeds. -/
  value : ∀ depth valueType, Forward source 1 (readValue source limits depth valueType)
  string : Forward source 8 (readString source limits)
  pair : Forward source 0 (readPair source limits)
  tensorDir : Forward source 0 (readTensorDir source limits)
  header : Forward source 0 (readHeader source limits)
  /-- The counting reader is the reader; however it ends, it has made no more calls than it has read bytes, and
  each call that succeeded, elements of arrays included, took at least one of them. -/
  counts : Counts (countedHeader source limits) (readHeader source limits)
  calls : ∀ w, (∃ found, (countedHeader source limits).run .start = .ok found w) ∨
      (∃ e, (countedHeader source limits).run .start = .error e w) →
    w.calls ≤ w.pos ∧ w.pos ≤ source.len ∧ ∀ span ∈ w.spans, span.1 < span.2 ∧ span.2 ≤ w.pos

/-- **GGUF metadata is read with bounded work**, whatever the source holds. -/
theorem reading_bounded (source : RandomAccessSource) (limits : InspectionLimits) : BoundedWork source limits where
  ends valueType _ _ := shallow_readValue valueType
  cursor := forward_readExact
  value := forward_readValue
  string := forward_readString
  pair := forward_readPair
  tensorDir := forward_readTensorDir
  header := forward_readHeader
  counts := counts_countedHeader
  calls w hw := by
    have hstart : Work.start.Within source 0 0 := ⟨le_rfl, Nat.zero_le _, le_rfl, by simp [Work.start]⟩
    have hrun := (pays_countedHeader : Pays source 0 0 (countedHeader source limits)).run 0 0 Work.start hstart
    have hend : w.Within source 0 0 := by
      rcases hw with ⟨found, hok⟩ | ⟨e, herror⟩
      · rw [hok] at hrun
        exact hrun
      · rw [herror] at hrun
        exact hrun
    exact ⟨by have := hend.calls; omega, hend.inside, hend.spans⟩

end Dyninfer.Gguf
