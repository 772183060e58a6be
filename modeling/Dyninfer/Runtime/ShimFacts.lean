/-
What each call of the shim can do, said once: the outcomes of a call from a
state, with what holds in that state when it has each of them.
-/
import Dyninfer.Runtime.Shim

namespace Dyninfer.Shim

open Effect

variable {F Row ρ : Type}

/-- The state a call works on: the script without the fault it met. -/
def spent (d : Shim Row ρ) : Shim Row ρ := d.nextFault.2

theorem spent_eq (d : Shim Row ρ) : d.spent = { d with faults := d.faults.tail } := by
  rcases d with ⟨config, layerN, pageCount, allocatedBytes, planes, recurrent, faults⟩
  cases faults <;> rfl

@[simp] theorem spent_config (d : Shim Row ρ) : d.spent.config = d.config := by rw [spent_eq]
@[simp] theorem spent_layerN (d : Shim Row ρ) : d.spent.layerN = d.layerN := by rw [spent_eq]
@[simp] theorem spent_pageCount (d : Shim Row ρ) : d.spent.pageCount = d.pageCount := by rw [spent_eq]
@[simp] theorem spent_planes (d : Shim Row ρ) : d.spent.planes = d.planes := by rw [spent_eq]
@[simp] theorem spent_recurrent (d : Shim Row ρ) : d.spent.recurrent = d.recurrent := by rw [spent_eq]

/-- Whether the pool already is what `ensure` is asked for. -/
def Holds (pageCount : Nat) (d : Shim Row ρ) : Prop :=
  d.layerN = d.config.layerCount ∧ pageCount ≤ d.pageCount

theorem configurePagedKv_ok {config : KvPoolConfig} {d d' : Shim Row ρ}
    (h : (configurePagedKv config).run d = .ok () d') :
    config.valid = true ∧ d.layerN = 0 ∧ d' = { d.spent with config } := by
  unfold EStateM.run configurePagedKv at h
  rw [← spent_layerN d]
  revert h
  unfold spent
  rcases d.nextFault with ⟨fault, d₁⟩
  simp only
  cases config.valid with
  | false => cases fault <;> intro h <;> cases h
  | true =>
    by_cases hn : d₁.layerN = 0
    · cases fault with
      | none => intro h; simp only [hn] at h; cases h; exact ⟨rfl, hn, by simp [hn]⟩
      | early => intro h; cases h
      | late junk r => intro h; simp only [hn] at h; cases h
    · cases fault <;> intro h <;> simp [hn] at h

/-- `ensure` fails without effect, finds the pool there, gives the pool back on the way to failing,
or allocates it. -/
theorem ensureKvPages_cases (zeroRow : Row) (pageCount : Nat) (d : Shim Row ρ) :
    (∃ e, (ensureKvPages zeroRow pageCount).run d = .error e d.spent) ∨
    ((ensureKvPages zeroRow pageCount).run d = .ok () d.spent ∧ Holds pageCount d) ∨
    (∃ e, (ensureKvPages zeroRow pageCount).run d = .error e d.spent.release ∧ ¬ Holds pageCount d) ∨
    (∃ planeBytes, (ensureKvPages zeroRow pageCount).run d =
        .ok () (d.spent.release.allocate zeroRow pageCount planeBytes) ∧ ¬ Holds pageCount d) := by
  have hholds : Holds pageCount d ↔ Holds pageCount d.spent := by simp [Holds]
  rw [hholds]
  unfold EStateM.run ensureKvPages
  unfold spent
  rcases d.nextFault with ⟨fault, d₁⟩
  simp only [Holds]
  by_cases h0 : d₁.config.pageSize = 0
  · cases fault <;> simp [h0]
  by_cases h1 : pageCount = 0
  · cases fault <;> simp [h0, h1]
  by_cases h2 : d₁.layerN = d₁.config.layerCount ∧ pageCount ≤ d₁.pageCount
  · cases fault <;> simp [h0, h1, h2]
  cases d₁.release.config.planeBytes pageCount with
  | error message => cases fault <;> simp [h0, h1, h2]
  | ok planeBytes =>
    cases fault with
    | none => exact .inr (.inr (.inr ⟨planeBytes, by simp [h0, h1, h2], h2⟩))
    | early => simp
    | late junk r => simp [h0, h1, h2]

/-- `reset` fails without effect, finds no pool, gives it back when a plane cannot be cleared, or
clears the planes. -/
theorem resetPagedKv_cases (zeroRow : Row) (d : Shim Row ρ) :
    (∃ e, (resetPagedKv zeroRow).run d = .error e d.spent) ∨
    ((resetPagedKv zeroRow).run d = .ok () { d.spent with pageCount := 0, allocatedBytes := 0 } ∧
      d.layerN = 0) ∨
    (∃ e junk recurrent, (resetPagedKv zeroRow).run d = .error e d.spent.release ∧
      d.nextFault.1 = .late junk recurrent ∧ d.layerN ≠ 0) ∨
    ((resetPagedKv zeroRow).run d = .ok () (d.spent.clear zeroRow) ∧ d.layerN ≠ 0) := by
  rw [← spent_layerN d]
  unfold EStateM.run resetPagedKv
  unfold spent
  rcases d.nextFault with ⟨fault, d₁⟩
  simp only
  by_cases h0 : d₁.layerN = 0
  · cases fault <;> simp [h0]
  · cases fault with
    | none => simp [h0]
    | early => simp
    | late junk r => exact .inr (.inr (.inl ⟨nativeError "see IREE status", junk, r, by simp [h0], rfl, h0⟩))

/-- An invocation fails without effect, stops half way through its chunk's rows, or runs. -/
theorem invokePagedChunk_cases (exe : ChunkExecutable F Row ρ) (tokens : List Int) (last start : Int)
    (wantLogits : Bool) (d : Shim Row ρ) :
    (∃ e, (invokePagedChunk exe tokens last start wantLogits).run d = .error e d.spent) ∨
    (∃ e junk recurrent, (invokePagedChunk exe tokens last start wantLogits).run d =
        .error e { d.spent with planes := torn junk start.toNat last.toNat d.planes, recurrent } ∧
      d.nextFault.1 = .late junk recurrent ∧ d.layerN ≠ 0) ∨
    ((invokePagedChunk exe tokens last start wantLogits).run d =
        .ok (if wantLogits then
            some (exe.run tokens last.toNat start.toNat d.recurrent d.planes).logits else none,
          (exe.run tokens last.toNat start.toNat d.recurrent d.planes).token)
        { d.spent with
          planes := (exe.run tokens last.toNat start.toNat d.recurrent d.planes).planes
          recurrent := (exe.run tokens last.toNat start.toNat d.recurrent d.planes).recurrent } ∧
      acceptsChunk d.config.chunkSize tokens last start = true ∧ d.layerN ≠ 0) := by
  rw [← spent_layerN d, ← spent_config d, ← spent_planes d, ← spent_recurrent d]
  unfold EStateM.run invokePagedChunk
  unfold spent
  rcases d.nextFault with ⟨fault, d₁⟩
  simp only
  by_cases h0 : acceptsChunk d₁.config.chunkSize tokens last start = true
  · by_cases h1 : d₁.layerN = 0
    · cases fault <;> simp [h0, h1]
    · cases fault with
      | none => simp [h0, h1]
      | early => simp
      | late junk r => exact .inr (.inl ⟨nativeError "see IREE status", junk, r, by simp [h0, h1], rfl, h1⟩)
  · rw [Bool.not_eq_true] at h0
    cases fault <;> simp [h0]

/-! ## Calls that nothing disturbs -/

/-- The next call does not fail half way. -/
def Untorn (d : Shim Row ρ) : Prop :=
  ∀ junk recurrent, d.nextFault.1 ≠ .late junk recurrent

theorem Untorn.of_faults {d d' : Shim Row ρ} (h : Untorn d) (hf : d'.faults = d.faults) : Untorn d' := by
  unfold Untorn nextFault at *
  rw [hf]
  cases hd : d.faults with
  | nil => intro junk recurrent hn; cases hn
  | cons fault faults => rw [hd] at h; exact h

/-- The next `n` calls meet no fault. -/
def Quiet (n : Nat) (d : Shim Row ρ) : Prop :=
  ∀ fault ∈ d.faults.take n, fault = .none

theorem Quiet.spent {n : Nat} {d : Shim Row ρ} (h : Quiet (n + 1) d) :
    d.nextFault.1 = .none ∧ Quiet n d.spent := by
  rw [spent_eq]
  unfold Quiet nextFault at *
  cases hf : d.faults with
  | nil => simp
  | cons fault faults =>
    rw [hf, List.take_succ_cons] at h
    exact ⟨h fault (by simp), fun f hf => h f (by simpa using .inr hf)⟩

theorem Quiet.of_faults {n : Nat} {d d' : Shim Row ρ} (h : Quiet n d) (hf : d'.faults = d.faults) :
    Quiet n d' := by
  unfold Quiet
  rw [hf]
  exact h

theorem resetPagedKv_quiet {n : Nat} (zeroRow : Row) {d : Shim Row ρ} (h : Quiet (n + 1) d) :
    (resetPagedKv zeroRow).run d =
      .ok () (if d.layerN = 0 then { d.spent with pageCount := 0, allocatedBytes := 0 }
        else d.spent.clear zeroRow) := by
  have hnone := h.spent.1
  rw [← spent_layerN d]
  unfold EStateM.run resetPagedKv
  unfold spent
  revert hnone
  rcases d.nextFault with ⟨fault, d₁⟩
  intro hnone
  obtain rfl : fault = .none := hnone
  simp only
  split <;> rfl

theorem ensureKvPages_quiet {n : Nat} (zeroRow : Row) {pageCount planeBytes : Nat} {d : Shim Row ρ}
    (h : Quiet (n + 1) d) (hpage : d.config.pageSize ≠ 0) (hcount : pageCount ≠ 0)
    (hbytes : d.config.planeBytes pageCount = .ok planeBytes) :
    ((ensureKvPages zeroRow pageCount).run d = .ok () d.spent ∧ Holds pageCount d) ∨
      (ensureKvPages zeroRow pageCount).run d =
        .ok () (d.spent.release.allocate zeroRow pageCount planeBytes) := by
  have hnone := h.spent.1
  have hholds : Holds pageCount d ↔ Holds pageCount d.spent := by simp [Holds]
  rw [hholds]
  rw [← spent_config d] at hpage hbytes
  unfold EStateM.run ensureKvPages
  unfold spent at hpage hbytes ⊢
  revert hpage hbytes hnone
  rcases d.nextFault with ⟨fault, d₁⟩
  intro hpage hbytes hnone
  obtain rfl : fault = .none := hnone
  simp only [Holds]
  have hbytes' : d₁.release.config.planeBytes pageCount = .ok planeBytes := hbytes
  by_cases h2 : d₁.layerN = d₁.config.layerCount ∧ pageCount ≤ d₁.pageCount
  · exact .inl ⟨by simp [show d₁.config.pageSize ≠ 0 from hpage, hcount, h2], h2⟩
  · exact .inr (by simp [show d₁.config.pageSize ≠ 0 from hpage, hcount, h2, hbytes'])

theorem ensureKvPages_holds {n : Nat} (zeroRow : Row) {pageCount : Nat} {d : Shim Row ρ}
    (h : Quiet (n + 1) d) (hpage : d.config.pageSize ≠ 0) (hcount : pageCount ≠ 0) (hholds : Holds pageCount d) :
    (ensureKvPages zeroRow pageCount).run d = .ok () d.spent := by
  have hnone := h.spent.1
  have hiff : Holds pageCount d ↔ Holds pageCount d.spent := by simp [Holds]
  rw [hiff] at hholds
  rw [← spent_config d] at hpage
  unfold EStateM.run ensureKvPages
  unfold spent at hpage hholds ⊢
  revert hpage hholds hnone
  rcases d.nextFault with ⟨fault, d₁⟩
  intro hpage hholds hnone
  obtain rfl : fault = .none := hnone
  simp only [Holds] at hholds
  simp [show d₁.config.pageSize ≠ 0 from hpage, hcount, hholds]

theorem invokePagedChunk_quiet {n : Nat} {exe : ChunkExecutable F Row ρ} {tokens : List Int}
    {last start : Int} {wantLogits : Bool} {d : Shim Row ρ} (h : Quiet (n + 1) d)
    (haccept : acceptsChunk d.config.chunkSize tokens last start = true) (hn : d.layerN ≠ 0) :
    (invokePagedChunk exe tokens last start wantLogits).run d =
      .ok (if wantLogits then
          some (exe.run tokens last.toNat start.toNat d.recurrent d.planes).logits else none,
        (exe.run tokens last.toNat start.toNat d.recurrent d.planes).token)
      { d.spent with
        planes := (exe.run tokens last.toNat start.toNat d.recurrent d.planes).planes
        recurrent := (exe.run tokens last.toNat start.toNat d.recurrent d.planes).recurrent } := by
  have hnone := h.spent.1
  rw [← spent_config d] at haccept
  rw [← spent_layerN d] at hn
  rw [← spent_planes d, ← spent_recurrent d]
  unfold EStateM.run invokePagedChunk
  unfold spent at haccept hn ⊢
  revert haccept hn hnone
  rcases d.nextFault with ⟨fault, d₁⟩
  intro haccept hn hnone
  obtain rfl : fault = .none := hnone
  simp [show acceptsChunk d₁.config.chunkSize tokens last start = true from haccept,
    show d₁.layerN ≠ 0 from hn]

end Dyninfer.Shim
