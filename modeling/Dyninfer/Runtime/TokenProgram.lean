/-
What a compiled module computes, token by token: each token's K/V row at every
layer, and its outputs, are a function of the rows of the positions before it
and of what the module carries along beside them. `produced` is what a whole
token list gives from nothing.

A module implements such a program on planes of some length when a chunk that
starts where the rows of a prefix end takes them to the rows of the longer
prefix, with the outputs of its last token.
-/
import Dyninfer.Runtime.Shim

namespace Dyninfer

/-- What a module keeps of the tokens so far: its recurrent state, and each layer's rows. -/
abbrev RowPrefix (Row ρ : Type) := ρ × (Nat → List Row)

/-- What one token gives: its row at every layer, the recurrent state behind it, its outputs. -/
structure TokenStep (F Row ρ : Type) where
  rows : Nat → Row
  recurrent : ρ
  logits : List F
  token : Int

structure TokenProgram (F Row ρ : Type) where
  layers : Nat
  /-- The recurrent state before the first token. -/
  init : ρ
  step : RowPrefix Row ρ → Int → TokenStep F Row ρ

namespace TokenProgram

variable {F Row ρ : Type} (p : TokenProgram F Row ρ)

def feed (st : RowPrefix Row ρ) (token : Int) : RowPrefix Row ρ :=
  ((p.step st token).recurrent, fun l => if l < p.layers then st.2 l ++ [(p.step st token).rows l] else st.2 l)

def fill (st : RowPrefix Row ρ) (tokens : List Int) : RowPrefix Row ρ :=
  tokens.foldl p.feed st

/-- The outputs of the last of `tokens`. -/
def outputs (st : RowPrefix Row ρ) : List Int → List F × Int
  | [] => ([], -1)
  | [token] => ((p.step st token).logits, (p.step st token).token)
  | token :: tokens => outputs (p.feed st token) tokens

/-- Nothing yet. -/
def start : RowPrefix Row ρ :=
  (p.init, fun _ => [])

/-- What running `tokens` at positions `0, 1, ..` in order produces. -/
def produced (tokens : List Int) : RowPrefix Row ρ :=
  p.fill p.start tokens

/-- The logits behind running `tokens`. -/
def logits (tokens : List Int) : List F :=
  (p.outputs p.start tokens).1

/-- The token the module reports behind running `tokens`. -/
def token (tokens : List Int) : Int :=
  (p.outputs p.start tokens).2

variable {p}

theorem length_fill (st : RowPrefix Row ρ) (tokens : List Int) {l : Nat} (hl : l < p.layers) :
    ((p.fill st tokens).2 l).length = (st.2 l).length + tokens.length := by
  induction tokens generalizing st with
  | nil => rfl
  | cons token tokens ih =>
    rw [fill, List.foldl_cons, ← fill, ih]
    simp only [feed, if_pos hl, List.length_append, List.length_cons, List.length_nil]
    omega

theorem length_produced (tokens : List Int) {l : Nat} (hl : l < p.layers) :
    ((p.produced tokens).2 l).length = tokens.length := by
  rw [produced, length_fill _ _ hl]
  simp [start]

theorem produced_append (tokens more : List Int) :
    p.produced (tokens ++ more) = p.fill (p.produced tokens) more := by
  simp only [produced, fill, List.foldl_append]

theorem outputs_append (tokens : List Int) {more : List Int} (hne : more ≠ []) (st : RowPrefix Row ρ) :
    p.outputs st (tokens ++ more) = p.outputs (p.fill st tokens) more := by
  induction tokens generalizing st with
  | nil => rfl
  | cons token tokens ih =>
    rw [List.cons_append]
    cases h : tokens ++ more with
    | nil => exact absurd (List.append_eq_nil_iff.1 h).2 hne
    | cons next rest =>
      change p.outputs (p.feed st token) (next :: rest) = _
      rw [← h, ih]
      rfl

/-- The module, on windows of `chunkSize` tokens or one and planes of `rows` rows, computes what the
program says. -/
structure Implements (p : TokenProgram F Row ρ) (rows chunkSize : Nat) (exe : ChunkExecutable F Row ρ) : Prop where
  keeps : exe.KeepsPlanes rows
  run : ∀ {tokens window : List Int} {last : Nat} {recurrent : ρ} {planes : Nat → List Row},
    window.length = chunkSize ∨ window.length = 1 → last < window.length → (∀ l, (planes l).length = rows) → tokens.length + (last + 1) ≤ rows →
    (∀ l < p.layers, (planes l).take tokens.length = (p.produced tokens).2 l) →
    (tokens ≠ [] → recurrent = (p.produced tokens).1) →
    let r := exe.run window last tokens.length recurrent planes
    let more := window.take (last + 1)
    (r.logits = p.logits (tokens ++ more) ∧ r.token = p.token (tokens ++ more)) ∧
      (∀ l < p.layers, (r.planes l).take (tokens ++ more).length = (p.produced (tokens ++ more)).2 l) ∧
      r.recurrent = (p.produced (tokens ++ more)).1

/-! ## The program as a module -/

/-- A plane with its first rows overwritten. -/
def overlay (old new : List Row) : List Row :=
  new.take old.length ++ old.drop new.length

/-- A chunk at position `0` starts from the initial state; the rows before any other chunk are read
from the planes. -/
def executable (zeroRow : Row) (p : TokenProgram F Row ρ) : ChunkExecutable F Row ρ where
  zeroRow := zeroRow
  run window last start recurrent planes :=
    let st : RowPrefix Row ρ :=
      (if start = 0 then p.init else recurrent, fun l => if l < p.layers then (planes l).take start else [])
    let more := window.take (last + 1)
    { logits := (p.outputs st more).1, token := (p.outputs st more).2
      planes := fun l => overlay (planes l) ((p.fill st more).2 l), recurrent := (p.fill st more).1 }

end TokenProgram

end Dyninfer
