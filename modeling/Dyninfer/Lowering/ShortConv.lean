/-
The gated causal depthwise short convolution of an LFM2 layer, as
`emit_conv_op` writes it (`dyninfer-compiler/src/lowering/dense_decoder.rs`),
and what a session's prefill chunks and decodes make of it.

A gates row is one row of `in_proj`'s output: `B`, `C` and `x` side by side.
The arithmetic is uninterpreted: every sum is the accumulation the emitted
`linalg.generic` performs, from zero, in the order of the reduction index.

The state the op leaves is aligned to the static width of the chunk, not to
its valid rows. So the rows a short last chunk is padded with enter the state,
and every property below that looks past a chunk needs the chunk to be full.
-/
import Dyninfer.Lib.Rows
import Dyninfer.Runtime.ChunkPlan

namespace Dyninfer.ShortConv

open Rows

section op

variable {F : Type} [Zero F] [Add F] [Mul F] {C k : Nat}

/-- A row of `C` channels. -/
abbrev Row (F : Type) (C : Nat) := Fin C → F

/-- A row of gates, `[3*C]`. -/
abbrev Gates (F : Type) (C : Nat) := Fin (3 * C) → F

def zeroRow : Row F C := fun _ => 0

/-- `%B`, `%Cgate` and `%x`: the column slices at `0`, `C` and `2*C`. -/
def Gates.b (g : Gates F C) : Row F C := fun c => g ⟨c, by omega⟩
def Gates.c (g : Gates F C) : Row F C := fun c => g ⟨C + c, by omega⟩
def Gates.x (g : Gates F C) : Row F C := fun c => g ⟨2 * C + c, by omega⟩

/-- `%Bx`, a gated activation. -/
def Gates.bx (g : Gates F C) : Row F C := fun c => g.b c * g.x c

/-- One row of the depthwise reduction: `k` rows from `off` on against the kernel. -/
def reduce (w : Fin C → Fin k → F) (rows : List (Row F C)) (off : Nat) : Row F C := fun c =>
  Fin.foldl k (fun acc d => acc + ((rows[off + d]?).getD zeroRow) c * w c d) 0

/-- Row `i` of `%y`, the convolution times the `C` gate. -/
def gated (conv : Row F C) (g : Gates F C) : Row F C := fun c => conv c * g.c c

/-- `emit_conv_op` in prefill mode, over `s` gates rows: the `[s, C]` output and the new state. -/
def convPrefill (w : Fin C → Fin k → F) (s : Nat) (gates : List (Gates F C)) (stateOld : List (Row F C)) :
    List (Row F C) × List (Row F C) :=
  let bx := gates.map Gates.bx
  if k = 1 then
    (gates.mapIdx fun i g => gated (reduce w (extractSlice bx i 1) 0) g, extractSlice bx (s - 1) 1)
  else
    let pad := k - 1
    let history := extractSlice stateOld 1 pad
    let padZ := List.replicate (s + pad) zeroRow
    let padded := insertSlice bx (insertSlice history padZ 0) pad
    (gates.mapIdx fun i g => gated (reduce w padded i) g, extractSlice padded (s - 1) k)

/-- `emit_conv_op` in decode mode, over one gates row. -/
def convDecode (w : Fin C → Fin k → F) (gates : List (Gates F C)) (stateOld : List (Row F C)) :
    List (Row F C) × List (Row F C) :=
  let bx := gates.map Gates.bx
  if k = 1 then
    (gates.mapIdx fun i g => gated (reduce w (extractSlice bx i 1) 0) g, bx)
  else
    let shift := extractSlice stateOld 1 (k - 1)
    let stateZ := List.replicate k zeroRow
    let stateNew := insertSlice bx (insertSlice shift stateZ 0) (k - 1)
    (gates.mapIdx fun _ g => gated (reduce w stateNew 0) g, stateNew)

/-- One chunk invocation at the layer: its gates, how many of them are valid, its start position and
whether it is the decode function. -/
structure Chunk (F : Type) (C : Nat) where
  decode : Bool
  gates : List (Gates F C)
  valid : Nat
  start : Nat

/-- What the layer leaves behind an invocation. -/
structure Step (F : Type) (C : Nat) where
  output : List (Row F C)
  state : List (Row F C)

/-- The layer in one chunk function: `emit_paged_chunk_begin` clears the state when the chunk starts
at position `0`, then the op runs. -/
def runChunk (w : Fin C → Fin k → F) (s : Nat) (state : List (Row F C)) (chunk : Chunk F C) : Step F C :=
  let state := if chunk.start = 0 then List.replicate k zeroRow else state
  let r := if chunk.decode then convDecode w chunk.gates state else convPrefill w s chunk.gates state
  { output := r.1, state := r.2 }

/-- The steps of a run of invocations, the state handed from each to the next. -/
def run (w : Fin C → Fin k → F) (s : Nat) : List (Row F C) → List (Chunk F C) → List (Step F C)
  | _, [] => []
  | state, chunk :: rest =>
    let step := runChunk w s state chunk
    step :: run w s step.state rest

/-! ## The session's feed -/

/-- The prefill chunks from number `i` on, each right-padded to `s` rows by rows of `pads`. A window
of one token is what the shim hands to the decode function. -/
def promptChunks (s : Nat) (pads : Nat → Nat → Gates F C) :
    Nat → List (List (Gates F C)) → List (Chunk F C)
  | _, [] => []
  | i, piece :: rest =>
    { decode := s == 1
      gates := piece ++ (List.range (s - piece.length)).map (pads i)
      valid := piece.length
      start := i * s } :: promptChunks s pads (i + 1) rest

/-- The single-token chunks from position `start` on. -/
def decodeChunks : Nat → List (Gates F C) → List (Chunk F C)
  | _, [] => []
  | start, g :: rest =>
    { decode := true, gates := [g], valid := 1, start } :: decodeChunks (start + 1) rest

/-- A prompt and its continuation as the session feeds them. -/
def feed (s : Nat) (pads : Nat → Nat → Gates F C) (prompt continuation : List (Gates F C)) :
    List (Chunk F C) :=
  promptChunks s pads 0 (chunks s prompt) ++ decodeChunks prompt.length continuation

/-! ## What it is for -/

/-- The causal depthwise convolution of a whole sequence, at token `t`. -/
def wholeConv (w : Fin C → Fin k → F) (tokens : List (Gates F C)) (t : Nat) : Option (Row F C) :=
  tokens[t]?.map fun g =>
    gated (reduce w (List.replicate (k - 1) zeroRow ++ tokens.map Gates.bx) t) g

/-- A run of `chunks` over the valid tokens `tokens`, of which `seen` are behind it: after each chunk
the state is the last `k` gated activations of the valid tokens seen, and the outputs of the chunk's
valid tokens are those of the whole sequence. -/
def Streams (w : Fin C → Fin k → F) (tokens : List (Gates F C)) : Nat → List (Chunk F C) → List (Step F C) → Prop
  | _, [], steps => steps = []
  | _, _ :: _, [] => False
  | seen, chunk :: chunks, step :: steps =>
    step.state = trailing k zeroRow ((tokens.take (seen + chunk.valid)).map Gates.bx) ∧
      (∀ j < chunk.valid, step.output[j]? = wholeConv w tokens (seen + j)) ∧
      Streams w tokens (seen + chunk.valid) chunks steps

end op

end Dyninfer.ShortConv
