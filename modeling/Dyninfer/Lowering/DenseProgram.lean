/-
The emitted functions of a dense decoder of attention layers, over any scalars
(`lowering/dense_decoder.rs`): the chunk functions
(`emit_paged_chunk_begin`, `emit_paged_fused_chunk`, `emit_paged_chunk_logits`),
`prefill` (`emit_prefill`) and `decode` (`emit_decode`). The weights come as the
parameter lowerings load them. A token is an index into the vocabulary.

At the end of a window the last real row is put into a tile for the norm; the
other rows of the tile are not initialised, so they are a parameter.
-/
import Dyninfer.Lowering.DecoderMath

namespace Dyninfer

open Kernels

namespace DenseProgram

variable {F : Type} [Zero F] [One F] [Add F] [Sub F] [Mul F] [Div F] [Neg F] [Max F] [MathFns F]
  {s v h nkv g d i n : Nat} (c : DecoderSettings F) (w : DecoderWeights F v h nkv g d i)

/-- The rows of the embedding table at the tokens. -/
def embed (tokens : Fin s → Fin v) : Fin s → Fin h → F := fun p => w.tokenEmbd (tokens p)

/-- `emit_output_proj`. -/
def outputProj (x : Fin 1 → Fin h → F) : Fin v → F := linear x w.output ⟨0, Nat.one_pos⟩

/-- The logits of the last real row of a window, by way of a tile. -/
def lastLogits (tile hidden : Fin s → Fin h → F) (last : Fin s) : Fin v → F :=
  let lastS (p : Fin s) := if (p : Nat) = 0 then hidden last else tile p
  let ln := rmsNorm c.rmsNormEps lastS w.outputNorm
  let ln1 (_ : Fin 1) := ln ⟨0, Nat.zero_lt_of_lt last.isLt⟩
  outputProj w ln1

/-! ## The chunk functions -/

/-- A call with a window of tokens, and the index of its last real one. -/
structure ChunkCall (v : Nat) where
  seq : Nat
  tokens : Fin seq → Fin v
  last : Fin seq

/-- The pages of the packed planes. -/
structure PlaneShape where
  page : Nat
  numPages : Nat

/-- The chunk that a call at a position presents. -/
def ChunkCall.chunk (call : ChunkCall v) (shape : PlaneShape) (start : Nat) : PagedChunk :=
  ⟨call.seq, shape.page, shape.numPages, start, call.last + 1⟩

/-- The fused layers from number `l` on. -/
def fusedLayers (chunk : PagedChunk) : List (LayerWeights F h nkv g d i) → Nat → (Fin chunk.seq → Fin h → F) →
    (Nat → List (KvRow F nkv d)) → (Fin chunk.seq → Fin h → F) × (Nat → List (KvRow F nkv d))
  | [], _, hidden, planes => (hidden, planes)
  | L :: rest, l, hidden, planes =>
    let r := DenseLayer.fusedAttn c L chunk hidden (planes l)
    fusedLayers chunk rest (l + 1) r.1 fun l' => if l' = l then r.2 else planes l'

/-- `prefill_chunk` and `decode_chunk`: the logits, and the planes. -/
def chunkFn (shape : PlaneShape) (call : ChunkCall v) (start : Nat) (tile : Fin call.seq → Fin h → F)
    (planes : Nat → List (KvRow F nkv d)) : (Fin v → F) × (Nat → List (KvRow F nkv d)) :=
  let r := fusedLayers c (call.chunk shape start) w.layers 0 (embed w call.tokens) planes
  (lastLogits c w tile r.1 call.last, r.2)

/-! ## `prefill` and `decode` -/

/-- The layers of `prefill` from number `l` on. -/
def prefillLayers : List (LayerWeights F h nkv g d i) → Nat → (Fin s → Fin h → F) →
    (Nat → Fin n → KvRow F nkv d) → (Fin s → Fin h → F) × (Nat → Fin n → KvRow F nkv d)
  | [], _, hidden, globals => (hidden, globals)
  | L :: rest, l, hidden, globals =>
    let r := DenseLayer.prefillLayer c L n hidden
    prefillLayers rest (l + 1) r.1 fun l' => if l' = l then r.2 else globals l'

/-- `prefill`: the logits, and the globals. -/
def prefillFn (call : ChunkCall v) (tile : Fin call.seq → Fin h → F) (globals : Nat → Fin n → KvRow F nkv d) :
    (Fin v → F) × (Nat → Fin n → KvRow F nkv d) :=
  let r := prefillLayers c w.layers 0 (embed w call.tokens) globals
  (lastLogits c w tile r.1 call.last, r.2)

/-- The layers of `decode` from number `l` on. -/
def decodeLayers (pos : Nat) (attnBias : Fin n → F) : List (LayerWeights F h nkv g d i) → Nat → (Fin 1 → Fin h → F) →
    (Nat → Fin n → KvRow F nkv d) → (Fin 1 → Fin h → F) × (Nat → Fin n → KvRow F nkv d)
  | [], _, hidden, globals => (hidden, globals)
  | L :: rest, l, hidden, globals =>
    let r := DenseLayer.decodeLayer c L pos attnBias hidden (globals l)
    decodeLayers pos attnBias rest (l + 1) r.1 fun l' => if l' = l then r.2 else globals l'

/-- `decode`: the logits, and the globals. -/
def decodeFn (token : Fin v) (pos : Nat) (attnBias : Fin n → F) (globals : Nat → Fin n → KvRow F nkv d) :
    (Fin v → F) × (Nat → Fin n → KvRow F nkv d) :=
  let r := decodeLayers c pos attnBias w.layers 0 (embed w fun _ => token) globals
  (outputProj w (rmsNorm c.rmsNormEps r.1 w.outputNorm), r.2)

/-- The bias that the host fills for a position, as `decode` takes it. -/
def hostBias (F : Type) [HostFloat F] (pos n : Nat) : Fin n → F := fun j =>
  if pos < j then HostFloat.masked else HostFloat.zero

/-- What a layer makes of hidden rows in calls of `decode`, the first of them at a position: the rows that
leave it, and its globals. -/
def decodeRows [HostFloat F] (L : LayerWeights F h nkv g d i) :
    Nat → List (Fin h → F) → (Fin n → KvRow F nkv d) → List (Fin h → F) × (Fin n → KvRow F nkv d)
  | _, [], cache => ([], cache)
  | pos, x :: rest, cache =>
    let r := DenseLayer.decodeLayer c L pos (hostBias F pos n) (fun _ => x) cache
    let r' := decodeRows L (pos + 1) rest r.2
    (r.1 ⟨0, Nat.one_pos⟩ :: r'.1, r'.2)

theorem ofFn_hostBias (F : Type) [HostFloat F] {n : Nat} (hn : 1 ≤ n) (pos : Nat) :
    List.ofFn (hostBias F pos n) = fillCausalAttnBias F pos n := by
  unfold fillCausalAttnBias hostBias
  rw [Nat.max_eq_left hn]
  exact List.ext_getElem (by simp) fun j _ _ => by simp

end DenseProgram

end Dyninfer
