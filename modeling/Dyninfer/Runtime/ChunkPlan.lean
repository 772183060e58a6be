/-
The invocations of a chunked prefill, as data: which window, last index and
start position `prefill` and `prefill_argmax` pass for each chunk of a prompt.
-/
import Dyninfer.Runtime.Session

namespace Dyninfer

open Rows

/-- One `invoke_paged_chunk_ex` call: the window, the index of its last real token, the position of
its first row. -/
structure ChunkCall where
  window : List Int
  last : Int
  start : Int
  deriving DecidableEq, Repr

/-- The window positions an invocation presents as real: `0..=last`. -/
def ChunkCall.presented (c : ChunkCall) : List Int :=
  c.window.take (c.last + 1).toNat

namespace IreeSession

variable (s : IreeSession)

/-- The call for chunk `i` of a prompt. -/
def chunkCall (chunkSize i : Nat) (chunk : List TokenId) : ChunkCall where
  window := (s.windowFromTokens chunk).1
  last := (s.windowFromTokens chunk).2
  start := ((i * chunkSize : Nat) : Int)

/-- The calls for the chunks from number `i` on. -/
def chunkCalls (chunkSize : Nat) : Nat → List (List TokenId) → List ChunkCall
  | _, [] => []
  | i, chunk :: rest => s.chunkCall chunkSize i chunk :: chunkCalls chunkSize (i + 1) rest

/-- The calls of a whole prefill. -/
def prefillPlan (chunkSize : Nat) (tokens : List TokenId) : List ChunkCall :=
  s.chunkCalls chunkSize 0 (chunks chunkSize tokens)

variable {s}

theorem getElem?_chunkCalls (chunkSize : Nat) (pieces : List (List TokenId)) (i j : Nat) :
    (s.chunkCalls chunkSize i pieces)[j]? = pieces[j]?.map (s.chunkCall chunkSize (i + j)) := by
  induction pieces generalizing i j with
  | nil => simp [chunkCalls]
  | cons chunk rest ih =>
    cases j with
    | zero => simp [chunkCalls]
    | succ j =>
      rw [chunkCalls, List.getElem?_cons_succ, List.getElem?_cons_succ, ih, Nat.add_assoc i 1 j,
        Nat.add_comm 1 j]

theorem length_prefillPlan (chunkSize : Nat) (tokens : List TokenId) :
    (s.prefillPlan chunkSize tokens).length = chunkCount chunkSize tokens.length := by
  have key : ∀ (pieces : List (List TokenId)) i, (s.chunkCalls chunkSize i pieces).length = pieces.length := by
    intro pieces
    induction pieces with
    | nil => intro i; rfl
    | cons chunk rest ih => intro i; simp [chunkCalls, ih]
  rw [prefillPlan, key, length_chunks]

/-- Call `i` of a prefill is the call for the tokens from `i * chunkSize` on. -/
theorem getElem?_prefillPlan {chunkSize : Nat} (hc : 0 < chunkSize) (tokens : List TokenId) (i : Nat) :
    (s.prefillPlan chunkSize tokens)[i]? =
      if i * chunkSize < tokens.length then
        some (s.chunkCall chunkSize i (extractSlice tokens (i * chunkSize) chunkSize))
      else none := by
  rw [prefillPlan, getElem?_chunkCalls, getElem?_chunks hc, Nat.zero_add]
  split <;> rfl

/-! ## Windows -/

theorem new_prefillWindow_pos (metadata : ModelMetadata) (config : SessionConfig) (kv : KvCacheDescriptor)
    (prefillWindow : Nat) : 0 < (new metadata config kv prefillWindow).prefillWindow := by
  simp only [new]
  omega

@[simp] theorem length_window (s : IreeSession) (tokens : List TokenId) :
    (s.windowFromTokens tokens).1.length = s.prefillWindow := by
  unfold windowFromTokens
  simp only
  split
  · simp
  · rw [length_insertSlice (by simp only [List.length_map, List.length_take, List.length_replicate]; omega)]
    simp

/-- The last index is that of the last token that fits, and `0` when none does. -/
theorem window_last (s : IreeSession) (tokens : List TokenId) :
    (s.windowFromTokens tokens).2 = ((min tokens.length s.prefillWindow - 1 : Nat) : Int) := by
  unfold windowFromTokens
  simp only
  split
  · next h => simp [h]
  · next h => simp only; omega

/-- A window holds the tokens that fit, then padding. -/
theorem getElem?_window (s : IreeSession) (tokens : List TokenId) (j : Nat) :
    (s.windowFromTokens tokens).1[j]? =
      if j < min tokens.length s.prefillWindow then (tokens.map tokenI64)[j]?
      else if j < s.prefillWindow then some (tokenI64 s.padTokenId) else none := by
  unfold windowFromTokens
  simp only
  split
  · next h =>
    rw [if_neg (by omega), List.getElem?_replicate]
  · next h =>
    have hlen : ((tokens.take (min tokens.length s.prefillWindow)).map tokenI64).length =
        min tokens.length s.prefillWindow := by
      simp only [List.length_map, List.length_take]
      omega
    rw [getElem?_insertSlice (by simp only [hlen, List.length_replicate]; omega), hlen]
    split
    · next hj =>
      rw [if_pos (by omega), Nat.sub_zero, List.getElem?_map, List.getElem?_map,
        List.getElem?_take_of_lt (by omega)]
    · next hj =>
      rw [if_neg (by omega), List.getElem?_replicate]

/-- What a call presents: the tokens that fit in the window. -/
theorem presented_chunkCall (s : IreeSession) (chunkSize i : Nat) {chunk : List TokenId}
    (hch : chunk ≠ []) (hw : 0 < s.prefillWindow) :
    (s.chunkCall chunkSize i chunk).presented = (chunk.take s.prefillWindow).map tokenI64 := by
  have hpos : 0 < chunk.length := List.length_pos_iff.2 hch
  apply List.ext_getElem?
  intro j
  simp only [ChunkCall.presented, chunkCall, window_last, List.getElem?_take, getElem?_window,
    List.getElem?_map]
  have hlast : (((min chunk.length s.prefillWindow - 1 : Nat) : Int) + 1).toNat =
      min chunk.length s.prefillWindow := by omega
  rw [hlast]
  split
  · next h => rw [if_pos (by omega)]
  · next h =>
    by_cases hj : j < s.prefillWindow
    · rw [if_pos hj, List.getElem?_eq_none (by omega)]; rfl
    · rw [if_neg hj]; rfl

end IreeSession

end Dyninfer
