/-
Streaming a short convolution: one chunk takes the last `k` gated activations
of the tokens before it to those of the tokens up to its static end, and its
outputs are the whole sequence's. From that, a run of the session's feed, and
where the static end is not the valid end.
-/
import Dyninfer.Lowering.ShortConv

namespace Dyninfer.ShortConv

open Rows

variable {F : Type} [Zero F] [Add F] [Mul F] {C k : Nat}

/-! ## One op -/

/-- A reduction reads `k` rows. -/
theorem reduce_congr {w : Fin C → Fin k → F} {rows rows' : List (Row F C)} {off off' : Nat}
    (h : ∀ d < k, rows[off + d]? = rows'[off' + d]?) : reduce w rows off = reduce w rows' off' := by
  funext c
  unfold reduce
  congr 1
  funext acc d
  rw [h d d.isLt]

/-- What either form of the op computes from a state of `k` rows: the outputs are reductions over the
state without its oldest row and the chunk's activations, the new state is their last `k` rows. -/
def advance (w : Fin C → Fin k → F) (gates : List (Gates F C)) (state : List (Row F C)) : Step F C where
  output := gates.mapIdx fun i g => gated (reduce w (state.drop 1 ++ gates.map Gates.bx) i) g
  state := lastRows k (state ++ gates.map Gates.bx)

/-- With one kernel tap, row `i` of the output is reduced over activation `i` alone. -/
theorem reduce_one {w : Fin C → Fin k → F} (hk : k = 1) {bx state : List (Row F C)}
    (hs : state.length = k) (i : Nat) :
    reduce w (extractSlice bx i 1) 0 = reduce w (state.drop 1 ++ bx) i := by
  apply reduce_congr
  intro d hd
  obtain rfl : d = 0 := by omega
  have hnil : state.drop 1 = [] := List.drop_of_length_le (by omega)
  rw [hnil, List.nil_append, getElem?_extractSlice, if_pos (by omega)]

theorem convPrefill_eq {w : Fin C → Fin k → F} {s : Nat} (hk : 0 < k) (hs : 0 < s)
    {gates : List (Gates F C)} {state : List (Row F C)} (hg : gates.length = s) (hst : state.length = k) :
    convPrefill w s gates state = ((advance w gates state).output, (advance w gates state).state) := by
  unfold convPrefill advance
  by_cases h1 : k = 1
  · simp only [h1, if_true]
    have hlast : extractSlice (gates.map Gates.bx) (s - 1) 1 = lastRows 1 (state ++ gates.map Gates.bx) := by
      rw [lastRows_append_right (by rw [List.length_map]; omega), lastRows, List.length_map, hg]
      exact extractSlice_eq_drop (by rw [List.length_map]; omega)
    rw [hlast]
    have hout : (fun i (g : Gates F C) => gated (reduce w (extractSlice (gates.map Gates.bx) i 1) 0) g) =
        fun i g => gated (reduce w (state.drop 1 ++ gates.map Gates.bx) i) g := by
      funext i g
      rw [reduce_one h1 hst]
    rw [hout]
  · simp only [h1, if_false]
    have hhist : extractSlice state 1 (k - 1) = state.drop 1 := extractSlice_eq_drop (by omega)
    have hpad : insertSlice (gates.map Gates.bx)
        (insertSlice (extractSlice state 1 (k - 1)) (List.replicate (s + (k - 1)) zeroRow) 0) (k - 1) =
          state.drop 1 ++ gates.map Gates.bx := by
      rw [hhist]
      have hl : (state.drop 1).length = k - 1 := by simp only [List.length_drop]; omega
      have hn : s + (k - 1) = (state.drop 1).length + (gates.map Gates.bx).length := by
        rw [hl, List.length_map]; omega
      have hfill := insertSlice_prefix_suffix (zeroRow : Row F C) (state.drop 1) (gates.map Gates.bx) hn
      rwa [hl] at hfill
    rw [hpad]
    refine Prod.ext rfl ?_
    rw [extractSlice_eq_drop (by rw [List.length_append, List.length_drop, List.length_map]; omega)]
    simp only [lastRows, List.length_append, List.length_map, hg, hst]
    rw [List.drop_append, List.drop_append, List.drop_drop, List.length_drop]
    congr 1
    · congr 1; omega
    · congr 1; omega

theorem convDecode_eq {w : Fin C → Fin k → F} (hk : 0 < k) {gates : List (Gates F C)}
    {state : List (Row F C)} (hg : gates.length = 1) (hst : state.length = k) :
    convDecode w gates state = ((advance w gates state).output, (advance w gates state).state) := by
  rw [← convPrefill_eq hk Nat.one_pos hg hst]
  unfold convDecode convPrefill
  by_cases h1 : k = 1
  · simp only [h1, if_true, Nat.sub_self]
    rw [extractSlice_all (by rw [List.length_map]; omega)]
  · simp only [h1, if_false]
    have hk1 : 1 + (k - 1) = k := by omega
    obtain ⟨g, rfl⟩ := List.length_eq_one_iff.1 hg
    refine Prod.ext (by simp [hk1]) ?_
    simp only [hk1, Nat.sub_self]
    have hshift : (extractSlice state 1 (k - 1)).length = k - 1 := by
      rw [length_extractSlice, hst, Nat.min_self]
    have hinner : (insertSlice (extractSlice state 1 (k - 1))
        (List.replicate k (zeroRow : Row F C)) 0).length = k := by
      rw [length_insertSlice (by rw [hshift, List.length_replicate]; omega), List.length_replicate]
    refine (extractSlice_all (Nat.le_of_eq ?_)).symm
    rw [length_insertSlice (by rw [hinner, List.length_map, List.length_singleton]; omega), hinner]

/-- The state a chunk starts from. -/
def startState (k : Nat) (state : List (Row F C)) (chunk : Chunk F C) : List (Row F C) :=
  if chunk.start = 0 then List.replicate k zeroRow else state

theorem runChunk_eq {w : Fin C → Fin k → F} {s : Nat} (hk : 0 < k) (hs : 0 < s) {state : List (Row F C)}
    {chunk : Chunk F C} (hst : state.length = k)
    (hg : chunk.gates.length = if chunk.decode then 1 else s) :
    runChunk w s state chunk = advance w chunk.gates (startState k state chunk) := by
  have hlen : (startState k state chunk).length = k := by
    unfold startState
    split
    · simp
    · exact hst
  unfold runChunk
  cases hd : chunk.decode with
  | true =>
    rw [hd, if_pos rfl] at hg
    simp only [if_true]
    rw [← startState, convDecode_eq hk hg hlen]
  | false =>
    rw [hd, if_neg (by simp)] at hg
    simp only [Bool.false_eq_true, if_false]
    rw [← startState, convPrefill_eq hk hs hg hlen]

/-! ## One chunk of a stream -/

theorem getElem?_advance_output (w : Fin C → Fin k → F) (gates : List (Gates F C)) (state : List (Row F C))
    (j : Nat) : (advance w gates state).output[j]? =
      gates[j]?.map fun g => gated (reduce w (state.drop 1 ++ gates.map Gates.bx) j) g := by
  rw [advance, List.getElem?_mapIdx]

omit [Zero F] [Add F] [Mul F] in
theorem take_append_chunk {tokens gates pads : List (Gates F C)} {seen valid : Nat}
    (hg : gates = (tokens.drop seen).take valid ++ pads) :
    tokens.take seen ++ gates = tokens.take (seen + valid) ++ pads := by
  rw [hg, List.take_add, List.append_assoc]

/-- From the trailing activations of the tokens before it, a chunk's valid outputs are the whole
sequence's, whatever rows follow its valid ones. -/
theorem advance_output {w : Fin C → Fin k → F} (hk : 0 < k) {tokens gates pads : List (Gates F C)}
    {seen valid : Nat} (hlen : seen + valid ≤ tokens.length)
    (hg : gates = (tokens.drop seen).take valid ++ pads) {j : Nat} (hj : j < valid) :
    (advance w gates (trailing k zeroRow ((tokens.take seen).map Gates.bx))).output[j]? =
      wholeConv w tokens (seen + j) := by
  have hseen : ((tokens.take seen).map Gates.bx).length = seen := by
    rw [List.length_map, List.length_take]; omega
  have hrow : gates[j]? = tokens[seen + j]? := by
    rw [hg, List.getElem?_append_left (by rw [List.length_take, List.length_drop]; omega),
      List.getElem?_take_of_lt hj, List.getElem?_drop]
  rw [getElem?_advance_output, wholeConv, hrow]
  congr 1
  funext g
  rw [drop_one_trailing_append hk, hseen, ← List.map_append, take_append_chunk hg]
  congr 1
  apply reduce_congr
  intro d hd
  rw [List.getElem?_drop, Nat.add_assoc seen j d, List.getElem?_append, List.getElem?_append]
  split
  · rfl
  · -- Past the zeros: a row of a valid token, the padding being behind the last one.
    simp only [List.length_replicate, List.getElem?_map] at *
    rw [List.getElem?_append_left (by rw [List.length_take]; omega), List.getElem?_take_of_lt (by omega)]

/-- The state behind a chunk: the trailing activations of everything up to its static end. -/
theorem advance_state {w : Fin C → Fin k → F} {tokens gates pads : List (Gates F C)} {seen valid : Nat}
    (hg : gates = (tokens.drop seen).take valid ++ pads) :
    (advance w gates (trailing k zeroRow ((tokens.take seen).map Gates.bx))).state =
      trailing k zeroRow ((tokens.take (seen + valid) ++ pads).map Gates.bx) := by
  rw [advance, ← trailing_append, ← List.map_append, take_append_chunk hg]

/-! ## Runs of full chunks -/

/-- Chunks that carry the next tokens and nothing else, each at its own position. -/
def Full (s : Nat) (tokens : List (Gates F C)) : Nat → List (Chunk F C) → Prop
  | _, [] => True
  | seen, chunk :: rest =>
    chunk.gates = (tokens.drop seen).take chunk.valid ∧ seen + chunk.valid ≤ tokens.length ∧
      chunk.gates.length = (if chunk.decode then 1 else s) ∧ chunk.start = seen ∧
      Full s tokens (seen + chunk.valid) rest

/-- A run of full chunks streams: each step hands the trailing activations to the next. -/
theorem streams_of_full {w : Fin C → Fin k → F} {s : Nat} (hk : 0 < k) (hs : 0 < s)
    {tokens : List (Gates F C)} : ∀ {chunks : List (Chunk F C)} {seen : Nat} {state : List (Row F C)},
      Full s tokens seen chunks → state.length = k →
      (seen ≠ 0 → state = trailing k zeroRow ((tokens.take seen).map Gates.bx)) →
      Streams w tokens seen chunks (run w s state chunks)
  | [], _, _, _, _, _ => rfl
  | chunk :: rest, seen, state, h, hst, hseen => by
    obtain ⟨hg, hlen, hw, hstart, hrest⟩ := h
    have hstate : startState k state chunk = trailing k zeroRow ((tokens.take seen).map Gates.bx) := by
      unfold startState
      split
      · next h0 => simp [← hstart, h0]
      · next h0 => exact hseen (hstart ▸ h0)
    have hstep : runChunk w s state chunk =
        advance w chunk.gates (trailing k zeroRow ((tokens.take seen).map Gates.bx)) := by
      rw [runChunk_eq hk hs hst hw, hstate]
    have hg' : chunk.gates = (tokens.drop seen).take chunk.valid ++ [] := by rw [List.append_nil]; exact hg
    have hnew : (runChunk w s state chunk).state =
        trailing k zeroRow ((tokens.take (seen + chunk.valid)).map Gates.bx) := by
      rw [hstep, advance_state hg', List.append_nil]
    refine ⟨hnew, fun j hj => ?_, streams_of_full hk hs hrest ?_ fun _ => hnew⟩
    · rw [hstep]
      exact advance_output hk hlen hg' hj
    · rw [hnew, length_trailing]

omit [Zero F] [Add F] [Mul F] in
theorem full_decodeChunks (s : Nat) {tokens : List (Gates F C)} :
    ∀ {more : List (Gates F C)} {seen : Nat}, tokens.drop seen = more →
      Full s tokens seen (decodeChunks seen more)
  | [], _, _ => trivial
  | g :: more, seen, h => by
    have hlt : seen < tokens.length := by
      have := congrArg List.length h
      rw [List.length_drop, List.length_cons] at this
      omega
    refine ⟨by simp [h], hlt, rfl, rfl, full_decodeChunks s ?_⟩
    rw [← List.drop_drop, h]
    rfl

omit [Zero F] [Add F] [Mul F] in
theorem full_promptChunks {s : Nat} (hs : 0 < s) {tokens : List (Gates F C)} {tail : List (Chunk F C)}
    (pads : Nat → Nat → Gates F C) (prompt : List (Gates F C)) :
    ∀ {more : List (Gates F C)} {i : Nat}, s ∣ prompt.length → tokens.drop (i * s) = prompt ++ more →
      Full s tokens (i * s + prompt.length) tail →
      Full s tokens (i * s) (promptChunks s pads i (chunks s prompt) ++ tail) := by
  induction prompt using chunks_induction hs with
  | nil => intro more i _ _ htail; simpa [promptChunks] using htail
  | cons prompt hne ih =>
    intro more i hdvd hdrop htail
    have hpos : 0 < prompt.length := List.length_pos_iff.2 hne
    have hle : s ≤ prompt.length := Nat.le_of_dvd hpos hdvd
    have htake : (prompt.take s).length = s := by rw [List.length_take]; omega
    have hlen : i * s + prompt.length ≤ tokens.length := by
      have := congrArg List.length hdrop
      rw [List.length_drop, List.length_append] at this
      omega
    rw [chunks_cons hs hne, promptChunks, List.cons_append]
    refine ⟨?_, ?_, ?_, rfl, ?_⟩
    · simp only [htake, Nat.sub_self, List.range_zero, List.map_nil, List.append_nil, hdrop]
      rw [List.take_append_of_le_length hle]
    · simp only [htake]
      omega
    · simp only [htake, Nat.sub_self, List.range_zero, List.map_nil, List.append_nil, beq_iff_eq]
      split
      · next h => exact h
      · rfl
    · simp only [htake]
      have hi : i * s + s = (i + 1) * s := (Nat.succ_mul i s).symm
      rw [hi]
      refine @ih more (i + 1) ?_ ?_ ?_
      · rw [List.length_drop]
        exact Nat.dvd_sub hdvd (Nat.dvd_refl s)
      · rw [← hi, ← List.drop_drop, hdrop, List.drop_append_of_le_length hle]
      · rw [List.length_drop, ← hi]
        have : i * s + s + (prompt.length - s) = i * s + prompt.length := by omega
        rwa [this]

/-! ## The feed -/

omit [Zero F] [Add F] [Mul F] in
/-- The prefill chunks are the session's: same starts, same valid rows. -/
theorem promptChunks_prefillPlan {session : IreeSession} (pads : Nat → Nat → Gates F C)
    (prompt : List (Gates F C)) {tokens : List TokenId} (hlen : tokens.length = prompt.length) :
    (promptChunks session.prefillWindow pads 0 (chunks session.prefillWindow prompt)).map
        (fun c => ((c.start : Int), (c.valid : Int))) =
      (session.prefillPlan session.prefillWindow tokens).map fun c => (c.start, c.last + 1) := by
  rcases Nat.eq_zero_or_pos session.prefillWindow with hw | hw
  · simp [IreeSession.prefillPlan, chunks, chunkCount, hw, promptChunks, IreeSession.chunkCalls]
  have key : ∀ (pieces : List (List (Gates F C))) (i j : Nat),
      (promptChunks session.prefillWindow pads i pieces)[j]?.map (fun c => ((c.start : Int), (c.valid : Int))) =
        pieces[j]?.map fun piece => ((((i + j) * session.prefillWindow : Nat) : Int), (piece.length : Int)) := by
    intro pieces
    induction pieces with
    | nil => simp [promptChunks]
    | cons piece rest ih =>
      intro i j
      cases j with
      | zero => simp [promptChunks]
      | succ j =>
        rw [promptChunks, List.getElem?_cons_succ, List.getElem?_cons_succ, ih, Nat.add_assoc i 1 j,
          Nat.add_comm 1 j]
  apply List.ext_getElem?
  intro j
  rw [List.getElem?_map, List.getElem?_map, key, IreeSession.getElem?_prefillPlan hw, getElem?_chunks hw,
    hlen]
  split
  · next h =>
    simp only [Option.map_some, IreeSession.chunkCall, IreeSession.window_last, length_extractSlice,
      Nat.zero_add, hlen]
    congr 2
    omega
  · rfl

/-- A prompt of whole chunks streams, and so does everything decoded after it. -/
theorem streams_of_dvd {w : Fin C → Fin k → F} {s : Nat} (hk : 0 < k) (hs : 0 < s)
    {prompt : List (Gates F C)} (hdvd : s ∣ prompt.length) (continuation : List (Gates F C))
    (pads : Nat → Nat → Gates F C) {state : List (Row F C)} (hst : state.length = k) :
    Streams w (prompt ++ continuation) 0 (feed s pads prompt continuation)
      (run w s state (feed s pads prompt continuation)) := by
  have hfull : Full s (prompt ++ continuation) 0 (feed s pads prompt continuation) := by
    have htail : Full s (prompt ++ continuation) (0 * s + prompt.length)
        (decodeChunks prompt.length continuation) := by
      rw [Nat.zero_mul, Nat.zero_add]
      exact full_decodeChunks s (by simp)
    have hdrop : (prompt ++ continuation).drop (0 * s) = prompt ++ continuation := by simp
    have hall := full_promptChunks hs pads prompt hdvd hdrop htail
    rwa [Nat.zero_mul] at hall
  exact streams_of_full hk hs hfull hst fun h => absurd rfl h

/-- With a short last chunk the state behind the prompt ends in a pad row. -/
theorem partial_chunk_last {w : Fin C → Fin k → F} {s : Nat} (hk : 0 < k) (hs : 0 < s)
    {tokens : List (Gates F C)} {tail : List (Chunk F C)} (pad : Gates F C) (prompt : List (Gates F C)) :
    ∀ {i seen : Nat} {state : List (Row F C)}, ¬ s ∣ prompt.length → state.length = k →
      Streams w tokens seen (promptChunks s (fun _ _ => pad) i (chunks s prompt) ++ tail)
        (run w s state (promptChunks s (fun _ _ => pad) i (chunks s prompt) ++ tail)) →
      (trailing k zeroRow ((tokens.take (seen + prompt.length)).map Gates.bx)).getLast? = some pad.bx := by
  induction prompt using chunks_induction hs with
  | nil => intro i seen state h; exact absurd (Nat.dvd_zero s) h
  | cons prompt hne ih =>
    intro i seen state hndvd hst hstream
    rw [chunks_cons hs hne, promptChunks, List.cons_append, run, Streams] at hstream
    obtain ⟨hstate, -, hrest⟩ := hstream
    by_cases hlt : prompt.length < s
    · -- The last chunk: its gates end in padding, and the state takes them in.
      have htake : prompt.take s = prompt := List.take_of_length_le (by omega)
      have hs1 : (s == 1) = false := by
        have : 0 < prompt.length := List.length_pos_iff.2 hne
        rw [beq_eq_false_iff_ne]; omega
      rw [runChunk_eq hk hs hst (by simp [htake, hs1]; omega), advance] at hstate
      simp only [htake] at hstate
      rw [← hstate, lastRows, List.getLast?_drop, List.length_append, List.length_map, if_neg ?_,
        List.getLast?_append, List.map_append, List.getLast?_append]
      · have hrange : (List.range (s - prompt.length)).map (fun _ => pad) =
            List.replicate (s - prompt.length) pad := by
          rw [List.map_const', List.length_range]
        rw [hrange, List.map_replicate, List.getLast?_replicate, if_neg (by omega)]
        rfl
      · simp only [List.length_append, List.length_map, List.length_range]
        omega
    · have htake : (prompt.take s).length = s := by rw [List.length_take]; omega
      have hlen : (prompt.drop s).length + s = prompt.length := by rw [List.length_drop]; omega
      have hnew := @ih (i + 1) (seen + (prompt.take s).length) _ ?_ ?_ hrest
      · rw [htake, Nat.add_assoc, Nat.add_comm s, hlen] at hnew
        exact hnew
      · intro hdvd
        exact hndvd (hlen ▸ Nat.dvd_add hdvd (Nat.dvd_refl s))
      · rw [hstate, length_trailing]

/-- Gates whose activation is `a * b` in every channel. -/
def constGates (C : Nat) (a b : F) : Gates F C := fun i => if (i : Nat) < C then a else b

omit [Zero F] [Add F] in
theorem constGates_bx (a b : F) : (constGates C a b).bx = fun _ => a * b := by
  funext c
  have hc := c.isLt
  simp only [Gates.bx, Gates.b, Gates.x, constGates]
  rw [if_pos hc, if_neg (by omega)]

/-- **A short convolution streams exactly over prompts of whole chunks.** Whatever the pad rows hold,
every prefill chunk and every decode after it has the outputs of the whole sequence and leaves the
last `k` gated activations of the valid tokens, if and only if the chunk width divides the prompt.
Products must tell two activations apart, and there must be a channel. -/
theorem streams_iff_dvd {w : Fin C → Fin k → F} {s : Nat} (hk : 0 < k) (hs : 0 < s) (hC : 0 < C)
    (hF : ∃ a b a' b' : F, a * b ≠ a' * b') {prompt : List (Gates F C)} (hp : prompt ≠ [])
    (continuation : List (Gates F C)) {state : List (Row F C)} (hst : state.length = k) :
    (∀ pads, Streams w (prompt ++ continuation) 0 (feed s pads prompt continuation)
      (run w s state (feed s pads prompt continuation))) ↔ s ∣ prompt.length := by
  constructor
  · intro h
    apply Classical.byContradiction
    intro hndvd
    have hlast : ∀ pad : Gates F C, (prompt.map Gates.bx).getLast? = some pad.bx := by
      intro pad
      have hpad := partial_chunk_last hk hs pad prompt hndvd hst (h fun _ _ => pad)
      rw [Nat.zero_add, List.take_left, trailing_getLast? hk _ (by simpa using hp)] at hpad
      exact hpad
    obtain ⟨a, b, a', b', hne⟩ := hF
    have heq := (hlast (constGates C a b)).symm.trans (hlast (constGates C a' b'))
    rw [constGates_bx, constGates_bx] at heq
    exact hne (congrFun (Option.some.inj heq) ⟨0, hC⟩)
  · intro hdvd pads
    exact streams_of_dvd hk hs hdvd continuation pads hst

/-- One channel and two taps of weight one. -/
def unitTaps : Fin 1 → Fin 2 → Int := fun _ _ => 1

theorem streams_iff_dvd_two :
    (∀ pads, Streams unitTaps ([constGates 1 1 1, constGates 1 1 2] ++ []) 0
      (feed 2 pads [constGates 1 1 1, constGates 1 1 2] [])
      (run unitTaps 2 (List.replicate 2 zeroRow) (feed 2 pads [constGates 1 1 1, constGates 1 1 2] []))) ↔
      2 ∣ [constGates 1 1 1, constGates 1 1 (2 : Int)].length :=
  streams_iff_dvd (by decide) (by decide) (by decide) ⟨1, 1, 0, 0, by decide⟩ (by simp) [] rfl

/-- One token in chunks of two rows: the row it is padded with is the newest of the state, and the
decode behind it convolves over that row. -/
theorem pad_row_streams_on :
    ¬ Streams unitTaps ([constGates 1 1 1] ++ [constGates 1 1 5]) 0
      (feed 2 (fun _ _ => constGates 1 1 3) [constGates 1 1 1] [constGates 1 1 5])
      (run unitTaps 2 (List.replicate 2 zeroRow)
        (feed 2 (fun _ _ => constGates 1 1 3) [constGates 1 1 1] [constGates 1 1 5])) := by
  intro h
  obtain ⟨-, -, -, hout, -⟩ := h
  -- The decode's own output: 3 + 5, where the valid tokens give 1 + 5.
  have hrow := congrArg (Option.map fun r : Row Int 1 => r 0) (hout 0 (by decide))
  revert hrow
  decide

end Dyninfer.ShortConv
