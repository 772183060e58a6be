/-
Attention-only graphs, and what they mean: the causal recomputation of a whole
token sequence.

The operations on single rows are functions nothing is assumed of: embedding a
token, the query and the K/V row of a hidden row at a position (norm,
projections, RoPE), attention of a query over a list of K/V rows, the rest of
the layer, and the head. Arithmetic is exact, so converting a row into the
storage type and back is the identity.

A sequence can be extended: what a layer makes of its first rows does not
depend on the rows after them. So recomputation can be carried out a few rows
at a time, over the K/V rows of the rows before (`extend`), which is what
every emitted program does. The graph as a program that handles its tokens one
by one is `tokenProgram`.
-/
import Dyninfer.Lib.FirstMax
import Dyninfer.Runtime.TokenProgram
import Mathlib.Data.List.Induction

namespace Dyninfer

/-- One layer, row by row. -/
structure AttentionLayer (Hid Query Row Out : Type) where
  query : Hid → Nat → Query
  row : Hid → Nat → Row
  attend : Query → List Row → Out
  finish : Hid → Out → Hid

structure AttentionGraph (F Hid Query Row Out : Type) where
  embed : Int → Hid
  layers : List (AttentionLayer Hid Query Row Out)
  head : Hid → List F
  /-- What fresh storage is filled with. -/
  zeroRow : Row

variable {F Hid Query Row Out : Type}

namespace AttentionLayer

variable (L : AttentionLayer Hid Query Row Out)

/-- The K/V rows of hidden rows at positions `start, start + 1, ..`. -/
def rowsFrom (start : Nat) (hidden : List Hid) : List Row :=
  hidden.mapIdx fun i h => L.row h (start + i)

/-- What the layer makes of hidden rows that follow the K/V rows `past`: each attends to `past`, the
rows before it and its own. -/
def extend (past : List Row) (hidden : List Hid) : List Hid :=
  hidden.mapIdx fun i h =>
    L.finish h (L.attend (L.query h (past.length + i))
      ((past ++ L.rowsFrom past.length hidden).take (past.length + i + 1)))

/-- What the layer makes of a whole sequence. -/
def recompute (hidden : List Hid) : List Hid := L.extend [] hidden

@[simp] theorem length_rowsFrom (start : Nat) (hidden : List Hid) :
    (L.rowsFrom start hidden).length = hidden.length := by simp [rowsFrom]

@[simp] theorem length_extend (past : List Row) (hidden : List Hid) :
    (L.extend past hidden).length = hidden.length := by simp [extend]

theorem rowsFrom_append (start : Nat) (hidden more : List Hid) :
    L.rowsFrom start (hidden ++ more) = L.rowsFrom start hidden ++ L.rowsFrom (start + hidden.length) more := by
  rw [rowsFrom, List.mapIdx_append]
  simp only [rowsFrom, Nat.add_assoc, Nat.add_comm hidden.length]

theorem take_rowsFrom (start n : Nat) (hidden : List Hid) :
    (L.rowsFrom start hidden).take n = L.rowsFrom start (hidden.take n) := by
  apply List.ext_getElem?
  intro i
  simp only [rowsFrom, List.getElem?_take, List.getElem?_mapIdx]
  split <;> rfl

/-- The first rows of an extension do not depend on the rows after them. -/
theorem take_extend (past : List Row) (n : Nat) (hidden : List Hid) :
    (L.extend past hidden).take n = L.extend past (hidden.take n) := by
  apply List.ext_getElem?
  intro i
  simp only [extend, List.getElem?_take, List.getElem?_mapIdx]
  split
  · next hi =>
    congr 1
    funext h
    have hrows : (past ++ L.rowsFrom past.length (hidden.take n)).take (past.length + i + 1) =
        (past ++ L.rowsFrom past.length hidden).take (past.length + i + 1) := by
      rw [← take_rowsFrom, List.take_append, List.take_append, List.take_take,
        Nat.min_eq_left (by omega)]
    rw [hrows]
  · rfl

/-- A layer over a sequence in two parts: the first alone, then the second over its rows. -/
theorem recompute_append (hidden more : List Hid) :
    L.recompute (hidden ++ more) = L.recompute hidden ++ L.extend (L.rowsFrom 0 hidden) more := by
  have hsplit := List.take_append_drop hidden.length (L.recompute (hidden ++ more))
  rw [← hsplit, recompute, take_extend, List.take_left]
  congr 1
  apply List.ext_getElem?
  intro i
  simp only [extend, List.getElem?_drop, List.getElem?_mapIdx, List.length_nil, Nat.zero_add,
    List.nil_append, length_rowsFrom]
  rw [List.getElem?_append_right (by omega), Nat.add_sub_cancel_left, rowsFrom_append, Nat.zero_add]

end AttentionLayer

namespace AttentionGraph

variable (g : AttentionGraph F Hid Query Row Out)

/-- The hidden rows that enter layer `l` when `tokens` are recomputed. -/
def hiddenAt (tokens : List Int) (l : Nat) : List Hid :=
  (g.layers.take l).foldl (fun hidden L => L.recompute hidden) (tokens.map g.embed)

/-- The K/V rows of layer `l`, of positions `0, 1, ..`. -/
def layerRows (tokens : List Int) (l : Nat) : List Row :=
  match g.layers[l]? with
  | some L => L.rowsFrom 0 (g.hiddenAt tokens l)
  | none => []

/-- The logits behind the last token. -/
def logits (tokens : List Int) : List F :=
  match (g.hiddenAt tokens g.layers.length).getLast? with
  | some h => g.head h
  | none => []

variable {g}

theorem hiddenAt_zero (tokens : List Int) : g.hiddenAt tokens 0 = tokens.map g.embed := rfl

theorem hiddenAt_succ {l : Nat} {L : AttentionLayer Hid Query Row Out} (hL : g.layers[l]? = some L)
    (tokens : List Int) : g.hiddenAt tokens (l + 1) = L.recompute (g.hiddenAt tokens l) := by
  rw [hiddenAt, List.take_add_one, hL, Option.toList_some, List.foldl_append]
  rfl

theorem layerRows_eq {l : Nat} {L : AttentionLayer Hid Query Row Out} (hL : g.layers[l]? = some L)
    (tokens : List Int) : g.layerRows tokens l = L.rowsFrom 0 (g.hiddenAt tokens l) := by
  rw [layerRows, hL]

theorem length_hiddenAt (tokens : List Int) (l : Nat) : (g.hiddenAt tokens l).length = tokens.length := by
  have key : ∀ (layers : List (AttentionLayer Hid Query Row Out)) (hidden : List Hid),
      (layers.foldl (fun hidden L => L.recompute hidden) hidden).length = hidden.length := by
    intro layers
    induction layers with
    | nil => intro hidden; rfl
    | cons L layers ih =>
      intro hidden
      rw [List.foldl_cons, ih, AttentionLayer.recompute, AttentionLayer.length_extend]
  rw [hiddenAt, key, List.length_map]

theorem length_layerRows {l : Nat} {L : AttentionLayer Hid Query Row Out} (hL : g.layers[l]? = some L)
    (tokens : List Int) : (g.layerRows tokens l).length = tokens.length := by
  rw [layerRows_eq hL, AttentionLayer.length_rowsFrom, length_hiddenAt]

/-! ## Extending a sequence -/

/-- The hidden rows of `more` that enter layer `l` when they follow `tokens`. -/
def moreAt (g : AttentionGraph F Hid Query Row Out) (tokens more : List Int) (l : Nat) : List Hid :=
  (g.hiddenAt (tokens ++ more) l).drop tokens.length

/-- The recomputation of a longer sequence is that of the prefix, then the rows of the rest. -/
theorem hiddenAt_append (tokens more : List Int) {l : Nat} (hl : l ≤ g.layers.length) :
    g.hiddenAt (tokens ++ more) l = g.hiddenAt tokens l ++ g.moreAt tokens more l := by
  have htake : (g.hiddenAt (tokens ++ more) l).take tokens.length = g.hiddenAt tokens l := by
    induction l with
    | zero => simp [hiddenAt_zero]
    | succ l ih =>
      obtain ⟨L, hL⟩ : ∃ L, g.layers[l]? = some L := ⟨_, List.getElem?_eq_getElem hl⟩
      rw [hiddenAt_succ hL, hiddenAt_succ hL, AttentionLayer.recompute, AttentionLayer.take_extend,
        ih (by omega)]
      rfl
  rw [moreAt, ← htake, List.take_append_drop]

theorem moreAt_zero (tokens more : List Int) : g.moreAt tokens more 0 = more.map g.embed := by
  simp [moreAt, hiddenAt_zero]

theorem length_moreAt (tokens more : List Int) (l : Nat) : (g.moreAt tokens more l).length = more.length := by
  rw [moreAt, List.length_drop, length_hiddenAt, List.length_append]
  omega

/-- A layer of the rest runs over the K/V rows of the prefix. -/
theorem moreAt_succ {l : Nat} {L : AttentionLayer Hid Query Row Out} (hL : g.layers[l]? = some L)
    (tokens more : List Int) :
    g.moreAt tokens more (l + 1) = L.extend (g.layerRows tokens l) (g.moreAt tokens more l) := by
  have hl : l < g.layers.length := (List.getElem?_eq_some_iff.1 hL).1
  have hlen : tokens.length = (g.hiddenAt tokens (l + 1)).length := (length_hiddenAt tokens _).symm
  rw [moreAt, hiddenAt_succ hL, hiddenAt_append tokens more (Nat.le_of_lt hl), AttentionLayer.recompute_append,
    ← hiddenAt_succ hL, hlen, List.drop_left, layerRows_eq hL]

/-- The rows of the longer sequence are those of the prefix, then those of the rest. -/
theorem layerRows_append {l : Nat} {L : AttentionLayer Hid Query Row Out} (hL : g.layers[l]? = some L)
    (tokens more : List Int) :
    g.layerRows (tokens ++ more) l =
      g.layerRows tokens l ++ L.rowsFrom tokens.length (g.moreAt tokens more l) := by
  have hl : l < g.layers.length := (List.getElem?_eq_some_iff.1 hL).1
  rw [layerRows_eq hL, layerRows_eq hL, hiddenAt_append tokens more (Nat.le_of_lt hl),
    AttentionLayer.rowsFrom_append, length_hiddenAt, Nat.zero_add]

/-- The logits of a longer sequence are the head of the last of its new rows. -/
theorem logits_append (tokens : List Int) {more : List Int} {h : Hid}
    (hlast : (g.moreAt tokens more g.layers.length).getLast? = some h) :
    g.logits (tokens ++ more) = g.head h := by
  rw [logits, hiddenAt_append tokens more (Nat.le_refl _), List.getLast?_append, hlast]
  rfl

/-! ## The graph as a program of tokens -/

/-- The argmax the chunk functions end with: the index of the first strict maximum. -/
def deviceArgmax [HostFloat F] (logits : List F) : Int :=
  (FirstMax.scan HostFloat.gt (0, HostFloat.negInfinity) logits 0).1

/-- One token through the layers from number `l` on, over the rows before it: its K/V row at each, and
the hidden row that leaves the last. -/
def stepLayers (past : Nat → List Row) :
    List (AttentionLayer Hid Query Row Out) → Nat → Hid → List Row × Hid
  | [], _, h => ([], h)
  | L :: rest, l, h =>
    let n := (past l).length
    let row := L.row h n
    let r := stepLayers past rest (l + 1) (L.finish h (L.attend (L.query h n) (past l ++ [row])))
    (row :: r.1, r.2)

/-- The graph, token by token. It carries nothing beside its rows. -/
def tokenProgram [HostFloat F] (g : AttentionGraph F Hid Query Row Out) : TokenProgram F Row Unit where
  layers := g.layers.length
  init := ()
  step st token :=
    let r := stepLayers st.2 g.layers 0 (g.embed token)
    { rows := fun l => r.1[l]?.getD g.zeroRow, recurrent := ()
      logits := g.head r.2, token := deviceArgmax (g.head r.2) }

/-- One token behind `tokens` through the layers: what recomputing the longer sequence adds. -/
theorem stepLayers_eq (tokens : List Int) (token : Int) (rest : List (AttentionLayer Hid Query Row Out)) :
    ∀ (l : Nat) (h : Hid), g.layers.drop l = rest → l ≤ g.layers.length → g.moreAt tokens [token] l = [h] →
      (∀ (i : Nat) (L : AttentionLayer Hid Query Row Out), rest[i]? = some L → ∃ row, (stepLayers (g.layerRows tokens) rest l h).1[i]? = some row ∧
        L.rowsFrom tokens.length (g.moreAt tokens [token] (l + i)) = [row]) ∧
      g.moreAt tokens [token] g.layers.length = [(stepLayers (g.layerRows tokens) rest l h).2] := by
  induction rest with
  | nil =>
    intro l h hdrop hl hh
    have hend : l = g.layers.length := by
      have := congrArg List.length hdrop
      rw [List.length_drop, List.length_nil] at this
      omega
    refine ⟨fun i L hL => by simp at hL, ?_⟩
    rw [← hend, hh]
    rfl
  | cons L rest ih =>
    intro l h hdrop _ hh
    have hL : g.layers[l]? = some L := by
      rw [← Nat.add_zero l, ← List.getElem?_drop, hdrop, List.getElem?_cons_zero]
    have hl : l < g.layers.length := (List.getElem?_eq_some_iff.1 hL).1
    have hpast := length_layerRows hL tokens
    have hnext : g.moreAt tokens [token] (l + 1) =
        [L.finish h (L.attend (L.query h (g.layerRows tokens l).length)
          (g.layerRows tokens l ++ [L.row h (g.layerRows tokens l).length]))] := by
      rw [moreAt_succ hL, hh, AttentionLayer.extend, AttentionLayer.rowsFrom, List.mapIdx_cons, List.mapIdx_nil,
        List.mapIdx_cons, List.mapIdx_nil]
      rw [Nat.add_zero, List.take_of_length_le (by simp)]
    obtain ⟨hrows, hlast⟩ := ih (l + 1) _ (by rw [← List.drop_drop, hdrop, List.drop_one, List.tail_cons]) hl hnext
    refine ⟨fun i L' hL' => ?_, hlast⟩
    cases i with
    | zero =>
      obtain rfl := Option.some.inj hL'
      refine ⟨_, rfl, ?_⟩
      rw [Nat.add_zero, hh, AttentionLayer.rowsFrom, List.mapIdx_cons, List.mapIdx_nil, Nat.add_zero, hpast]
    | succ i =>
      obtain ⟨row, hrow, heq⟩ := hrows i L' hL'
      exact ⟨row, hrow, by rw [← heq, Nat.add_right_comm, Nat.add_assoc]⟩

variable [HostFloat F]

theorem step_rows (st : RowPrefix Row Unit) (token : Int) (l : Nat) :
    (g.tokenProgram.step st token).rows l =
      (stepLayers st.2 g.layers 0 (g.embed token)).1[l]?.getD g.zeroRow := rfl

/-- Token by token, the graph produces the K/V rows of the recomputation. -/
theorem produced_tokenProgram (tokens : List Int) : (g.tokenProgram.produced tokens).2 = g.layerRows tokens := by
  induction tokens using List.reverseRecOn with
  | nil =>
    funext l
    cases hL : g.layers[l]? with
    | none => rw [layerRows, hL]; rfl
    | some L =>
      exact (List.length_eq_zero_iff.1 (length_layerRows hL [])).symm
  | append_singleton tokens token ih =>
    rw [TokenProgram.produced_append, TokenProgram.fill, List.foldl_cons, List.foldl_nil]
    funext l
    obtain ⟨hrows, -⟩ := stepLayers_eq (g := g) tokens token g.layers 0 (g.embed token) rfl (Nat.zero_le _)
      (moreAt_zero tokens [token])
    simp only [TokenProgram.feed, ih]
    cases hL : g.layers[l]? with
    | none =>
      have hl : ¬ l < g.layers.length := Nat.not_lt.2 (List.getElem?_eq_none_iff.1 hL)
      rw [if_neg (show ¬ l < g.tokenProgram.layers from hl), layerRows, layerRows, hL]
    | some L =>
      have hl : l < g.layers.length := (List.getElem?_eq_some_iff.1 hL).1
      obtain ⟨row, hrow, heq⟩ := hrows l L hL
      rw [Nat.zero_add] at heq
      rw [if_pos (show l < g.tokenProgram.layers from hl), layerRows_append hL, heq, step_rows, ih, hrow]
      rfl

/-- Token by token, the graph's outputs are those of the recomputation. -/
theorem outputs_tokenProgram {tokens : List Int} (hne : tokens ≠ []) :
    g.tokenProgram.logits tokens = g.logits tokens ∧
      g.tokenProgram.token tokens = deviceArgmax (g.logits tokens) := by
  induction tokens using List.reverseRecOn with
  | nil => exact absurd rfl hne
  | append_singleton tokens token _ =>
    obtain ⟨-, hlast⟩ := stepLayers_eq (g := g) tokens token g.layers 0 (g.embed token) rfl (Nat.zero_le _)
      (moreAt_zero tokens [token])
    have hlogits := logits_append (g := g) tokens (by rw [hlast]; rfl)
    have hout := TokenProgram.outputs_append (p := g.tokenProgram) tokens (List.cons_ne_nil token [])
      g.tokenProgram.start
    rw [TokenProgram.logits, TokenProgram.token, hout, hlogits, ← TokenProgram.produced,
      ← produced_tokenProgram (g := g) tokens]
    exact ⟨rfl, rfl⟩

end AttentionGraph

end Dyninfer
