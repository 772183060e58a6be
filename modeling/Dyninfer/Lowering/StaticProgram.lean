/-
The module of a static-globals manifest over an attention-only graph
(`emit_prefill`, `emit_attn`, `emit_decode`, `attn_decode`), as the context of
a session.

Each layer keeps `max_kv` K/V rows in globals. A prefill runs over its whole
window, padding included, with key `j` hidden from query `i` when `j > i`, and
replaces the globals by zeros with the window's rows in front. A decode writes
its row at its position and attends to the rows whose bias the host left at
zero; so the padding's rows, and the zeros, are never seen.
-/
import Dyninfer.Lowering.AttentionGraph

namespace Dyninfer

open Rows Effect

variable {F Hid Query Row Out : Type}

/-- The K/V globals of each layer. -/
abbrev StaticGlobals (Row : Type) := Nat → List Row

/-- The keys that query `i` of a prefill window sees. -/
def windowAttended (rows : List Row) (i : Nat) : List Row :=
  keep (fun j => !(i < j)) rows

/-- The keys a decode sees: those of no bias. -/
def biasAttended [HostFloat F] [DecidableEq F] (bias : List F) (cache : List Row) : List Row :=
  keep (fun j => bias[j]? == some HostFloat.zero) cache

namespace AttentionLayer

/-- A layer of `prefill`: the hidden rows that leave it, and its globals. -/
def prefillLayer (L : AttentionLayer Hid Query Row Out) (zeroRow : Row) (maxKv : Nat) (hidden : List Hid) :
    List Hid × List Row :=
  let rows := L.rowsFrom 0 hidden
  (hidden.mapIdx fun i h => L.finish h (L.attend (L.query h i) (windowAttended rows i)),
    insertSlice rows (List.replicate maxKv zeroRow) 0)

/-- A layer of `decode`: the hidden row that leaves it, and its globals (`kv_update_row`). -/
def decodeLayer [HostFloat F] [DecidableEq F] (L : AttentionLayer Hid Query Row Out) (position : Nat)
    (bias : List F) (h : Hid) (cache : List Row) : Hid × List Row :=
  let updated := insertSlice [L.row h position] cache position
  (L.finish h (L.attend (L.query h position) (biasAttended bias updated)), updated)

end AttentionLayer

namespace AttentionGraph

/-- The layers of `prefill` from number `l` on. -/
def prefillLayers (zeroRow : Row) (maxKv : Nat) :
    List (AttentionLayer Hid Query Row Out) → Nat → List Hid → StaticGlobals Row → List Hid × StaticGlobals Row
  | [], _, hidden, globals => (hidden, globals)
  | L :: rest, l, hidden, globals =>
    let r := L.prefillLayer zeroRow maxKv hidden
    prefillLayers zeroRow maxKv rest (l + 1) r.1 fun l' => if l' = l then r.2 else globals l'

/-- The layers of `decode` from number `l` on. -/
def decodeLayers [HostFloat F] [DecidableEq F] (position : Nat) (bias : List F) :
    List (AttentionLayer Hid Query Row Out) → Nat → Hid → StaticGlobals Row → Hid × StaticGlobals Row
  | [], _, h, globals => (h, globals)
  | L :: rest, l, h, globals =>
    let r := L.decodeLayer position bias h (globals l)
    decodeLayers position bias rest (l + 1) r.1 fun l' => if l' = l then r.2 else globals l'

/-- `prefill`. -/
def staticPrefill (g : AttentionGraph F Hid Query Row Out) (maxKv : Nat) (window : List Int) (last : Int)
    (globals : StaticGlobals Row) : List F × StaticGlobals Row :=
  let r := prefillLayers g.zeroRow maxKv g.layers 0 (window.map g.embed) globals
  ((r.1[last.toNat]?.map g.head).getD [], r.2)

/-- `decode`. -/
def staticDecode [HostFloat F] [DecidableEq F] (g : AttentionGraph F Hid Query Row Out) (token position : Int)
    (bias : List F) (globals : StaticGlobals Row) : List F × StaticGlobals Row :=
  let r := decodeLayers position.toNat bias g.layers 0 (g.embed token) globals
  (g.head r.1, r.2)

/-- The module as the context of a session, none of its calls failing. It has no paged calls. -/
def staticContext [HostFloat F] [DecidableEq F] (g : AttentionGraph F Hid Query Row Out) (maxKv : Nat) :
    Context F (StaticGlobals Row) where
  resetPagedKv := throw (nativeError "paged KV is not configured")
  ensureKvPages _ := throw (nativeError "paged KV is not configured")
  invokePagedChunkEx _ _ _ _ := throw (nativeError "invalid paged chunk invocation")
  invokePrefill window last := fun globals =>
    .ok (g.staticPrefill maxKv window last globals).1 (g.staticPrefill maxKv window last globals).2
  invokeDecode token position bias := fun globals =>
    .ok (g.staticDecode token position bias globals).1 (g.staticDecode token position bias globals).2

variable {g : AttentionGraph F Hid Query Row Out} {maxKv : Nat} {tokens : List Int}

/-- The globals hold the rows of `tokens`. -/
structure GlobalRows (g : AttentionGraph F Hid Query Row Out) (maxKv : Nat) (tokens : List Int)
    (globals : StaticGlobals Row) : Prop where
  lengths : ∀ l < g.layers.length, (globals l).length = maxKv
  rows : ∀ l < g.layers.length, (globals l).take tokens.length = g.layerRows tokens l

/-! ## Prefill -/

/-- A query of a window attends to the rows up to its own. -/
theorem windowAttended_eq (rows : List Row) (i : Nat) : windowAttended rows i = rows.take (i + 1) := by
  refine keep_lt rows fun j _ => ?_
  rw [← decide_not]
  exact decide_eq_decide.2 (by omega)

/-- A layer of `prefill` is the recomputation's, over the whole window. -/
theorem prefillLayer_fst (L : AttentionLayer Hid Query Row Out) (zeroRow : Row) (hidden : List Hid) :
    (L.prefillLayer zeroRow maxKv hidden).1 = L.recompute hidden := by
  simp only [AttentionLayer.prefillLayer, AttentionLayer.recompute, AttentionLayer.extend, windowAttended_eq,
    List.length_nil, Nat.zero_add, List.nil_append]

/-- The layers `rest` of `prefill`, from number `l` on. -/
theorem prefillLayers_eq {window : List Int} (hwindow : window.length ≤ maxKv) (zeroRow : Row)
    (rest after : List (AttentionLayer Hid Query Row Out)) :
    ∀ (l : Nat) (globals : StaticGlobals Row), g.layers.drop l = rest ++ after →
      (∀ i < l, (globals i).length = maxKv ∧ (globals i).take window.length = g.layerRows window i) →
      (prefillLayers zeroRow maxKv rest l (g.hiddenAt window l) globals).1 = g.hiddenAt window (l + rest.length) ∧
        ∀ i < l + rest.length,
          ((prefillLayers zeroRow maxKv rest l (g.hiddenAt window l) globals).2 i).length = maxKv ∧
          ((prefillLayers zeroRow maxKv rest l (g.hiddenAt window l) globals).2 i).take window.length =
            g.layerRows window i := by
  induction rest with
  | nil => intro l globals _ hglobals; exact ⟨rfl, hglobals⟩
  | cons L rest ih =>
    intro l globals hdrop hglobals
    have hL : g.layers[l]? = some L := by
      rw [← Nat.add_zero l, ← List.getElem?_drop, hdrop, List.cons_append, List.getElem?_cons_zero]
    have hrow := length_hiddenAt (g := g) window l
    rw [prefillLayers, prefillLayer_fst, ← hiddenAt_succ hL, List.length_cons, ← Nat.add_assoc, Nat.add_right_comm]
    refine ih (l + 1) _ (by rw [← List.drop_drop, hdrop, List.drop_one, List.cons_append, List.tail_cons])
      fun i hi => ?_
    split
    · next heq =>
      subst heq
      rw [AttentionLayer.prefillLayer]
      dsimp only
      rw [length_insertSlice (by rw [AttentionLayer.length_rowsFrom, hrow, List.length_replicate]; omega),
        List.length_replicate]
      refine ⟨rfl, ?_⟩
      rw [layerRows_eq hL, insertSlice, List.take_zero, List.nil_append, List.take_append_of_le_length,
        List.take_of_length_le]
      all_goals exact Nat.le_of_eq (by rw [AttentionLayer.length_rowsFrom, hrow])
    · exact hglobals i (by omega)

/-- The hidden rows that enter layer `l` of `prefill`. -/
def prefillHidden (g : AttentionGraph F Hid Query Row Out) (maxKv : Nat) (window : List Int)
    (globals : StaticGlobals Row) (l : Nat) : List Hid :=
  (prefillLayers g.zeroRow maxKv (g.layers.take l) 0 (window.map g.embed) globals).1

/-- At every layer of `prefill`, the query of a real row attends to the K/V rows of all positions up to
its own, each once and in order. -/
theorem prefill_attends {more : List Int} (hwindow : (tokens ++ more).length ≤ maxKv) (globals : StaticGlobals Row)
    {l : Nat} {L : AttentionLayer Hid Query Row Out} (hL : g.layers[l]? = some L) {i : Nat} (hi : i < tokens.length) :
    windowAttended (L.rowsFrom 0 (g.prefillHidden maxKv (tokens ++ more) globals l)) i =
      (g.layerRows tokens l).take (i + 1) := by
  have hl : l < g.layers.length := (List.getElem?_eq_some_iff.1 hL).1
  obtain ⟨hhidden, -⟩ := prefillLayers_eq (g := g) hwindow g.zeroRow (g.layers.take l) (g.layers.drop l) 0 globals
    (List.take_append_drop l g.layers).symm fun i hi => absurd hi (Nat.not_lt_zero i)
  rw [hiddenAt_zero, Nat.zero_add, List.length_take, Nat.min_eq_left (Nat.le_of_lt hl)] at hhidden
  rw [windowAttended_eq, prefillHidden, hhidden, ← layerRows_eq hL, layerRows_append hL,
    List.take_append_of_le_length (by rw [length_layerRows hL]; omega)]

/-- The globals of a longer sequence hold the rows of its prefix. -/
theorem GlobalRows.shrink {more : List Int} {globals : StaticGlobals Row}
    (h : GlobalRows g maxKv (tokens ++ more) globals) : GlobalRows g maxKv tokens globals where
  lengths := h.lengths
  rows l hl := by
    obtain ⟨L, hL⟩ : ∃ L, g.layers[l]? = some L := ⟨_, List.getElem?_eq_getElem hl⟩
    have hle : min tokens.length (tokens ++ more).length = tokens.length := by
      rw [List.length_append]
      omega
    rw [← hle, ← List.take_take, h.rows l hl, layerRows_append hL, ← length_layerRows hL tokens, List.take_left]

/-- `prefill` of a window that begins with the prompt: the prompt's logits and K/V rows. -/
theorem staticPrefill_eq {more : List Int} (hne : tokens ≠ []) (hwindow : (tokens ++ more).length ≤ maxKv)
    (globals : StaticGlobals Row) :
    (g.staticPrefill maxKv (tokens ++ more) ((tokens.length : Int) - 1) globals).1 = g.logits tokens ∧
      GlobalRows g maxKv tokens (g.staticPrefill maxKv (tokens ++ more) ((tokens.length : Int) - 1) globals).2 := by
  have hpos : 0 < tokens.length := List.length_pos_iff.2 hne
  obtain ⟨hhidden, hrows⟩ := prefillLayers_eq (g := g) hwindow g.zeroRow g.layers [] 0 globals
    (List.append_nil _).symm fun i hi => absurd hi (Nat.not_lt_zero i)
  rw [hiddenAt_zero, Nat.zero_add] at hhidden hrows
  refine ⟨?_, GlobalRows.shrink ⟨fun l hl => (hrows l hl).1, fun l hl => (hrows l hl).2⟩⟩
  have hlast : ((tokens.length : Int) - 1).toNat = tokens.length - 1 := by omega
  have hlen := length_hiddenAt (g := g) tokens g.layers.length
  rw [staticPrefill]
  dsimp only
  rw [hhidden, hlast, hiddenAt_append tokens more (Nat.le_refl _), List.getElem?_append_left (by omega), logits,
    List.getLast?_eq_getElem?, hlen]
  cases (g.hiddenAt tokens g.layers.length)[tokens.length - 1]? <;> rfl

/-! ## Decode -/

variable [HostFloat F] [DecidableEq F]

/-- The host's bias leaves exactly the positions up to the decode's at zero. -/
def BiasAt (maxKv position : Nat) (bias : List F) : Prop :=
  ∀ j < maxKv, (bias[j]? == some HostFloat.zero) = decide (j < position + 1)

omit [HostFloat F] [DecidableEq F] in
/-- The row a decode writes, behind the rows it finds. -/
theorem take_updated {row : Row} {cache past : List Row} (hpast : past.length = tokens.length)
    (hrows : cache.take tokens.length = past) :
    (insertSlice [row] cache tokens.length).take (tokens.length + 1) = past ++ [row] := by
  rw [insertSlice, hrows, List.take_append_of_le_length (by simp [hpast]), List.take_of_length_le (by simp [hpast])]

/-- What a decode attends to: the rows it finds, and its own. -/
theorem biasAttended_eq {bias : List F} (hbias : BiasAt maxKv tokens.length bias) (hroom : tokens.length < maxKv)
    {row : Row} {cache past : List Row} (hlen : cache.length = maxKv) (hpast : past.length = tokens.length)
    (hrows : cache.take tokens.length = past) :
    biasAttended bias (insertSlice [row] cache tokens.length) = past ++ [row] := by
  rw [← take_updated hpast hrows]
  refine keep_lt _ fun j hj => hbias j ?_
  rwa [length_insertSlice (by simp only [List.length_singleton]; omega), hlen] at hj

/-- A layer of `decode` over the rows before it, and what is on its globals afterwards. -/
theorem decodeLayer_eq {l : Nat} {L : AttentionLayer Hid Query Row Out} (hL : g.layers[l]? = some L)
    {bias : List F} (hbias : BiasAt maxKv tokens.length bias) (hroom : tokens.length < maxKv) {cache : List Row}
    (hlen : cache.length = maxKv) (hrows : cache.take tokens.length = g.layerRows tokens l) (h : Hid) :
    [(L.decodeLayer tokens.length bias h cache).1] = L.extend (g.layerRows tokens l) [h] ∧
      (L.decodeLayer tokens.length bias h cache).2.length = maxKv ∧
      (L.decodeLayer tokens.length bias h cache).2.take (tokens.length + 1) =
        g.layerRows tokens l ++ L.rowsFrom tokens.length [h] := by
  have hpast := length_layerRows hL tokens
  refine ⟨?_, ?_, take_updated hpast hrows⟩
  · rw [AttentionLayer.decodeLayer, AttentionLayer.extend, AttentionLayer.rowsFrom, List.mapIdx_cons,
      List.mapIdx_nil, List.mapIdx_cons, List.mapIdx_nil]
    dsimp only
    rw [biasAttended_eq hbias hroom hlen hpast hrows, hpast, Nat.add_zero,
      List.take_of_length_le (by simp [hpast])]
  · exact (length_insertSlice (by simp only [List.length_singleton]; omega)).trans hlen

/-- The layers `rest` of `decode`, from number `l` on. -/
theorem decodeLayers_eq {token : Int} {bias : List F} (hbias : BiasAt maxKv tokens.length bias)
    (hroom : tokens.length < maxKv) (rest after : List (AttentionLayer Hid Query Row Out)) :
    ∀ (l : Nat) (h : Hid) (globals : StaticGlobals Row), g.layers.drop l = rest ++ after →
      g.moreAt tokens [token] l = [h] →
      (∀ i < g.layers.length, (globals i).length = maxKv) →
      (∀ i, l ≤ i → i < g.layers.length → (globals i).take tokens.length = g.layerRows tokens i) →
      (∀ i < l, (globals i).take (tokens.length + 1) = g.layerRows (tokens ++ [token]) i) →
      g.moreAt tokens [token] (l + rest.length) = [(decodeLayers tokens.length bias rest l h globals).1] ∧
        (∀ i < g.layers.length, ((decodeLayers tokens.length bias rest l h globals).2 i).length = maxKv) ∧
        ∀ i < l + rest.length, ((decodeLayers tokens.length bias rest l h globals).2 i).take (tokens.length + 1) =
          g.layerRows (tokens ++ [token]) i := by
  induction rest with
  | nil => intro l h globals _ hh hlen _ hbelow; exact ⟨hh, hlen, hbelow⟩
  | cons L rest ih =>
    intro l h globals hdrop hh hlen habove hbelow
    have hL : g.layers[l]? = some L := by
      rw [← Nat.add_zero l, ← List.getElem?_drop, hdrop, List.cons_append, List.getElem?_cons_zero]
    have hl : l < g.layers.length := (List.getElem?_eq_some_iff.1 hL).1
    obtain ⟨hnext, hlen', hrows'⟩ := decodeLayer_eq hL hbias hroom (hlen l hl) (habove l (Nat.le_refl l) hl) h
    rw [List.length_cons, ← Nat.add_assoc, Nat.add_right_comm]
    refine ih (l + 1) _ _ (by rw [← List.drop_drop, hdrop, List.drop_one, List.cons_append, List.tail_cons])
      (by rw [moreAt_succ hL, hh, hnext]) (fun i hi => ?_) (fun i hi hi' => ?_) fun i hi => ?_
    · split
      · exact hlen'
      · exact hlen i hi
    · rw [if_neg (by omega)]
      exact habove i (by omega) hi'
    · split
      · next heq =>
        subst heq
        rw [hrows', layerRows_append hL, hh]
      · exact hbelow i (by omega)

/-- The keys that layer `l` of `decode` attends to. -/
def decodeAttended (g : AttentionGraph F Hid Query Row Out) (token : Int) (position : Nat) (bias : List F)
    (globals : StaticGlobals Row) (l : Nat) (L : AttentionLayer Hid Query Row Out) : List Row :=
  let h := (decodeLayers position bias (g.layers.take l) 0 (g.embed token) globals).1
  biasAttended bias (insertSlice [L.row h position] (globals l) position)

/-- At every layer of `decode`, the query attends to the K/V rows of all positions up to its own, each
once and in order. -/
theorem decode_attends {token : Int} {bias : List F} (hbias : BiasAt maxKv tokens.length bias)
    (hroom : tokens.length < maxKv) {globals : StaticGlobals Row} (h : GlobalRows g maxKv tokens globals)
    {l : Nat} {L : AttentionLayer Hid Query Row Out} (hL : g.layers[l]? = some L) :
    g.decodeAttended token tokens.length bias globals l L = g.layerRows (tokens ++ [token]) l := by
  have hl : l < g.layers.length := (List.getElem?_eq_some_iff.1 hL).1
  obtain ⟨hlast, -, -⟩ := decodeLayers_eq (g := g) hbias hroom (g.layers.take l) (g.layers.drop l) 0
    (g.embed token) globals (List.take_append_drop l g.layers).symm (moreAt_zero tokens [token]) h.lengths
    (fun i _ hi => h.rows i hi) fun i hi => absurd hi (Nat.not_lt_zero i)
  rw [Nat.zero_add, List.length_take, Nat.min_eq_left (Nat.le_of_lt hl)] at hlast
  rw [decodeAttended]
  rw [biasAttended_eq hbias hroom (h.lengths l hl) (length_layerRows hL tokens) (h.rows l hl),
    layerRows_append hL, hlast]
  rfl

/-- `decode` behind `tokens`: the logits and the K/V rows of the longer sequence. -/
theorem staticDecode_eq (token : Int) {bias : List F} (hbias : BiasAt maxKv tokens.length bias)
    (hroom : tokens.length < maxKv) {globals : StaticGlobals Row} (h : GlobalRows g maxKv tokens globals) :
    (g.staticDecode token tokens.length bias globals).1 = g.logits (tokens ++ [token]) ∧
      GlobalRows g maxKv (tokens ++ [token]) (g.staticDecode token tokens.length bias globals).2 := by
  obtain ⟨hlast, hlen, hrows⟩ := decodeLayers_eq (g := g) hbias hroom g.layers [] 0 (g.embed token) globals
    (List.append_nil _).symm (moreAt_zero tokens [token]) h.lengths (fun i _ hi => h.rows i hi)
    fun i hi => absurd hi (Nat.not_lt_zero i)
  rw [Nat.zero_add] at hlast hrows
  rw [logits_append tokens (by rw [hlast]; rfl)]
  exact ⟨rfl, hlen, fun l hl => by rw [List.length_append]; exact hrows l hl⟩

end AttentionGraph

end Dyninfer
