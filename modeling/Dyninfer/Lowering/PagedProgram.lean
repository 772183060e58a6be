/-
The chunk functions of a paged module over an attention-only graph
(`emit_paged_fused_chunk`): embedding, one fused attention layer after another
over the packed planes, the head on the last valid row.

`prefill_chunk` and `decode_chunk` are one program at two static widths, so
the width is the window's. A fused layer attends either to the pages below the
chunk's end, one after another, or to the packed planes at once; both see a
key through the causal mask and through the chunk's end. Its queries include
those of the padding rows, which see what they see; nothing reads them.

On planes that hold the rows of a prefix, the chunk takes them to the rows of
the longer one: the module implements the graph's token program.
-/
import Dyninfer.Lowering.AttentionGraph
import Dyninfer.Lowering.PagedStoreFacts

namespace Dyninfer

open Rows

variable {F Hid Query Row Out : Type}

/-- What the chunk functions are compiled for. -/
structure PagedShape where
  page : Nat
  numPages : Nat
  /-- `use_iree_attention`. -/
  flash : Bool
  deriving DecidableEq, Repr

/-- `emit_full_causal_mask` and `emit_paged_causal_mask`: whether query `q` of the chunk sees the key at
position `k`. -/
def PagedChunk.visible (c : PagedChunk) (q k : Nat) : Bool :=
  k ≤ c.start + q && k < c.start + c.valid

/-- The K/V rows that query `q` attends to, in order: of the packed planes at once, or page by page. -/
def PagedChunk.attended (c : PagedChunk) (flash : Bool) (chunk kv : List Row) (q : Nat) : List Row :=
  if flash then keep (c.visible q) (c.packed id chunk kv)
  else
    (List.range c.histPages).foldl
      (fun seen pi => seen ++ keep (fun k => c.visible q (pi * c.page + k)) (c.walkPage id chunk kv pi)) []

namespace AttentionLayer

/-- `fused_attn`: the hidden rows that leave the layer, and its planes. -/
def fusedAttn (L : AttentionLayer Hid Query Row Out) (flash : Bool) (c : PagedChunk) (hidden : List Hid)
    (kv : List Row) : List Hid × List Row :=
  let chunk := L.rowsFrom c.start hidden
  (hidden.mapIdx fun q h => L.finish h (L.attend (L.query h (c.start + q)) (c.attended flash chunk kv q)),
    c.packed id chunk kv)

end AttentionLayer

/-- The fused layers from number `l` on. -/
def chunkLayers (flash : Bool) (c : PagedChunk) :
    List (AttentionLayer Hid Query Row Out) → Nat → List Hid → (Nat → List Row) → List Hid × (Nat → List Row)
  | [], _, hidden, planes => (hidden, planes)
  | L :: rest, l, hidden, planes =>
    let r := L.fusedAttn flash c hidden (planes l)
    chunkLayers flash c rest (l + 1) r.1 fun l' => if l' = l then r.2 else planes l'

namespace AttentionGraph

/-- The chunk a window presents. -/
def pagedChunk (shape : PagedShape) (window : List Int) (last start : Nat) : PagedChunk where
  seq := window.length
  page := shape.page
  numPages := shape.numPages
  start := start
  valid := last + 1

/-- The module of the chunk functions. -/
def pagedExecutable [HostFloat F] (g : AttentionGraph F Hid Query Row Out) (shape : PagedShape) :
    ChunkExecutable F Row Unit where
  zeroRow := g.zeroRow
  run window last start _ planes :=
    let c := pagedChunk shape window last start
    let r := chunkLayers shape.flash c g.layers 0 (window.map g.embed) planes
    let logits := (r.1[last]?.map g.head).getD []
    { logits := logits, token := deviceArgmax logits, planes := r.2, recurrent := () }

/-- The hidden rows that enter layer `l` of a chunk function. -/
def chunkHidden (g : AttentionGraph F Hid Query Row Out) (flash : Bool) (c : PagedChunk) (window : List Int)
    (planes : Nat → List Row) (l : Nat) : List Hid :=
  (chunkLayers flash c (g.layers.take l) 0 (window.map g.embed) planes).1

end AttentionGraph

/-! ## One layer -/

section layer

variable {c : PagedChunk} {chunk kv past : List Row}

/-- The planes a chunk leaves begin with the rows before it and its valid ones. -/
theorem take_packed (hfits : c.Fits) (hkv : kv.length = c.numPages * c.page) (hchunk : chunk.length = c.seq)
    (hpast : kv.take c.start = past) {n : Nat} (hn : n ≤ c.valid) :
    (c.packed id chunk kv).take (c.start + n) = past ++ chunk.take n := by
  have hroom := hfits.room
  have hvalid := hfits.valid_le
  have hlen : past.length = c.start := by rw [← hpast, List.length_take]; omega
  rw [PagedChunk.packed_eq_stored hfits hkv]
  apply List.ext_getElem?
  intro r
  rw [List.getElem?_append, hlen, List.getElem?_take, PagedChunk.getElem?_stored]
  by_cases hr : r < c.start
  · have hmiss : ¬ (c.start ≤ r ∧ r < c.start + c.valid) := by omega
    rw [if_pos (by omega), if_pos hr, ← hpast, List.getElem?_take_of_lt hr]
    simp only [if_neg hmiss, Option.map_id']
  · rw [if_neg hr, List.getElem?_take]
    by_cases hr' : r < c.start + n
    · have hkvlt : r < kv.length := by omega
      have hchunklt : r - c.start < chunk.length := by omega
      have hold : kv[r]? = some kv[r] := List.getElem?_eq_getElem hkvlt
      have hrow : chunk[r - c.start]? = some chunk[r - c.start] := List.getElem?_eq_getElem hchunklt
      rw [if_pos hr', if_pos (by omega), hold, Option.map_some, if_pos (by omega), hrow]
      rfl
    · rw [if_neg hr', if_neg (by omega)]

/-- **A valid query attends to the rows of all positions up to its own, in order**, whichever way the
layer attends. -/
theorem attended_eq (hfits : c.Fits) (hkv : kv.length = c.numPages * c.page) (hchunk : chunk.length = c.seq)
    (hpast : kv.take c.start = past) (flash : Bool) {q : Nat} (hq : q < c.valid) :
    c.attended flash chunk kv q = (past ++ chunk).take (c.start + q + 1) := by
  have hroom := hfits.room
  have hlen : past.length = c.start := by rw [← hpast, List.length_take]; omega
  have hpacked : (c.packed id chunk kv).length = c.numPages * c.page := by
    rw [PagedChunk.packed_eq_stored hfits hkv, PagedChunk.length_stored, hkv]
  have hvis : ∀ k, c.visible q k = decide (k < c.start + q + 1) := by
    intro k
    rw [PagedChunk.visible, ← Bool.decide_and]
    exact decide_eq_decide.2 (by omega)
  have htake : (c.packed id chunk kv).take (c.start + q + 1) = (past ++ chunk).take (c.start + q + 1) := by
    rw [Nat.add_assoc, take_packed hfits hkv hchunk hpast hq, List.take_append, hlen,
      List.take_of_length_le (show past.length ≤ c.start + (q + 1) by omega), Nat.add_sub_cancel_left]
  rw [← htake]
  unfold PagedChunk.attended
  cases flash with
  | true => exact keep_lt _ fun k _ => hvis k
  | false =>
    have hpages : c.start + q + 1 ≤ c.histPages * c.page := by
      have hlt := PagedChunk.lt_histPages hfits (r := c.start + q) (by omega)
      have h1 := Nat.div_add_mod (c.start + q) c.page
      have h2 := Nat.mod_lt (c.start + q) hfits.page_pos
      have h3 := Nat.mul_le_mul_right c.page hlt
      rw [Nat.mul_comm] at h1
      rw [Nat.succ_mul] at h3
      omega
    have hpage : ∀ pi, keep (fun k => c.visible q (pi * c.page + k)) (c.walkPage id chunk kv pi) =
        (extractSlice (c.packed id chunk kv) (pi * c.page) c.page).take (c.start + q + 1 - pi * c.page) := by
      intro pi
      rw [PagedChunk.walkPage_eq hfits, ← PagedChunk.packed_eq_stored hfits hkv, PagedChunk.packedExtract]
      refine keep_lt _ fun k _ => ?_
      rw [hvis]
      exact decide_eq_decide.2 (by omega)
    simp only [hpage, Bool.false_eq_true, if_false]
    rw [← List.flatMap_eq_foldl, flatMap_pages_take, Nat.min_eq_left hpages]

/-- A fused layer, on planes that begin with the rows `past`: the valid rows are those of the layer over
`past`, and the planes begin with `past` and their K/V rows. -/
theorem fusedAttn_eq (L : AttentionLayer Hid Query Row Out) (hfits : c.Fits)
    (hkv : kv.length = c.numPages * c.page) {hidden more : List Hid} (hhidden : hidden.length = c.seq)
    (hpast : kv.take c.start = past) (hmore : hidden.take c.valid = more) (flash : Bool) :
    (L.fusedAttn flash c hidden kv).1.take c.valid = L.extend past more ∧
      (L.fusedAttn flash c hidden kv).2.take (c.start + c.valid) = past ++ L.rowsFrom c.start more := by
  have hroom := hfits.room
  have hlen : past.length = c.start := by rw [← hpast, List.length_take]; omega
  subst hmore
  refine ⟨?_, ?_⟩
  · apply List.ext_getElem?
    intro q
    simp only [AttentionLayer.fusedAttn, AttentionLayer.extend, List.getElem?_take, List.getElem?_mapIdx]
    split
    · next hq =>
      congr 1
      funext h
      have hchunk : (L.rowsFrom c.start hidden).length = c.seq := by
        rw [AttentionLayer.length_rowsFrom, hhidden]
      rw [attended_eq hfits hkv hchunk hpast flash hq, hlen, ← AttentionLayer.take_rowsFrom, List.take_append,
        List.take_append, List.take_take, hlen, Nat.min_eq_left (by omega)]
    · rfl
  · rw [AttentionLayer.fusedAttn]
    dsimp only
    rw [take_packed hfits hkv (by rw [AttentionLayer.length_rowsFrom, hhidden]) hpast (Nat.le_refl _),
      AttentionLayer.take_rowsFrom]

theorem length_fusedAttn (L : AttentionLayer Hid Query Row Out) (hfits : c.Fits)
    (hkv : kv.length = c.numPages * c.page) (hidden : List Hid) (flash : Bool) :
    (L.fusedAttn flash c hidden kv).1.length = hidden.length ∧
      (L.fusedAttn flash c hidden kv).2.length = c.numPages * c.page := by
  refine ⟨by simp [AttentionLayer.fusedAttn], ?_⟩
  rw [AttentionLayer.fusedAttn]
  dsimp only
  rw [PagedChunk.packed_eq_stored hfits hkv, PagedChunk.length_stored, hkv]

end layer

/-! ## All layers -/

section layers

variable {g : AttentionGraph F Hid Query Row Out} {c : PagedChunk} {tokens more : List Int}

open AttentionGraph

/-- The planes hold the rows of `tokens`, from layer `l` on; below, those of `tokens ++ more`. -/
structure ChunkRows (g : AttentionGraph F Hid Query Row Out) (c : PagedChunk) (tokens more : List Int) (l : Nat)
    (planes : Nat → List Row) : Prop where
  lengths : ∀ i, (planes i).length = c.numPages * c.page
  above : ∀ i, l ≤ i → i < g.layers.length → (planes i).take tokens.length = g.layerRows tokens i
  below : ∀ i < l, (planes i).take (tokens.length + more.length) = g.layerRows (tokens ++ more) i

/-- One more layer of a chunk function: the recomputation's next hidden rows, and its K/V rows. -/
theorem chunk_layer (hfits : c.Fits) (hstart : c.start = tokens.length) (hvalid : c.valid = more.length)
    (flash : Bool) {l : Nat} {L : AttentionLayer Hid Query Row Out} (hL : g.layers[l]? = some L)
    {hidden : List Hid} {planes : Nat → List Row} (hseq : hidden.length = c.seq)
    (hhidden : hidden.take c.valid = g.moreAt tokens more l) (hrows : ChunkRows g c tokens more l planes) :
    (L.fusedAttn flash c hidden (planes l)).1.length = c.seq ∧
      (L.fusedAttn flash c hidden (planes l)).1.take c.valid = g.moreAt tokens more (l + 1) ∧
      ChunkRows g c tokens more (l + 1)
        (fun l' => if l' = l then (L.fusedAttn flash c hidden (planes l)).2 else planes l') := by
  have hl : l < g.layers.length := (List.getElem?_eq_some_iff.1 hL).1
  have hpast := hrows.above l (Nat.le_refl l) hl
  obtain ⟨hnext, hplane⟩ := fusedAttn_eq L hfits (hrows.lengths l) hseq (by rw [hstart, hpast]) hhidden flash
  obtain ⟨hlen, hkv⟩ := length_fusedAttn L hfits (hrows.lengths l) hidden flash
  refine ⟨hlen.trans hseq, by rw [hnext, moreAt_succ hL], ⟨fun i => ?_, fun i hi hi' => ?_, fun i hi => ?_⟩⟩
  · split
    · exact hkv
    · exact hrows.lengths i
  · rw [if_neg (by omega)]
    exact hrows.above i (by omega) hi'
  · split
    · next heq =>
      subst heq
      rw [← hstart, ← hvalid, hplane, layerRows_append hL, hstart]
    · exact hrows.below i (by omega)

/-- The chunk function's layers `rest`, from number `l` on. -/
theorem chunkLayers_eq (hfits : c.Fits) (hstart : c.start = tokens.length) (hvalid : c.valid = more.length)
    (flash : Bool) (rest after : List (AttentionLayer Hid Query Row Out)) :
    ∀ (l : Nat) (hidden : List Hid) (planes : Nat → List Row), g.layers.drop l = rest ++ after →
      hidden.length = c.seq → hidden.take c.valid = g.moreAt tokens more l → ChunkRows g c tokens more l planes →
      (chunkLayers flash c rest l hidden planes).1.length = c.seq ∧
        (chunkLayers flash c rest l hidden planes).1.take c.valid = g.moreAt tokens more (l + rest.length) ∧
        ChunkRows g c tokens more (l + rest.length) (chunkLayers flash c rest l hidden planes).2 := by
  induction rest with
  | nil =>
    intro l hidden planes _ hseq hhidden hrows
    exact ⟨hseq, hhidden, hrows⟩
  | cons L rest ih =>
    intro l hidden planes hdrop hseq hhidden hrows
    have hL : g.layers[l]? = some L := by
      rw [← Nat.add_zero l, ← List.getElem?_drop, hdrop, List.cons_append, List.getElem?_cons_zero]
    obtain ⟨hseq', hhidden', hrows'⟩ := chunk_layer hfits hstart hvalid flash hL hseq hhidden hrows
    rw [List.length_cons, ← Nat.add_assoc, Nat.add_right_comm]
    exact ih (l + 1) _ _ (by rw [← List.drop_drop, hdrop, List.drop_one, List.cons_append, List.tail_cons])
      hseq' hhidden' hrows'

theorem ChunkRows.start {planes : Nat → List Row} (hlen : ∀ l, (planes l).length = c.numPages * c.page)
    (hrows : ∀ l < g.layers.length, (planes l).take tokens.length = g.layerRows tokens l) :
    ChunkRows g c tokens more 0 planes :=
  ⟨hlen, fun l _ hl => hrows l hl, fun _ hl => absurd hl (Nat.not_lt_zero _)⟩

variable {shape : PagedShape} {window : List Int} {last : Nat}

theorem pagedChunk_fits (hpage : 1 ≤ shape.page) (hseq : window.length ≤ u32Max) (hlast : last < window.length)
    (hroom : tokens.length + (last + 1) ≤ shape.numPages * shape.page) :
    (pagedChunk shape window last tokens.length).Fits :=
  ⟨hpage, Nat.succ_pos last, hlast, hseq, hroom⟩

/-- **The chunk functions implement the graph**: on planes that hold the rows of a prefix they give the
outputs and the rows of the longer sequence, as recomputed from nothing. -/
theorem pagedExecutable_implements [HostFloat F] (g : AttentionGraph F Hid Query Row Out) {chunkSize : Nat}
    (hpage : 1 ≤ shape.page) (hpages : 1 ≤ shape.numPages) (hchunk : chunkSize ≤ u32Max) :
    g.tokenProgram.Implements (shape.numPages * shape.page) chunkSize (g.pagedExecutable shape) where
  keeps := by
    intro window last start recurrent planes hlen
    have key : ∀ (rest : List (AttentionLayer Hid Query Row Out)) (l : Nat) (hidden : List Hid)
        (planes : Nat → List Row), (∀ i, (planes i).length = shape.numPages * shape.page) →
        ∀ i, ((chunkLayers shape.flash (pagedChunk shape window last start) rest l hidden planes).2 i).length =
          shape.numPages * shape.page := by
      intro rest
      induction rest with
      | nil => intro l hidden planes hlen; exact hlen
      | cons L rest ih =>
        intro l hidden planes hlen
        refine ih (l + 1) _ _ fun i => ?_
        split
        · exact PagedChunk.length_packed (c := pagedChunk shape window last start) hpages (hlen l)
        · exact hlen i
    exact key g.layers 0 _ planes hlen
  run := by
    intro tokens window last recurrent planes hwidth hlast hlen hroom hrows _
    have hseq : window.length ≤ u32Max := by
      have : 1 ≤ u32Max := by decide
      rcases hwidth with h | h <;> omega
    have hfits := pagedChunk_fits hpage hseq hlast hroom
    have hmore : (window.take (last + 1)).length = last + 1 := by rw [List.length_take]; omega
    have hne : tokens ++ window.take (last + 1) ≠ [] := by
      rw [ne_eq, ← List.length_eq_zero_iff, List.length_append]
      omega
    rw [produced_tokenProgram] at hrows
    obtain ⟨hlen', hhidden, hplanes⟩ := chunkLayers_eq (g := g) hfits rfl hmore.symm shape.flash g.layers []
      0 (window.map g.embed) planes (List.append_nil _).symm (by rw [List.length_map]; rfl)
      (by rw [moreAt_zero, List.map_take]; rfl) (ChunkRows.start hlen hrows)
    rw [Nat.zero_add] at hhidden hplanes
    have hrow : (chunkLayers shape.flash (pagedChunk shape window last tokens.length) g.layers 0
        (window.map g.embed) planes).1[last]? =
          (g.moreAt tokens (window.take (last + 1)) g.layers.length).getLast? := by
      rw [← hhidden, List.getLast?_eq_getElem?, List.length_take, hlen']
      change _ = (List.take (last + 1) _)[min (last + 1) window.length - 1]?
      rw [Nat.min_eq_left hlast, Nat.succ_sub_one, List.getElem?_take_of_lt (Nat.lt_succ_self last)]
    obtain ⟨h, hh⟩ : ∃ h, (g.moreAt tokens (window.take (last + 1)) g.layers.length).getLast? = some h := by
      rw [← hrow]
      exact ⟨_, List.getElem?_eq_getElem (hlen'.symm ▸ hlast)⟩
    obtain ⟨hlogits, htoken⟩ := outputs_tokenProgram (g := g) hne
    rw [logits_append tokens hh] at hlogits htoken
    dsimp only
    rw [hlogits, htoken, produced_tokenProgram]
    simp only [pagedExecutable, hrow, hh, Option.map_some, Option.getD_some, and_self, true_and, and_true]
    intro l hl
    rw [List.length_append]
    exact hplanes.below l hl

/-- In every chunk, at every layer, the query of a valid row attends to the K/V rows of all positions up
to its own, each once and in order. -/
theorem chunk_attends (hpage : 1 ≤ shape.page) (hseq : window.length ≤ u32Max) (hlast : last < window.length)
    (hroom : tokens.length + (last + 1) ≤ shape.numPages * shape.page) {planes : Nat → List Row}
    (hlen : ∀ l, (planes l).length = shape.numPages * shape.page)
    (hrows : ∀ l < g.layers.length, (planes l).take tokens.length = g.layerRows tokens l) {l : Nat}
    {L : AttentionLayer Hid Query Row Out} (hL : g.layers[l]? = some L) {q : Nat} (hq : q ≤ last) :
    let c := pagedChunk shape window last tokens.length
    c.attended shape.flash (L.rowsFrom c.start (g.chunkHidden shape.flash c window planes l)) (planes l) q =
      (g.layerRows (tokens ++ window.take (last + 1)) l).take (tokens.length + q + 1) := by
  intro c
  have hl : l < g.layers.length := (List.getElem?_eq_some_iff.1 hL).1
  have hfits := pagedChunk_fits hpage hseq hlast hroom
  have hmore : (window.take (last + 1)).length = last + 1 := by rw [List.length_take]; omega
  obtain ⟨hlen', hhidden, -⟩ := chunkLayers_eq (g := g) hfits rfl hmore.symm shape.flash (g.layers.take l)
    (g.layers.drop l) 0 (window.map g.embed) planes (List.take_append_drop l g.layers).symm
    (by rw [List.length_map]; rfl) (by rw [moreAt_zero, List.map_take]; rfl) (ChunkRows.start hlen hrows)
  rw [Nat.zero_add, List.length_take, Nat.min_eq_left (Nat.le_of_lt hl)] at hhidden
  have hchunk : (L.rowsFrom c.start (g.chunkHidden shape.flash c window planes l)).length = c.seq := by
    rw [AttentionLayer.length_rowsFrom]
    exact hlen'
  rw [attended_eq (c := c) hfits (hlen l) hchunk (hrows l hl) shape.flash (Nat.lt_succ_of_le hq), layerRows_append hL,
    ← hhidden, ← AttentionLayer.take_rowsFrom, List.take_append, List.take_append, List.take_take,
    length_layerRows hL]
  congr 2
  exact (Nat.min_eq_left (by change _ ≤ last + 1; change tokens.length + q + 1 - tokens.length ≤ _; omega)).symm

end layers

end Dyninfer
