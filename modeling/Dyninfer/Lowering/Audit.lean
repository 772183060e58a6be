/-
The two modules of an attention-only graph with a record of what their queries
attend to: for each layer, the list of K/V rows of one query after another, in
the order the modules handle them. Queries of padding rows, which nothing
reads, are left out.

The record changes nothing the modules compute. It is kept where a module may
keep state of its own, so whatever is proved of a run of a module that
implements a token program says at the end of the run what every query of it
attended to.
-/
import Dyninfer.Lowering.PagedProgram
import Dyninfer.Lowering.StaticProgram

namespace Dyninfer

open Rows

variable {F Hid Query Row Out : Type}

/-- The rows each query attended to, layer by layer. -/
abbrev Audit (Row : Type) := Nat → List (List Row)

/-- Query `q` attends to rows `0..q`, each once: what causal attention over `rows` is. -/
def causal (rows : List Row) : List (List Row) :=
  (List.range rows.length).map fun q => rows.take (q + 1)

theorem causal_append (past more : List Row) :
    causal (past ++ more) =
      causal past ++ (List.range more.length).map fun q => (past ++ more).take (past.length + q + 1) := by
  rw [causal, List.length_append, List.range_add, List.map_append, List.map_map]
  congr 1
  refine List.map_congr_left fun q hq => ?_
  rw [List.mem_range] at hq
  exact List.take_append_of_le_length (by omega)

namespace AttentionGraph

variable (g : AttentionGraph F Hid Query Row Out)

/-- Each layer's queries at positions `0, 1, ..` have attended causally to the rows of `tokens`. -/
def CausalAudit (tokens : List Int) (audit : Audit Row) : Prop :=
  ∀ l < g.layers.length, audit l = causal (g.layerRows tokens l)

variable {g}

theorem CausalAudit.append {tokens more : List Int} {audit audit' : Audit Row} (h : g.CausalAudit tokens audit)
    (hnew : ∀ (l : Nat) (L : AttentionLayer Hid Query Row Out), g.layers[l]? = some L →
      audit' l = audit l ++ (List.range more.length).map fun q =>
        (g.layerRows (tokens ++ more) l).take (tokens.length + q + 1)) :
    g.CausalAudit (tokens ++ more) audit' := by
  intro l hl
  have hL : g.layers[l]? = some g.layers[l] := List.getElem?_eq_getElem hl
  rw [hnew l _ hL, h l hl, layerRows_append hL, causal_append, length_layerRows hL,
    AttentionLayer.length_rowsFrom, length_moreAt]

/-! ## The paged module -/

variable [HostFloat F]

/-- `tokenProgram` with the record of its queries. -/
def auditedProgram (g : AttentionGraph F Hid Query Row Out) : TokenProgram F Row (Audit Row) where
  layers := g.layers.length
  init := fun _ => []
  step st token :=
    let r := g.tokenProgram.step ((), st.2) token
    { rows := r.rows, logits := r.logits, token := r.token
      recurrent := fun l => if l < g.layers.length then st.1 l ++ [st.2 l ++ [r.rows l]] else st.1 l }

/-- What the valid queries of layer `l` of a chunk attend to. -/
def chunkAudit (g : AttentionGraph F Hid Query Row Out) (flash : Bool) (c : PagedChunk) (window : List Int)
    (planes : Nat → List Row) : Audit Row := fun l =>
  match g.layers[l]? with
  | some L =>
    (List.range c.valid).map
      (c.attended flash (L.rowsFrom c.start (g.chunkHidden flash c window planes l)) (planes l))
  | none => []

/-- `pagedExecutable` with the record of its valid queries; a chunk at position `0` begins a new one. -/
def auditedExecutable (g : AttentionGraph F Hid Query Row Out) (shape : PagedShape) :
    ChunkExecutable F Row (Audit Row) where
  zeroRow := g.zeroRow
  run window last start audit planes :=
    let r := (g.pagedExecutable shape).run window last start () planes
    let new := g.chunkAudit shape.flash (pagedChunk shape window last start) window planes
    { logits := r.logits, token := r.token, planes := r.planes
      recurrent := fun l => (if start = 0 then [] else audit l) ++ new l }

/-- A token's query attends to the rows before it and its own. -/
theorem feed_audited (st : RowPrefix Row (Audit Row)) (token : Int) {l : Nat} (hl : l < g.layers.length) :
    (g.auditedProgram.feed st token).1 l = st.1 l ++ [(g.auditedProgram.feed st token).2 l] := by
  simp [TokenProgram.feed, auditedProgram, hl]

theorem feed_audited_beyond (st : RowPrefix Row (Audit Row)) (token : Int) {l : Nat}
    (hl : ¬ l < g.layers.length) : (g.auditedProgram.feed st token).1 l = st.1 l := by
  simp [TokenProgram.feed, auditedProgram, hl]

theorem fill_audited (tokens : List Int) (st : RowPrefix Row (Audit Row)) :
    (g.auditedProgram.fill st tokens).2 = (g.tokenProgram.fill ((), st.2) tokens).2 := by
  induction tokens generalizing st with
  | nil => rfl
  | cons token tokens ih => exact ih (g.auditedProgram.feed st token)

theorem outputs_audited (tokens : List Int) (st : RowPrefix Row (Audit Row)) :
    g.auditedProgram.outputs st tokens = g.tokenProgram.outputs ((), st.2) tokens := by
  induction tokens generalizing st with
  | nil => rfl
  | cons token tokens ih =>
    cases tokens with
    | nil => rfl
    | cons next rest => exact ih (g.auditedProgram.feed st token)

theorem logits_audited {tokens : List Int} (hne : tokens ≠ []) :
    g.auditedProgram.logits tokens = g.logits tokens := by
  rw [← (outputs_tokenProgram hne).1]
  exact congrArg Prod.fst (outputs_audited tokens _)

/-- The audited program produces the rows of the recomputation. -/
theorem produced_audited (tokens : List Int) : (g.auditedProgram.produced tokens).2 = g.layerRows tokens :=
  (fill_audited tokens _).trans (produced_tokenProgram tokens)

/-- Token by token, every query attends causally. -/
theorem audit_produced (tokens : List Int) : g.CausalAudit tokens (g.auditedProgram.produced tokens).1 := by
  induction tokens using List.reverseRecOn with
  | nil =>
    intro l hl
    have hrows := length_layerRows (List.getElem?_eq_getElem hl) []
    rw [List.length_nil, List.length_eq_zero_iff] at hrows
    rw [hrows]
    rfl
  | append_singleton tokens token ih =>
    refine ih.append fun l L hL => ?_
    have hl : l < g.layers.length := (List.getElem?_eq_some_iff.1 hL).1
    have hrows := congrFun (produced_audited (g := g) (tokens ++ [token])) l
    have hlen := length_layerRows hL (tokens ++ [token])
    rw [List.length_append, List.length_singleton] at hlen
    rw [TokenProgram.produced_append, TokenProgram.fill, List.foldl_cons, List.foldl_nil] at hrows ⊢
    rw [feed_audited _ _ hl, hrows, List.length_singleton, List.range_one, List.map_singleton, List.take_of_length_le (Nat.le_of_eq hlen)]

/-- There are no queries beyond the layers. -/
theorem audit_beyond (tokens : List Int) {l : Nat} (hl : ¬ l < g.layers.length) :
    (g.auditedProgram.produced tokens).1 l = [] := by
  induction tokens using List.reverseRecOn with
  | nil => rfl
  | append_singleton tokens token ih =>
    rw [TokenProgram.produced_append, TokenProgram.fill, List.foldl_cons, List.foldl_nil,
      feed_audited_beyond _ _ hl, ih]

variable {shape : PagedShape}

/-- **The audited module implements the audited program**: at the end of any run, the record of every
layer is causal. -/
theorem auditedExecutable_implements (g : AttentionGraph F Hid Query Row Out) {chunkSize : Nat}
    (hpage : 1 ≤ shape.page) (hpages : 1 ≤ shape.numPages) (hchunk : chunkSize ≤ u32Max) :
    g.auditedProgram.Implements (shape.numPages * shape.page) chunkSize (g.auditedExecutable shape) where
  keeps window last start _ planes h :=
    (pagedExecutable_implements g hpage hpages hchunk).keeps window last start () planes h
  run := by
    intro tokens window last audit planes hwidth hlast hlen hroom hrows haudit
    have hrows' : ∀ l < g.layers.length, (planes l).take tokens.length = g.layerRows tokens l := by
      intro l hl
      rw [hrows l hl, produced_audited]
    obtain ⟨⟨hlogits, htoken⟩, hplanes, -⟩ := (pagedExecutable_implements g hpage hpages hchunk).run hwidth hlast hlen hroom (by rwa [produced_tokenProgram]) fun _ => rfl
    have hout := outputs_audited (g := g) (tokens ++ window.take (last + 1)) g.auditedProgram.start
    refine ⟨⟨?_, ?_⟩, fun l hl => ?_, funext fun l => ?_⟩
    · exact hlogits.trans (congrArg Prod.fst hout).symm
    · exact htoken.trans (congrArg Prod.snd hout).symm
    · rw [produced_audited, ← produced_tokenProgram]
      exact hplanes l hl
    · have hpast : (if tokens.length = 0 then [] else audit l) = (g.auditedProgram.produced tokens).1 l := by
        split
        · next h0 =>
          obtain rfl : tokens = [] := List.length_eq_zero_iff.1 h0
          rfl
        · next h0 => exact congrFun (haudit fun hnil => h0 (by rw [hnil]; rfl)) l
      change (if tokens.length = 0 then [] else audit l) ++ g.chunkAudit shape.flash _ window planes l = _
      rw [hpast]
      by_cases hl : l < g.layers.length
      · have hL : g.layers[l]? = some g.layers[l] := List.getElem?_eq_getElem hl
        have hseq : window.length ≤ u32Max := by
          have : 1 ≤ u32Max := by decide
          rcases hwidth with h | h <;> omega
        have hmore : (window.take (last + 1)).length = last + 1 := by rw [List.length_take]; omega
        rw [audit_produced _ l hl, audit_produced _ l hl, layerRows_append hL, causal_append,
          ← layerRows_append hL, AttentionLayer.length_rowsFrom, length_moreAt, length_layerRows hL, hmore,
          chunkAudit, hL]
        congr 1
        refine List.map_congr_left fun q hq => ?_
        exact chunk_attends hpage hseq hlast hroom hlen hrows' hL (Nat.lt_succ_iff.1 (List.mem_range.1 hq))
      · rw [audit_beyond _ hl, audit_beyond _ hl, chunkAudit, List.getElem?_eq_none (Nat.not_lt.1 hl)]
        rfl

/-! ## The static module -/

variable [DecidableEq F]

/-- What the first `n` queries of layer `l` of a `prefill` attend to. -/
def prefillAudit (g : AttentionGraph F Hid Query Row Out) (maxKv : Nat) (window : List Int) (n : Nat)
    (globals : StaticGlobals Row) : Audit Row := fun l =>
  match g.layers[l]? with
  | some L => (List.range n).map (windowAttended (L.rowsFrom 0 (g.prefillHidden maxKv window globals l)))
  | none => []

/-- What the query of layer `l` of a `decode` attends to. -/
def decodeAudit (g : AttentionGraph F Hid Query Row Out) (token position : Int) (bias : List F)
    (globals : StaticGlobals Row) : Audit Row := fun l =>
  match g.layers[l]? with
  | some L => [g.decodeAttended token position.toNat bias globals l L]
  | none => []

/-- `staticContext` with the record of its queries; a prefill begins a new one. -/
def auditedContext (g : AttentionGraph F Hid Query Row Out) (maxKv : Nat) :
    Context F (StaticGlobals Row × Audit Row) where
  resetPagedKv := throw (nativeError "paged KV is not configured")
  ensureKvPages _ := throw (nativeError "paged KV is not configured")
  invokePagedChunkEx _ _ _ _ := throw (nativeError "invalid paged chunk invocation")
  invokePrefill window last := fun d =>
    let r := g.staticPrefill maxKv window last d.1
    .ok r.1 (r.2, g.prefillAudit maxKv window (last.toNat + 1) d.1)
  invokeDecode token position bias := fun d =>
    let r := g.staticDecode token position bias d.1
    .ok r.1 (r.2, fun l => d.2 l ++ g.decodeAudit token position bias d.1 l)

variable {maxKv : Nat} {tokens : List Int}

omit [HostFloat F] [DecidableEq F] in
/-- The record of a prefill is causal. -/
theorem prefillAudit_causal {more : List Int} (hwindow : (tokens ++ more).length ≤ maxKv)
    (globals : StaticGlobals Row) :
    g.CausalAudit tokens (g.prefillAudit maxKv (tokens ++ more) tokens.length globals) := by
  intro l hl
  have hL : g.layers[l]? = some g.layers[l] := List.getElem?_eq_getElem hl
  rw [prefillAudit, hL, causal, length_layerRows hL]
  refine List.map_congr_left fun q hq => ?_
  exact prefill_attends hwindow globals hL (List.mem_range.1 hq)

/-- A decode adds its own query's rows to a causal record. -/
theorem decodeAudit_causal {token : Int} {bias : List F} (hbias : BiasAt maxKv tokens.length bias)
    (hroom : tokens.length < maxKv) {globals : StaticGlobals Row} (h : GlobalRows g maxKv tokens globals)
    {audit : Audit Row} (haudit : g.CausalAudit tokens audit) :
    g.CausalAudit (tokens ++ [token])
      (fun l => audit l ++ g.decodeAudit token tokens.length bias globals l) := by
  refine haudit.append fun l L hL => ?_
  have hlen := length_layerRows hL (tokens ++ [token])
  rw [List.length_append, List.length_singleton] at hlen
  simp only [decodeAudit, hL, Int.toNat_natCast, List.length_singleton, List.range_one, List.map_singleton]
  rw [decode_attends hbias hroom h hL, List.take_of_length_le (Nat.le_of_eq hlen)]

end AttentionGraph

end Dyninfer
