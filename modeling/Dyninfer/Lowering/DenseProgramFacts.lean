/-
The emitted functions of a dense decoder in exact arithmetic: they are those of
the graph in the reals, so what a run of them leaves are the rows, and what it
reports are the logits, of recomputing the tokens so far. It does not matter how
a prompt was cut into chunks, what padded them or what the planes held, and the
static functions report the same.
-/
import Dyninfer.Lowering.DenseProgram
import Dyninfer.Lowering.PagedLayerFacts
import Dyninfer.Lowering.StaticLayerFacts

namespace Dyninfer

open DecoderMath Kernels Rows

variable {s v h nkv g d i n : Nat}

noncomputable def DecoderWeights.exact (w : DecoderWeights ℝ v h nkv g d i) : DecoderWeights EReal v h nkv g d i where
  tokenEmbd := exactRows w.tokenEmbd
  layers := w.layers.map LayerWeights.exact
  outputNorm := exactRow w.outputNorm
  output := exactRows w.output

/-- The logits of a hidden row. -/
noncomputable def DecoderMath.head (c : DecoderSettings ℝ) (w : DecoderWeights ℝ v h nkv g d i) (x : Fin h → ℝ) : Fin v → ℝ :=
  Matrix.mulVec w.output (rms c.rmsNormEps x w.outputNorm)

/-- The decoder in the reals, as a graph. A token outside the vocabulary has no row. -/
noncomputable def decoderGraph (c : DecoderSettings ℝ) (w : DecoderWeights ℝ v h nkv g d i) :
    AttentionGraph EReal (Fin h → ℝ) (Fin nkv → Fin g → Fin d → ℝ) (KvRow ℝ nkv d) (Fin nkv → Fin g → Fin d → ℝ) where
  embed t := if ht : t.toNat < v then w.tokenEmbd ⟨t.toNat, ht⟩ else 0
  layers := w.layers.map (layer c)
  head x := List.ofFn (exactRow (head c w x))
  zeroRow := DenseLayer.zeroRow

namespace DenseProgram

variable (c : DecoderSettings ℝ) (w : DecoderWeights ℝ v h nkv g d i)

/-- Tokens as a graph takes them. -/
def ints (tokens : List (Fin v)) : List Int := tokens.map fun t : Fin v => ((t : Nat) : Int)

/-- The real tokens of a call. -/
def ChunkCall.real (call : ChunkCall v) : List (Fin v) := (List.ofFn call.tokens).take (call.last + 1)

theorem embed_graph (t : Fin v) : (decoderGraph c w).embed t = w.tokenEmbd t :=
  (dif_pos (show ((t : Nat) : Int).toNat < v from t.isLt)).trans rfl

theorem map_embed (tokens : Fin s → Fin v) :
    (ints (List.ofFn tokens)).map (decoderGraph c w).embed = List.ofFn fun p => w.tokenEmbd (tokens p) := by
  rw [ints, List.map_map, List.map_ofFn]
  exact congrArg List.ofFn (funext fun p => embed_graph c w (tokens p))

/-- The end of a window: its last real row alone counts. -/
theorem lastLogits_exact (tile : Fin s → Fin h → EReal) (hidden : Fin s → Fin h → ℝ) (last : Fin s) :
    lastLogits c.exact w.exact tile (exactRows hidden) last = exactRow (head c w (hidden last)) := by
  have hnorm := congrFun (rmsNorm_exact c.rmsNormEps (fun (_ : Fin 1) => hidden last) w.outputNorm) 0
  have hproj := congrFun (linear_exact (fun (_ : Fin 1) => rms c.rmsNormEps (hidden last) w.outputNorm) w.output) 0
  refine Eq.trans ?_ hproj
  unfold lastLogits outputProj
  refine congrArg (fun x : Fin h → EReal => linear (fun (_ : Fin 1) => x) (exactRows w.output) 0) ?_
  exact Eq.trans rfl hnorm

/-- Rows that are those of numbers. -/
theorem exists_rows {α β : Type} (exact : α → β) {emitted : Fin s → β} {rows : List α}
    (heq : List.ofFn emitted = rows.map exact) : ∃ f, emitted = (fun p => exact (f p)) ∧ rows = List.ofFn f := by
  have hlen : rows.length = s := by
    have := congrArg List.length heq
    rw [List.length_ofFn, List.length_map] at this
    exact this.symm
  subst hlen
  refine ⟨rows.get, List.ofFn_injective ?_, (List.ofFn_get rows).symm⟩
  rw [heq]
  conv_lhs => rw [← List.ofFn_get rows, List.map_ofFn]
  rfl

/-! ## The chunk functions -/

/-- The fused layers `rest`, from number `l` on. -/
theorem fusedLayers_refines {chunk : PagedChunk} (hfits : chunk.Fits) (rest : List (LayerWeights ℝ h nkv g d i)) :
    ∀ (l : Nat) (hidden : Fin chunk.seq → Fin h → ℝ) (rows : Nat → List (KvRow ℝ nkv d)),
      (∀ l, (rows l).length = chunk.numPages * chunk.page) →
      ∃ (hidden' : Fin chunk.seq → Fin h → ℝ) (rows' : Nat → List (KvRow ℝ nkv d)),
        chunkLayers false chunk (rest.map (layer c)) l (List.ofFn hidden) rows = (List.ofFn hidden', rows') ∧
          fusedLayers c.exact chunk (rest.map LayerWeights.exact) l (exactRows hidden) (fun l => (rows l).map KvRow.exact) =
            (exactRows hidden', fun l => (rows' l).map KvRow.exact) := by
  induction rest with
  | nil =>
    intro l hidden rows _
    exact ⟨hidden, rows, rfl, rfl⟩
  | cons L rest ih =>
    intro l hidden rows hlen
    obtain ⟨hhidden, hplane⟩ := DenseLayer.fusedAttn_refines c L hfits (hlen l) hidden
    obtain ⟨next, hemitted, hrows⟩ := exists_rows exactRow hhidden
    have hlen' (l' : Nat) : (if l' = l then ((layer c L).fusedAttn false chunk (List.ofFn hidden) (rows l)).2
        else rows l').length = chunk.numPages * chunk.page := by
      split
      · exact PagedChunk.length_packed hfits.numPages_pos (hlen l)
      · exact hlen l'
    have hplanes : (fun l' => if l' = l then
          (DenseLayer.fusedAttn c.exact L.exact chunk (exactRows hidden) ((rows l).map KvRow.exact)).2
        else (rows l').map KvRow.exact) =
        fun l' => (if l' = l then ((layer c L).fusedAttn false chunk (List.ofFn hidden) (rows l)).2
          else rows l').map KvRow.exact := by
      funext l'
      split
      · exact hplane
      · rfl
    obtain ⟨hidden', rows', hspec, hfused⟩ := ih (l + 1) next _ hlen'
    have hnext : (DenseLayer.fusedAttn c.exact L.exact chunk (exactRows hidden) ((rows l).map KvRow.exact)).1 =
        exactRows next := hemitted
    rw [← hrows] at hspec
    rw [← hplanes, ← hnext] at hfused
    exact ⟨hidden', rows', hspec, hfused⟩

/-- A chunk function is the fused layers of the graph, and its head on the last real row. -/
theorem chunkFn_refines {shape : PlaneShape} {call : ChunkCall v} {start : Nat} (hfits : (call.chunk shape start).Fits)
    (tile : Fin call.seq → Fin h → EReal) (rows : Nat → List (KvRow ℝ nkv d))
    (hlen : ∀ l, (rows l).length = shape.numPages * shape.page) :
    ∃ (hidden : Fin call.seq → Fin h → ℝ) (rows' : Nat → List (KvRow ℝ nkv d)),
      chunkLayers false (call.chunk shape start) (w.layers.map (layer c)) 0
          (List.ofFn fun p => w.tokenEmbd (call.tokens p)) rows = (List.ofFn hidden, rows') ∧
        chunkFn c.exact w.exact shape call start tile (fun l => (rows l).map KvRow.exact) =
          (exactRow (head c w (hidden call.last)), fun l => (rows' l).map KvRow.exact) := by
  obtain ⟨hidden, rows', hspec, hfused⟩ :=
    fusedLayers_refines c hfits w.layers 0 (fun p => w.tokenEmbd (call.tokens p)) rows hlen
  have hplanes := congrArg Prod.snd hfused
  refine ⟨hidden, rows', hspec, Prod.ext (Eq.trans ?_ (lastLogits_exact c w tile hidden call.last)) hplanes⟩
  exact congrArg (fun r => lastLogits c.exact w.exact tile r.1 call.last) hfused

/-- Planes that hold the rows of tokens, as numbers. -/
def PlanesHold (shape : PlaneShape) (tokens : List (Fin v)) (planes : Nat → List (KvRow EReal nkv d)) : Prop :=
  ∃ rows : Nat → List (KvRow ℝ nkv d), planes = (fun l => (rows l).map KvRow.exact) ∧
    (∀ l, (rows l).length = shape.numPages * shape.page) ∧
    ∀ l < w.layers.length, (rows l).take tokens.length = (decoderGraph c w).layerRows (ints tokens) l

theorem ints_append (tokens more : List (Fin v)) : ints (tokens ++ more) = ints tokens ++ ints more := List.map_append

theorem length_ints (tokens : List (Fin v)) : (ints tokens).length = tokens.length := List.length_map ..

theorem take_ints (call : ChunkCall v) : (ints (List.ofFn call.tokens)).take (call.last + 1) = ints call.real :=
  List.map_take.symm

/-- A call of a chunk function takes the planes to the rows of the longer sequence, and reports its logits. -/
theorem chunkFn_exact {shape : PlaneShape} {tokens : List (Fin v)} {planes : Nat → List (KvRow EReal nkv d)}
    (hhold : PlanesHold c w shape tokens planes) {call : ChunkCall v} (hpage : 1 ≤ shape.page) (hseq : call.seq ≤ u32Max)
    (hroom : tokens.length + (call.last + 1) ≤ shape.numPages * shape.page) (tile : Fin call.seq → Fin h → EReal) :
    List.ofFn (chunkFn c.exact w.exact shape call tokens.length tile planes).1 =
        (decoderGraph c w).logits (ints (tokens ++ call.real)) ∧
      PlanesHold c w shape (tokens ++ call.real) (chunkFn c.exact w.exact shape call tokens.length tile planes).2 := by
  obtain ⟨rows, rfl, hlen, hrows⟩ := hhold
  have hfits : (call.chunk shape tokens.length).Fits := ⟨hpage, Nat.succ_pos _, call.last.isLt, hseq, hroom⟩
  have hlayers : (decoderGraph c w).layers.length = w.layers.length := List.length_map ..
  have hwindow : (ints (List.ofFn call.tokens)).length = call.seq := by rw [length_ints, List.length_ofFn]
  -- The same chunk, by the graph.
  have himplements := @pagedExecutable_implements _ _ _ _ _ ⟨shape.page, shape.numPages, false⟩ _ (decoderGraph c w) _
    hpage hfits.numPages_pos hseq
  have hrun := @himplements.run (ints tokens) (ints (List.ofFn call.tokens)) call.last () rows (.inl hwindow)
    (by rw [hwindow]; exact call.last.isLt) hlen (by rw [length_ints]; exact hroom)
    (by rw [AttentionGraph.produced_tokenProgram, length_ints]; exact fun l hl => hrows l (hl.trans_eq hlayers)) fun _ => rfl
  have hkeeps := himplements.keeps (ints (List.ofFn call.tokens)) call.last tokens.length () rows hlen
  have hne : ints tokens ++ ints call.real ≠ [] := by
    rw [← ints_append, Ne, ← List.length_eq_zero_iff, length_ints, ChunkCall.real, List.length_append, List.length_take,
      List.length_ofFn]
    have := call.last.isLt
    omega
  rw [take_ints, length_ints] at hrun
  obtain ⟨⟨hlogits, -⟩, hplanes, -⟩ := hrun
  rw [(AttentionGraph.outputs_tokenProgram hne).1, ← ints_append] at hlogits
  have hchunk : AttentionGraph.pagedChunk ⟨shape.page, shape.numPages, false⟩ (ints (List.ofFn call.tokens)) call.last
      tokens.length = call.chunk shape tokens.length := by
    unfold AttentionGraph.pagedChunk ChunkCall.chunk
    rw [hwindow]
  have hlayer : (decoderGraph c w).layers = w.layers.map (layer c) := rfl
  obtain ⟨hidden, planes, hlast, hemitted⟩ := chunkFn_refines c w hfits tile rows hlen
  have hget : (List.ofFn hidden)[(call.last : Nat)]? = some (hidden call.last) := by
    rw [List.getElem?_ofFn, dif_pos call.last.isLt]
  simp only [AttentionGraph.pagedExecutable, hchunk, map_embed, hlayer, hlast, hget, Option.map_some, Option.getD_some]
    at hlogits hplanes hkeeps
  rw [hemitted]
  refine ⟨hlogits, planes, rfl, hkeeps, fun l hl => ?_⟩
  have hrow := hplanes l (hl.trans_eq hlayers.symm)
  rw [AttentionGraph.produced_tokenProgram, ← ints_append, length_ints] at hrow
  exact hrow

/-! ## `prefill` and `decode` -/

/-- Storing a layer's rows, as numbers. -/
theorem store_rows {l : Nat} {emitted : Fin n → KvRow EReal nkv d} {spec : List (KvRow ℝ nkv d)}
    (heq : List.ofFn emitted = spec.map KvRow.exact) (rows : Nat → Fin n → KvRow ℝ nkv d) :
    ∃ rows' : Nat → Fin n → KvRow ℝ nkv d,
      (fun l' => if l' = l then spec else List.ofFn (rows l')) = (fun l' => List.ofFn (rows' l')) ∧
        (fun l' => if l' = l then emitted else fun j => (rows l' j).exact) = fun l' j => (rows' l' j).exact := by
  obtain ⟨stored, hemitted, hspec⟩ := exists_rows KvRow.exact heq
  refine ⟨fun l' => if l' = l then stored else rows l', funext fun l' => ?_, funext fun l' => ?_⟩
  · by_cases hl : l' = l
    · simp only [if_pos hl, hspec]
    · simp only [if_neg hl]
  · by_cases hl : l' = l
    · simp only [if_pos hl, hemitted]
    · simp only [if_neg hl]

/-- The layers `rest` of `prefill`, from number `l` on. -/
theorem prefillLayers_refines (hwindow : s ≤ n) (rest : List (LayerWeights ℝ h nkv g d i)) :
    ∀ (l : Nat) (hidden : Fin s → Fin h → ℝ) (rows : Nat → Fin n → KvRow ℝ nkv d),
      ∃ (hidden' : Fin s → Fin h → ℝ) (rows' : Nat → Fin n → KvRow ℝ nkv d),
        AttentionGraph.prefillLayers DenseLayer.zeroRow n (rest.map (layer c)) l (List.ofFn hidden)
            (fun l => List.ofFn (rows l)) = (List.ofFn hidden', fun l => List.ofFn (rows' l)) ∧
          prefillLayers c.exact (rest.map LayerWeights.exact) l (exactRows hidden) (fun l j => (rows l j).exact) =
            (exactRows hidden', fun l j => (rows' l j).exact) := by
  induction rest with
  | nil =>
    intro l hidden rows
    exact ⟨hidden, rows, rfl, rfl⟩
  | cons L rest ih =>
    intro l hidden rows
    obtain ⟨hhidden, hglobals⟩ := DenseLayer.prefillLayer_refines c L hwindow hidden
    obtain ⟨next, hemitted, hrows⟩ := exists_rows exactRow hhidden
    obtain ⟨stored, hspec, hstored⟩ := @store_rows _ _ _ l _ _ hglobals rows
    obtain ⟨hidden', rows', hspec', hprefill⟩ := ih (l + 1) next stored
    have hnext : (DenseLayer.prefillLayer c.exact L.exact n (exactRows hidden)).1 = exactRows next := hemitted
    rw [← hrows, ← hspec] at hspec'
    rw [← hnext, ← hstored] at hprefill
    exact ⟨hidden', rows', hspec', hprefill⟩

/-- The layers `rest` of `decode`, from number `l` on. -/
theorem decodeLayers_refines {pos : Fin n} {bias : Fin n → EReal} (hbias : ∀ j, bias j = 0 ∨ bias j = ⊥) (hpos : bias pos = 0)
    (rest : List (LayerWeights ℝ h nkv g d i)) :
    ∀ (l : Nat) (x : Fin h → ℝ) (rows : Nat → Fin n → KvRow ℝ nkv d),
      ∃ (x' : Fin h → ℝ) (rows' : Nat → Fin n → KvRow ℝ nkv d),
        AttentionGraph.decodeLayers pos (List.ofFn bias) (rest.map (layer c)) l x (fun l => List.ofFn (rows l)) =
            (x', fun l => List.ofFn (rows' l)) ∧
          decodeLayers c.exact pos bias (rest.map LayerWeights.exact) l (exactRows fun _ => x) (fun l j => (rows l j).exact) =
            (exactRows fun _ => x', fun l j => (rows' l j).exact) := by
  induction rest with
  | nil =>
    intro l x rows
    exact ⟨x, rows, rfl, rfl⟩
  | cons L rest ih =>
    intro l x rows
    obtain ⟨hhidden, hglobals⟩ := DenseLayer.decodeLayer_refines c L hbias hpos x (rows l)
    obtain ⟨stored, hspec, hstored⟩ := @store_rows _ _ _ l _ _ hglobals rows
    obtain ⟨x', rows', hspec', hdecode⟩ := ih (l + 1) ((layer c L).decodeLayer pos (List.ofFn bias) x (List.ofFn (rows l))).1 stored
    have hnext : (DenseLayer.decodeLayer c.exact L.exact pos bias (exactRows fun _ => x) fun j => (rows l j).exact).1 =
        exactRows fun _ => ((layer c L).decodeLayer pos (List.ofFn bias) x (List.ofFn (rows l))).1 := by
      funext p
      rw [Subsingleton.elim p 0]
      exact hhidden
    rw [← hspec] at hspec'
    rw [← hnext, ← hstored] at hdecode
    exact ⟨x', rows', hspec', hdecode⟩

/-- Globals that hold the rows of tokens, as numbers. -/
def GlobalsHold (tokens : List (Fin v)) (globals : Nat → Fin n → KvRow EReal nkv d) : Prop :=
  ∃ rows : Nat → Fin n → KvRow ℝ nkv d, globals = (fun l j => (rows l j).exact) ∧
    AttentionGraph.GlobalRows (decoderGraph c w) n (ints tokens) fun l => List.ofFn (rows l)

/-- `prefill` reports the logits of its real tokens, and stores their rows. -/
theorem prefillFn_exact {call : ChunkCall v} (hwindow : call.seq ≤ n) (tile : Fin call.seq → Fin h → EReal)
    (rows : Nat → Fin n → KvRow ℝ nkv d) :
    List.ofFn (prefillFn c.exact w.exact call tile fun l j => (rows l j).exact).1 =
        (decoderGraph c w).logits (ints call.real) ∧
      GlobalsHold c w call.real (prefillFn c.exact w.exact call tile fun l j => (rows l j).exact).2 := by
  have hlast := call.last.isLt
  have hlayer : (decoderGraph c w).layers = w.layers.map (layer c) := rfl
  have hzero : (decoderGraph c w).zeroRow = DenseLayer.zeroRow := rfl
  have hreal : (ints call.real).length = call.last + 1 := by
    rw [length_ints, ChunkCall.real, List.length_take, List.length_ofFn]
    omega
  have hsplit : ints call.real ++ (ints (List.ofFn call.tokens)).drop (call.last + 1) = ints (List.ofFn call.tokens) := by
    rw [← take_ints, List.take_append_drop]
  have hne : ints call.real ≠ [] := by
    rw [Ne, ← List.length_eq_zero_iff, hreal]
    exact Nat.succ_ne_zero _
  -- The same window, by the graph.
  obtain ⟨hlogits, hrows⟩ := @AttentionGraph.staticPrefill_eq _ _ _ _ _ (decoderGraph c w) n _
    ((ints (List.ofFn call.tokens)).drop (call.last + 1)) hne
    (by rw [hsplit, length_ints, List.length_ofFn]; exact hwindow) fun l => List.ofFn (rows l)
  -- The emitted function, by its layers.
  obtain ⟨hidden, rows', hspec, hemitted⟩ :=
    prefillLayers_refines c hwindow w.layers 0 (fun p => w.tokenEmbd (call.tokens p)) rows
  have hget : (List.ofFn hidden)[(((ints call.real).length : Int) - 1).toNat]? = some (hidden call.last) := by
    have hindex : (((ints call.real).length : Int) - 1).toNat = call.last := by omega
    rw [hindex, List.getElem?_ofFn, dif_pos hlast]
  simp only [hsplit, AttentionGraph.staticPrefill, map_embed, hlayer, hzero, hspec, hget, Option.map_some, Option.getD_some]
    at hlogits hrows
  have hout : prefillFn c.exact w.exact call tile (fun l j => (rows l j).exact) =
      (exactRow (head c w (hidden call.last)), fun l j => (rows' l j).exact) := by
    have hglobals := congrArg Prod.snd hemitted
    refine Prod.ext (Eq.trans ?_ (lastLogits_exact c w tile hidden call.last)) hglobals
    exact congrArg (fun r => lastLogits c.exact w.exact tile r.1 call.last) hemitted
  rw [hout]
  exact ⟨hlogits, rows', rfl, hrows⟩

theorem hostBias_cases (pos : Nat) (j : Fin n) : hostBias EReal pos n j = 0 ∨ hostBias EReal pos n j = ⊥ := by
  unfold hostBias
  split
  · exact .inr rfl
  · exact .inl rfl

theorem biasAt_hostBias (pos : Nat) : AttentionGraph.BiasAt n pos (List.ofFn (hostBias EReal pos n)) := by
  intro j hj
  rw [List.getElem?_ofFn, dif_pos hj]
  unfold hostBias
  by_cases hpos : pos < j
  · rw [if_pos hpos, decide_eq_false (by omega)]
    exact beq_false_of_ne fun h => HostFloat.masked_ne_zero (Option.some.inj h)
  · rw [if_neg hpos, decide_eq_true (by omega)]
    exact beq_self_eq_true _

/-- `decode` behind tokens reports the logits of the longer sequence, and stores its rows. -/
theorem decodeFn_exact {tokens : List (Fin v)} {globals : Nat → Fin n → KvRow EReal nkv d}
    (hhold : GlobalsHold c w tokens globals) (hroom : tokens.length < n) (token : Fin v) :
    List.ofFn (decodeFn c.exact w.exact token tokens.length (hostBias EReal tokens.length n) globals).1 =
        (decoderGraph c w).logits (ints (tokens ++ [token])) ∧
      GlobalsHold c w (tokens ++ [token])
        (decodeFn c.exact w.exact token tokens.length (hostBias EReal tokens.length n) globals).2 := by
  obtain ⟨rows, rfl, hrows⟩ := hhold
  have hlayer : (decoderGraph c w).layers = w.layers.map (layer c) := rfl
  have hself : hostBias EReal tokens.length n ⟨tokens.length, hroom⟩ = 0 := if_neg (Nat.lt_irrefl _)
  -- The same token, by the graph.
  obtain ⟨hlogits, hstored⟩ := AttentionGraph.staticDecode_eq (token : Int) (by rw [length_ints]; exact biasAt_hostBias _)
    (by rw [length_ints]; exact hroom) hrows
  -- The emitted function, by its layers.
  obtain ⟨x, rows', hspec, hemitted⟩ := decodeLayers_refines c (hostBias_cases tokens.length) hself w.layers 0
    (w.tokenEmbd token) rows
  have hindex : ((ints tokens).length : Int).toNat = tokens.length := by rw [length_ints, Int.toNat_natCast]
  have hmore : ints tokens ++ [(token : Int)] = ints (tokens ++ [token]) := (ints_append tokens [token]).symm
  simp only [AttentionGraph.staticDecode, embed_graph, hindex, hlayer, hspec, hmore] at hlogits hstored
  have hnorm := rmsNorm_exact c.rmsNormEps (fun (_ : Fin 1) => x) w.outputNorm
  have hproj := congrFun (linear_exact (fun (_ : Fin 1) => rms c.rmsNormEps x w.outputNorm) w.output) 0
  have hout : decodeFn c.exact w.exact token tokens.length (hostBias EReal tokens.length n) (fun l j => (rows l j).exact) =
      (exactRow (head c w x), fun l j => (rows' l j).exact) := by
    have hglobals := congrArg Prod.snd hemitted
    refine Prod.ext (Eq.trans ?_ hproj) hglobals
    rw [← hnorm]
    exact congrArg (fun r => outputProj w.exact (rmsNorm c.exact.rmsNormEps r.1 w.exact.outputNorm)) hemitted
  rw [hout]
  exact ⟨hlogits, rows', rfl, hstored⟩

/-! ## A chunk, row by row -/

section row

variable {F Hid Query Row Out : Type} [HostFloat F] [DecidableEq F]

/-- A valid row of a fused layer is what `decode` makes of it, on a cache that holds below the row what the
planes of the fused layer hold there. -/
theorem fusedAttn_row (L : AttentionLayer Hid Query Row Out) {chunk : PagedChunk} (hfits : chunk.Fits) {kv : List Row}
    (hkv : kv.length = chunk.numPages * chunk.page) {hidden : List Hid} (hhidden : hidden.length = chunk.seq) {q : Nat} {x : Hid}
    (hq : q < chunk.valid) (hx : hidden[q]? = some x) {bias : List F} {cache : List Row}
    (hbias : AttentionGraph.BiasAt cache.length (chunk.start + q) bias) (hroom : chunk.start + q < cache.length)
    (hcache : cache.take (chunk.start + q) = (L.fusedAttn false chunk hidden kv).2.take (chunk.start + q)) :
    (L.fusedAttn false chunk hidden kv).1[q]? = some (L.decodeLayer (chunk.start + q) bias x cache).1 ∧
      (L.decodeLayer (chunk.start + q) bias x cache).2.take (chunk.start + (q + 1)) =
        (L.fusedAttn false chunk hidden kv).2.take (chunk.start + (q + 1)) := by
  have hrows : (L.rowsFrom chunk.start hidden).length = chunk.seq := by rw [AttentionLayer.length_rowsFrom, hhidden]
  have hrow : (L.rowsFrom chunk.start hidden)[q]? = some (L.row x (chunk.start + q)) := by
    rw [AttentionLayer.rowsFrom, List.getElem?_mapIdx, hx, Option.map_some]
  have hplanes {m : Nat} (hm : m ≤ chunk.valid) := take_packed hfits hkv hrows rfl hm
  have hpast : (kv.take chunk.start).length = chunk.start := by
    have := hfits.room
    rw [List.length_take]
    omega
  -- What `decode` sees: the planes below the row, and the row.
  have hupdated : (insertSlice [L.row x (chunk.start + q)] cache (chunk.start + q)).take (chunk.start + (q + 1)) =
      kv.take chunk.start ++ (L.rowsFrom chunk.start hidden).take (q + 1) := by
    have hbelow : cache.take (chunk.start + q) = kv.take chunk.start ++ (L.rowsFrom chunk.start hidden).take q :=
      hcache.trans (hplanes (Nat.le_of_lt hq))
    have hlen : (cache.take (chunk.start + q)).length = chunk.start + q := List.length_take_of_le (Nat.le_of_lt hroom)
    rw [insertSlice, List.append_assoc, List.take_append, hlen, ← Nat.add_assoc, Nat.add_sub_cancel_left,
      List.take_of_length_le (by rw [hlen]; omega), List.singleton_append, List.take_succ_cons, List.take_zero, hbelow,
      List.append_assoc, List.take_add_one, hrow, Option.toList_some]
  have hseen : biasAttended bias (insertSlice [L.row x (chunk.start + q)] cache (chunk.start + q)) =
      kv.take chunk.start ++ (L.rowsFrom chunk.start hidden).take (q + 1) := by
    rw [← hupdated]
    refine keep_lt _ fun j hj => hbias j ?_
    rwa [length_insertSlice (by rw [List.length_singleton]; omega)] at hj
  have hattended : chunk.attended false (L.rowsFrom chunk.start hidden) kv q =
      kv.take chunk.start ++ (L.rowsFrom chunk.start hidden).take (q + 1) := by
    rw [attended_eq hfits hkv hrows rfl false hq, List.take_append, hpast, List.take_of_length_le (by rw [hpast]; omega),
      Nat.add_assoc, Nat.add_sub_cancel_left]
  refine ⟨?_, hupdated.trans (hplanes hq).symm⟩
  simp only [AttentionLayer.fusedAttn, AttentionLayer.decodeLayer, List.getElem?_mapIdx, hx, Option.map_some, hattended, hseen]

end row

section rows

variable (L : LayerWeights ℝ h nkv g d i) {chunk : PagedChunk} (hfits : chunk.Fits) {kv : List (KvRow ℝ nkv d)}
  (hkv : kv.length = chunk.numPages * chunk.page) (hidden : Fin chunk.seq → Fin h → ℝ)

include hfits hkv

/-- The same of the emitted layers. -/
theorem fusedAttn_row_decode {q : Fin chunk.seq} (hq : q < chunk.valid) {cache : Fin n → KvRow ℝ nkv d}
    (hroom : chunk.start + q < n)
    (hcache : (List.ofFn cache).take (chunk.start + q) =
      ((layer c L).fusedAttn false chunk (List.ofFn hidden) kv).2.take (chunk.start + q)) :
    ∃ cache' : Fin n → KvRow ℝ nkv d,
      DenseLayer.decodeLayer c.exact L.exact (chunk.start + q) (hostBias EReal (chunk.start + q) n)
          (exactRows fun _ => hidden q) (fun j => (cache j).exact) =
        (fun _ => (DenseLayer.fusedAttn c.exact L.exact chunk (exactRows hidden) (kv.map KvRow.exact)).1 q,
          fun j => (cache' j).exact) ∧
      (List.ofFn cache').take (chunk.start + (q + 1)) =
        ((layer c L).fusedAttn false chunk (List.ofFn hidden) kv).2.take (chunk.start + (q + 1)) := by
  have hself : hostBias EReal (chunk.start + q) n ⟨chunk.start + q, hroom⟩ = 0 := if_neg (Nat.lt_irrefl _)
  have hlen : (List.ofFn cache).length = n := List.length_ofFn
  have hbias : AttentionGraph.BiasAt (List.ofFn cache).length (chunk.start + q) (List.ofFn (hostBias EReal (chunk.start + q) n)) := by
    rw [hlen]
    exact biasAt_hostBias _
  have hx : (List.ofFn hidden)[(q : Nat)]? = some (hidden q) := by rw [List.getElem?_ofFn, dif_pos q.isLt]
  obtain ⟨hrow, hrows⟩ := fusedAttn_row (layer c L) hfits hkv List.length_ofFn hq hx hbias (hlen.symm ▸ hroom) hcache
  obtain ⟨hout, hstored⟩ := DenseLayer.decodeLayer_refines c L (hostBias_cases (chunk.start + q)) hself (hidden q) cache
  obtain ⟨cache', hemitted, hspec⟩ := exists_rows KvRow.exact hstored
  refine ⟨cache', Prod.ext (funext fun p => ?_) hemitted, hspec ▸ hrows⟩
  have hfused := congrArg (fun rows => rows[(q : Nat)]?) (DenseLayer.fusedAttn_refines c L hfits hkv hidden).1
  simp only [List.getElem?_map, hrow, List.getElem?_ofFn, dif_pos q.isLt, Option.map_some] at hfused
  rw [Subsingleton.elim p 0]
  exact hout.trans (Option.some.inj hfused).symm

/-- The first `m` of the last rows of a chunk, from row `q` on. -/
theorem decodeRows_eq (m : Nat) : ∀ (q : Nat) (cache : Fin n → KvRow ℝ nkv d), q + m ≤ chunk.valid → chunk.start + (q + m) ≤ n →
    (List.ofFn cache).take (chunk.start + q) =
      ((layer c L).fusedAttn false chunk (List.ofFn hidden) kv).2.take (chunk.start + q) →
    ∃ cache' : Fin n → KvRow ℝ nkv d,
      decodeRows c.exact L.exact (chunk.start + q) (((List.ofFn (exactRows hidden)).drop q).take m) (fun j => (cache j).exact) =
        (((List.ofFn (DenseLayer.fusedAttn c.exact L.exact chunk (exactRows hidden) (kv.map KvRow.exact)).1).drop q).take m,
          fun j => (cache' j).exact) ∧
      (List.ofFn cache').take (chunk.start + (q + m)) =
        ((layer c L).fusedAttn false chunk (List.ofFn hidden) kv).2.take (chunk.start + (q + m)) := by
  induction m with
  | zero =>
    intro q cache _ _ hcache
    exact ⟨cache, by simp [decodeRows], hcache⟩
  | succ m ih =>
    intro q cache hvalid hroom hcache
    have hq : q < chunk.seq := by
      have := hfits.valid_le
      omega
    have hdrop {α : Type} (rows : Fin chunk.seq → α) : ((List.ofFn rows).drop q).take (m + 1) =
        rows ⟨q, hq⟩ :: ((List.ofFn rows).drop (q + 1)).take m := by
      rw [List.drop_eq_getElem_cons (by rwa [List.length_ofFn]), List.take_succ_cons, List.getElem_ofFn]
    obtain ⟨stored, hdecode, hstored⟩ :=
      @fusedAttn_row_decode h nkv g d i n c L chunk hfits kv hkv hidden ⟨q, hq⟩ (by show q < chunk.valid; omega) cache
        (by show chunk.start + q < n; omega) hcache
    obtain ⟨cache', hrest, hcache'⟩ := ih (q + 1) stored (by omega) (by omega) hstored
    have hsum : q + 1 + m = q + (m + 1) := by omega
    rw [hsum] at hcache'
    refine ⟨cache', ?_, hcache'⟩
    have hrow : (fun _ : Fin 1 => exactRows hidden ⟨q, hq⟩) = exactRows fun _ => hidden ⟨q, hq⟩ := rfl
    rw [hdrop (exactRows hidden), hdrop, decodeRows, hrow, hdecode, Nat.add_assoc, hrest]

end rows

/-- A layer with every weight one. -/
def unitLayer : LayerWeights ℝ 1 1 1 1 1 := ⟨1, 1, 1, 1, none, 1, 1, 1, 1, 1⟩

/-- A decoder of that layer, over one token. -/
def unitDecoder : DecoderWeights ℝ 1 1 1 1 1 1 := ⟨1, [unitLayer], 1, 1⟩

def unitSettings : DecoderSettings ℝ := ⟨1, none⟩

/-- A call with the one token there is. -/
def unitCall : ChunkCall 1 := ⟨1, fun _ => ⟨0, Nat.one_pos⟩, ⟨0, Nat.one_pos⟩⟩

/-- **A chunk at once is its tokens one by one.** In exact arithmetic, a fused layer makes of the real rows of a
chunk what calls of `decode` make of them one after another, and stores the same K/V rows: whatever the planes and
the globals hold above the chunk's start, and however the planes are cut into pages. -/
theorem fusedAttn_eq_decodeRows (L : LayerWeights ℝ h nkv g d i) {chunk : PagedChunk} (hfits : chunk.Fits)
    {kv : List (KvRow ℝ nkv d)} (hkv : kv.length = chunk.numPages * chunk.page) (hidden : Fin chunk.seq → Fin h → ℝ)
    {cache : Fin n → KvRow ℝ nkv d} (hroom : chunk.start + chunk.valid ≤ n)
    (hcache : (List.ofFn cache).take chunk.start = kv.take chunk.start) :
    (decodeRows c.exact L.exact chunk.start ((List.ofFn (exactRows hidden)).take chunk.valid) fun j => (cache j).exact).1 =
        (List.ofFn (DenseLayer.fusedAttn c.exact L.exact chunk (exactRows hidden) (kv.map KvRow.exact)).1).take chunk.valid ∧
      (List.ofFn (decodeRows c.exact L.exact chunk.start ((List.ofFn (exactRows hidden)).take chunk.valid)
          fun j => (cache j).exact).2).take (chunk.start + chunk.valid) =
        (DenseLayer.fusedAttn c.exact L.exact chunk (exactRows hidden) (kv.map KvRow.exact)).2.take
          (chunk.start + chunk.valid) := by
  have hrows : ((layer c L).rowsFrom chunk.start (List.ofFn hidden)).length = chunk.seq := by
    rw [AttentionLayer.length_rowsFrom, List.length_ofFn]
  have hpast : ((layer c L).fusedAttn false chunk (List.ofFn hidden) kv).2.take (chunk.start + 0) = kv.take chunk.start := by
    have hpacked := take_packed hfits hkv hrows rfl (Nat.zero_le chunk.valid)
    rwa [List.take_zero, List.append_nil] at hpacked
  obtain ⟨cache', hdecode, hcache'⟩ := decodeRows_eq c L hfits hkv hidden chunk.valid 0 cache (Nat.zero_add _).le
    (by rwa [Nat.zero_add]) (hcache.trans hpast.symm)
  rw [Nat.add_zero, List.drop_zero, List.drop_zero] at hdecode
  rw [Nat.zero_add] at hcache'
  have hexact : (List.ofFn fun j => (cache' j).exact) = (List.ofFn cache').map KvRow.exact := by
    rw [List.map_ofFn]
    rfl
  rw [hdecode, (DenseLayer.fusedAttn_refines c L hfits hkv hidden).2, hexact, ← List.map_take, hcache', List.map_take]
  exact ⟨rfl, rfl⟩

theorem fusedAttn_eq_decodeRows_two :
    (decodeRows unitSettings.exact unitLayer.exact 0 ((List.ofFn (exactRows fun (_ : Fin 2) _ => 1)).take 2)
        fun _ : Fin 2 => DenseLayer.zeroRow.exact).1 =
      (List.ofFn (DenseLayer.fusedAttn unitSettings.exact unitLayer.exact ⟨2, 1, 2, 0, 2⟩ (exactRows fun _ _ => 1)
        ([DenseLayer.zeroRow, DenseLayer.zeroRow].map KvRow.exact)).1).take 2 :=
  (@fusedAttn_eq_decodeRows _ _ _ _ _ _ unitSettings unitLayer ⟨2, 1, 2, 0, 2⟩
    ⟨by decide, by decide, by decide, by decide, by decide⟩ [DenseLayer.zeroRow, DenseLayer.zeroRow] rfl (fun _ _ => 1)
    (fun _ : Fin 2 => DenseLayer.zeroRow) (by decide) rfl).1

/-! ## Runs -/

/-- Calls of chunk functions, each where the one before ended, on planes that held anything: the real tokens
so far, the last logits, and the planes. -/
inductive ChunkRun (shape : PlaneShape) :
    List (Fin v) → Option (Fin v → EReal) → (Nat → List (KvRow EReal nkv d)) → Prop where
  | start (rows : Nat → List (KvRow ℝ nkv d)) : (∀ l, (rows l).length = shape.numPages * shape.page) →
      ChunkRun shape [] none fun l => (rows l).map KvRow.exact
  | call {tokens : List (Fin v)} {logits : Option (Fin v → EReal)} {planes : Nat → List (KvRow EReal nkv d)}
      (call : ChunkCall v) (tile : Fin call.seq → Fin h → EReal) : ChunkRun shape tokens logits planes →
      call.seq ≤ u32Max → tokens.length + (call.last + 1) ≤ shape.numPages * shape.page →
      ChunkRun shape (tokens ++ call.real)
        (some (chunkFn c.exact w.exact shape call tokens.length tile planes).1)
        (chunkFn c.exact w.exact shape call tokens.length tile planes).2

/-- A `prefill` on globals that held anything, then calls of `decode` with the bias of the host. -/
inductive StaticRun (n : Nat) : List (Fin v) → (Fin v → EReal) → (Nat → Fin n → KvRow EReal nkv d) → Prop where
  | prefill (call : ChunkCall v) (tile : Fin call.seq → Fin h → EReal) (rows : Nat → Fin n → KvRow ℝ nkv d) :
      call.seq ≤ n →
      StaticRun n call.real (prefillFn c.exact w.exact call tile fun l j => (rows l j).exact).1
        (prefillFn c.exact w.exact call tile fun l j => (rows l j).exact).2
  | decode {tokens : List (Fin v)} {logits : Fin v → EReal} {globals : Nat → Fin n → KvRow EReal nkv d} (token : Fin v) :
      StaticRun n tokens logits globals → tokens.length < n →
      StaticRun n (tokens ++ [token])
        (decodeFn c.exact w.exact token tokens.length (hostBias EReal tokens.length n) globals).1
        (decodeFn c.exact w.exact token tokens.length (hostBias EReal tokens.length n) globals).2

variable {c w}

/-- Every run of chunk functions recomputes. -/
theorem ChunkRun.recomputes {shape : PlaneShape} (hpage : 1 ≤ shape.page) {tokens : List (Fin v)}
    {logits : Option (Fin v → EReal)} {planes : Nat → List (KvRow EReal nkv d)} (hrun : ChunkRun c w shape tokens logits planes) :
    (∀ out ∈ logits, List.ofFn out = (decoderGraph c w).logits (ints tokens)) ∧ PlanesHold c w shape tokens planes := by
  induction hrun with
  | start rows hlen =>
    have hlayers : (decoderGraph c w).layers.length = w.layers.length := List.length_map ..
    refine ⟨fun out hout => absurd hout (by simp), rows, rfl, hlen, fun l hl => ?_⟩
    obtain ⟨L, hL⟩ : ∃ L, (decoderGraph c w).layers[l]? = some L := ⟨_, List.getElem?_eq_getElem (hl.trans_eq hlayers.symm)⟩
    exact (List.length_eq_zero_iff.mp (AttentionGraph.length_layerRows hL [])).symm
  | call call tile _ hseq hroom ih =>
    obtain ⟨hlogits, hplanes⟩ := chunkFn_exact c w ih.2 hpage hseq hroom tile
    refine ⟨fun out hout => ?_, hplanes⟩
    rw [Option.mem_some_iff] at hout
    rw [← hout]
    exact hlogits

/-- Every run of the static functions recomputes. -/
theorem StaticRun.recomputes {tokens : List (Fin v)} {logits : Fin v → EReal} {globals : Nat → Fin n → KvRow EReal nkv d}
    (hrun : StaticRun c w n tokens logits globals) :
    List.ofFn logits = (decoderGraph c w).logits (ints tokens) ∧ GlobalsHold c w tokens globals := by
  induction hrun with
  | prefill call tile rows hwindow => exact prefillFn_exact c w hwindow tile rows
  | decode token _ hroom ih => exact decodeFn_exact c w ih.2 hroom token

/-- **Chunked and static execution agree.** In exact arithmetic, however a sequence of tokens was cut into
calls of the chunk functions, whatever padded them and whatever the planes held before: the logits of the
last call are those of `prefill` and `decode` over the same tokens, which are those of the decoder in the
reals recomputed from nothing. -/
theorem chunked_agrees_static {shape : PlaneShape} (hpage : 1 ≤ shape.page) {tokens : List (Fin v)} {logits logits' : Fin v → EReal}
    {planes : Nat → List (KvRow EReal nkv d)} {globals : Nat → Fin n → KvRow EReal nkv d}
    (hchunked : ChunkRun c w shape tokens (some logits) planes) (hstatic : StaticRun c w n tokens logits' globals) :
    logits = logits' ∧ List.ofFn logits = (decoderGraph c w).logits (ints tokens) := by
  have hlogits := (hchunked.recomputes hpage).1 logits rfl
  have hlogits' := hstatic.recomputes.1
  exact ⟨List.ofFn_injective (hlogits.trans hlogits'.symm), hlogits⟩

theorem chunked_agrees_static_two :
    (chunkFn unitSettings.exact unitDecoder.exact ⟨1, 2⟩ unitCall 1 0
        (chunkFn unitSettings.exact unitDecoder.exact ⟨1, 2⟩ unitCall 0 0
          fun _ => [DenseLayer.zeroRow, DenseLayer.zeroRow].map KvRow.exact).2).1 =
      (decodeFn unitSettings.exact unitDecoder.exact 0 1 (hostBias EReal 1 2)
        (prefillFn unitSettings.exact unitDecoder.exact unitCall 0 fun _ _ => DenseLayer.zeroRow.exact).2).1 :=
  (chunked_agrees_static (Nat.le_refl 1)
    (ChunkRun.call unitCall 0
      (.call unitCall 0 (.start (fun _ => [DenseLayer.zeroRow, DenseLayer.zeroRow]) fun _ => rfl) (by decide) (by decide))
      (by decide) (by decide))
    (StaticRun.decode 0 (.prefill unitCall 0 (fun _ _ => DenseLayer.zeroRow) (by decide)) (by decide))).1

end DenseProgram

end Dyninfer
