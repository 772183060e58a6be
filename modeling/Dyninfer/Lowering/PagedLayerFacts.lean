/-
The layer of the chunk functions in exact arithmetic: its planes are those of
the layer in the reals, and every query attends page by page to the rows that
the masks leave, padding rows included.
-/
import Dyninfer.Lowering.DenseLayerFacts

namespace Dyninfer

open DecoderMath Kernels OnlineAttention OnlineSoftmax Rows

namespace DenseLayer

variable {s h nkv g d i : Nat} {chunk : PagedChunk}

/-! ## Pages of numbers -/

/-- The page at `pi` of the walk. -/
noncomputable def keyPage (chunk : PagedChunk) (pi : Nat) (kv : List (KvRow ℝ nkv d)) : KeyPage nkv g s d where
  pageSize := kv.length
  k := fun kh p => (kv.get p).k kh
  v := fun kh p => (kv.get p).v kh
  visible := fun _ _ q p => chunk.visible q (pi * chunk.page + p)

theorem get_map {α β : Type} (f : α → β) (t : List α) :
    (⟨_, (t.map f).get⟩ : Σ n, Fin n → β) = ⟨t.length, fun p => f (t.get p)⟩ := by
  refine List.equivSigmaTuple.symm.injective ?_
  show List.ofFn (t.map f).get = List.ofFn fun p => f (t.get p)
  have hofFn : (List.ofFn t.get).map f = List.ofFn fun p => f (t.get p) := List.map_ofFn
  rw [List.ofFn_get, ← hofFn, List.ofFn_get]

theorem pageTensor_exact (chunk : PagedChunk) (pi : Nat) (kv : List (KvRow ℝ nkv d)) :
    (pageTensor chunk pi (kv.map KvRow.exact) : Page EReal nkv g s d) = (keyPage chunk pi kv).exact :=
  congrArg (fun rows : Σ n, Fin n → KvRow EReal nkv d => (⟨rows.1, fun kh p dim => (rows.2 p).k kh dim,
    fun kh p dim => (rows.2 p).v kh dim, pagedCausalMask chunk pi⟩ : Page EReal nkv g s d)) (get_map KvRow.exact kv)

/-- What a K/V row is to a query head, at a dimension of its value. -/
noncomputable def keyOf (q : Fin d → ℝ) (kh : Fin nkv) (dim : Fin d) (r : KvRow ℝ nkv d) : Key := (score q (r.k kh), r.v kh dim)

/-- The keys of a page that a query sees. -/
theorem keys_keyPage (chunk : PagedChunk) (pi : Nat) (kv : List (KvRow ℝ nkv d)) (query : QueryTensor ℝ nkv g s d)
    (kh : Fin nkv) (gi : Fin g) (q : Fin s) (dim : Fin d) :
    keys query (1 / √d) kh gi q dim (keyPage chunk pi kv) =
      (keep (fun k => chunk.visible q (pi * chunk.page + k)) kv).map (keyOf (query kh gi q) kh dim) := by
  have hscore (p : Fin kv.length) : OnlineAttention.score query (1 / √d) (keyPage chunk pi kv) kh gi q p =
      DecoderMath.score (query kh gi q) ((kv.get p).k kh) := mul_one_div _ _
  rw [keep_eq_finRange, List.map_map]
  exact List.map_congr_left fun p _ => Prod.ext (hscore p) rfl

/-! ## The walk -/

/-- The page that the walk takes at `pi`. -/
noncomputable def walkRows (chunk : PagedChunk) (toks kv : List (KvRow ℝ nkv d)) (pi : Nat) : List (KvRow ℝ nkv d) :=
  chunk.walkPage id toks kv pi

theorem stored_exact (toks kv : List (KvRow ℝ nkv d)) :
    chunk.stored narrow (toks.map KvRow.exact) (kv.map KvRow.exact) = (chunk.stored id toks kv).map KvRow.exact := by
  have hnarrow (row : KvRow ℝ nkv d) : narrow row.exact = row.exact := by
    unfold narrow KvRow.exact
    simp only [add_zero]
  apply List.ext_getElem?
  intro r
  simp only [PagedChunk.getElem?_stored, List.getElem?_map, Option.map_map]
  refine congrArg (fun f => kv[r]?.map f) (funext fun old => ?_)
  show (if _ then _ else _) = KvRow.exact (if _ then _ else _)
  split
  · cases toks[r - chunk.start]? with
    | none => rfl
    | some row => exact hnarrow row
  · rfl

section fits

variable (hfits : chunk.Fits)

include hfits

theorem walkPage_exact (toks kv : List (KvRow ℝ nkv d)) (pi : Nat) :
    chunk.walkPage narrow (toks.map KvRow.exact) (kv.map KvRow.exact) pi = (walkRows chunk toks kv pi).map KvRow.exact := by
  unfold walkRows
  rw [PagedChunk.walkPage_eq hfits, PagedChunk.walkPage_eq hfits, stored_exact]
  unfold PagedChunk.packedExtract extractSlice
  rw [List.map_take, List.map_drop]

theorem packed_exact {toks kv : List (KvRow ℝ nkv d)} (hkv : kv.length = chunk.numPages * chunk.page) :
    chunk.packed narrow (toks.map KvRow.exact) (kv.map KvRow.exact) = (chunk.packed id toks kv).map KvRow.exact := by
  rw [PagedChunk.packed_eq_stored hfits (by rw [List.length_map, hkv]), PagedChunk.packed_eq_stored hfits hkv, stored_exact]

/-- The first page has a row, and every query sees it. -/
theorem first_page_visible {toks kv : List (KvRow ℝ nkv d)} (hkv : kv.length = chunk.numPages * chunk.page) (q : Nat) :
    keep (fun k => chunk.visible q (0 * chunk.page + k)) (walkRows chunk toks kv 0) ≠ [] := by
  have hpages := hfits.numPages_pos
  have hpage := hfits.page_pos
  have hvalid := hfits.valid_pos
  refine keep_ne_nil ?_ ?_
  · have hroom := Nat.mul_le_mul_right chunk.page hpages
    unfold walkRows
    rw [PagedChunk.walkPage_eq hfits, ← List.length_pos_iff, PagedChunk.packedExtract, length_extractSlice,
      PagedChunk.length_stored, hkv]
    omega
  · rw [PagedChunk.visible, ← Bool.decide_and]
    exact decide_eq_true (by omega)

theorem zero_lt_histPages : 0 < chunk.histPages := by
  have hvalid := hfits.valid_pos
  exact Nat.zero_lt_of_lt (PagedChunk.lt_histPages hfits (Nat.lt_add_of_pos_right hvalid : chunk.start < _))

/-- Every query has a row to attend to. -/
theorem attended_ne_nil {toks kv : List (KvRow ℝ nkv d)} (hkv : kv.length = chunk.numPages * chunk.page) (q : Nat) :
    chunk.attended false toks kv q ≠ [] := by
  unfold PagedChunk.attended
  rw [if_neg Bool.false_ne_true, ← List.flatMap_eq_foldl, Ne, List.flatMap_eq_nil_iff]
  exact fun h => first_page_visible hfits hkv q (h 0 (List.mem_range.mpr (zero_lt_histPages hfits)))

/-- What the walk leaves. -/
noncomputable def walked (chunk : PagedChunk) (query : QueryTensor ℝ nkv g s d) (toks kv : List (KvRow ℝ nkv d)) :
    Running EReal nkv g s d :=
  (List.range chunk.histPages).foldl
    (fun running pi => layerPage chunk (exactQuery query)
      (chunk.walkPage narrow (toks.map KvRow.exact) (kv.map KvRow.exact) pi) pi running) start

/-- A query attends to its rows, page by page. -/
theorem running_walked {toks kv : List (KvRow ℝ nkv d)} (hkv : kv.length = chunk.numPages * chunk.page)
    (query : QueryTensor ℝ nkv g s d) (kh : Fin nkv) (gi : Fin g) (q : Fin s) (dim : Fin d) :
    OnlineSoftmax.Running ((chunk.attended false toks kv q).map (keyOf (query kh gi q) kh dim))
      (OnlineAttention.row (walked chunk query toks kv) kh gi q dim) := by
  let pages : List (KeyPage nkv g s d) :=
    (List.range chunk.histPages).map fun pi => keyPage chunk pi (walkRows chunk toks kv pi)
  have hwalk : walked chunk query toks kv = walk (exactQuery query) ((1 / √d : ℝ) : EReal) (pages.map KeyPage.exact) := by
    unfold walked walk layerPage
    simp only [walkPage_exact hfits, scale_exact, pageTensor_exact]
    rw [List.foldl_map, List.foldl_map]
  have hvisible (pi : Nat) : visible (entries query (1 / √d) (keyPage chunk pi (walkRows chunk toks kv pi)) kh gi q dim) =
      (keep (fun k => chunk.visible q (pi * chunk.page + k)) (walkRows chunk toks kv pi)).map
        (keyOf (query kh gi q) kh dim) := (visible_entries _ _ _ _ _ _ _).trans (keys_keyPage _ _ _ _ _ _ _ _)
  have hkeys : (chunk.attended false toks kv q).map (keyOf (query kh gi q) kh dim) =
      (pages.map fun page => entries query (1 / √d) page kh gi q dim).flatMap visible := by
    rw [List.map_map, List.flatMap_map]
    simp only [Function.comp, hvisible]
    rw [← List.map_flatMap, List.flatMap_eq_foldl]
    rfl
  have hfirst : ∀ page ∈ (pages.map fun page => entries query (1 / √d) page kh gi q dim).head?, visible page ≠ [] := by
    obtain ⟨k, hk⟩ := Nat.exists_eq_succ_of_ne_zero (zero_lt_histPages hfits).ne'
    intro page hpage
    rw [List.map_map, hk, List.range_succ_eq_map, List.map_cons, List.head?_cons, Option.mem_some_iff] at hpage
    rw [← hpage]
    show visible (entries query (1 / √d) (keyPage chunk 0 (walkRows chunk toks kv 0)) kh gi q dim) ≠ []
    rw [hvisible, Ne, List.map_eq_nil_iff]
    exact first_page_visible hfits hkv q
  rw [hwalk, row_walk, hkeys]
  exact Running.pages hfirst

/-- The walk, divided, is the attention of every query. -/
theorem normalise_walked {toks kv : List (KvRow ℝ nkv d)} (hkv : kv.length = chunk.numPages * chunk.page)
    (query : QueryTensor ℝ nkv g s d) :
    normalise (walked chunk query toks kv) = exactQuery fun kh gi (q : Fin s) =>
      attend (fun kh gi => query kh gi q) (chunk.attended false toks kv q) kh gi := by
  funext kh gi q dim
  have hrows : chunk.attended false toks kv q ≠ [] := attended_ne_nil hfits hkv q
  exact ((running_walked hfits hkv query kh gi q dim).div (by rw [Ne, List.map_eq_nil_iff]; exact hrows)).2

end fits

/-! ## The layer -/

variable (c : DecoderSettings ℝ) (w : LayerWeights ℝ h nkv g d i)

/-- A fused layer, given what it prepares. -/
theorem fusedAttn_of_prepared {c : DecoderSettings EReal} {w : LayerWeights EReal h nkv g d i}
    {hidden : Fin chunk.seq → Fin h → EReal} {q : QueryTensor EReal nkv g chunk.seq d}
    {k v : Fin chunk.seq → Fin nkv → Fin d → EReal} (hprepare : layerPrepare c w chunk.start hidden = (q, k, v))
    (kv : List (KvRow EReal nkv d)) :
    fusedAttn c w chunk hidden kv =
      (layerFinish c w hidden ((List.range chunk.histPages).foldl
          (fun running pi => layerPage chunk q (chunk.walkPage narrow (List.ofFn fun p => KvRow.mk (k p) (v p)) kv pi) pi running)
          start),
        chunk.packed narrow (List.ofFn fun p => KvRow.mk (k p) (v p)) kv) := by
  unfold fusedAttn
  rw [hprepare]

/-- **A fused layer of a chunk function is the layer of the decoder.** For every chunk within the planes,
whatever the planes hold: the hidden rows that leave the emitted layer, padding rows included, and its
planes are in exact arithmetic those of the layer in the reals, each query attending to its rows by the
softmax. -/
theorem fusedAttn_refines (hfits : chunk.Fits) {kv : List (KvRow ℝ nkv d)} (hkv : kv.length = chunk.numPages * chunk.page)
    (hidden : Fin chunk.seq → Fin h → ℝ) :
    List.ofFn (fusedAttn c.exact w.exact chunk (exactRows hidden) (kv.map KvRow.exact)).1 =
        ((layer c w).fusedAttn false chunk (List.ofFn hidden) kv).1.map exactRow ∧
      (fusedAttn c.exact w.exact chunk (exactRows hidden) (kv.map KvRow.exact)).2 =
        ((layer c w).fusedAttn false chunk (List.ofFn hidden) kv).2.map KvRow.exact := by
  have hrows : (List.ofFn fun p => KvRow.mk (exactHeads (fun p => (row c w (hidden p) (chunk.start + p)).k) p)
      (exactHeads (fun p => (row c w (hidden p) (chunk.start + p)).v) p)) =
      (rowsOf c w chunk.start hidden).map KvRow.exact := by
    unfold rowsOf
    rw [List.map_ofFn]
    rfl
  have hfused := fusedAttn_of_prepared (layerPrepare_exact c w chunk.start hidden) (kv.map KvRow.exact)
  rw [hrows] at hfused
  have hfinish : layerFinish c.exact w.exact (exactRows hidden)
      (walked chunk (fun kh gi p => query c w (hidden p) (chunk.start + p) kh gi) (rowsOf c w chunk.start hidden) kv) =
      exactRows fun p => finish c w (hidden p) (attend (query c w (hidden p) (chunk.start + p))
        (chunk.attended false (rowsOf c w chunk.start hidden) kv p)) := by
    have htail := layerTail_exact c w hidden fun p => attend (query c w (hidden p) (chunk.start + p))
      (chunk.attended false (rowsOf c w chunk.start hidden) kv p)
    unfold layerFinish
    rw [normalise_walked hfits hkv]
    exact htail
  have hlayer : (layer c w).fusedAttn false chunk (List.ofFn hidden) kv =
      (List.ofFn fun p => finish c w (hidden p) (attend (query c w (hidden p) (chunk.start + p))
          (chunk.attended false (rowsOf c w chunk.start hidden) kv p)),
        chunk.packed id (rowsOf c w chunk.start hidden) kv) := by
    simp only [AttentionLayer.fusedAttn, rowsFrom_ofFn, mapIdx_ofFn]
    rfl
  rw [hfused, hlayer]
  refine ⟨?_, packed_exact hfits hkv⟩
  rw [List.map_ofFn]
  exact congrArg List.ofFn hfinish

end DenseLayer

end Dyninfer
