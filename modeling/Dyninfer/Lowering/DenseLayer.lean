/-
The attention layer of a dense decoder in each of the emitted programs
(`lowering/dense_decoder.rs`): of a chunk function over packed planes
(`emit_paged_layer_prepare`, `emit_paged_layer_page`, `emit_paged_layer_finish`
and the walk of `paged_fused_attn_ops`), of `prefill` (`emit_attn`) and of
`decode` (`attn_decode`), over any scalars.

The planes are lists of rows, as the page writes are. The chunk functions are
the portable ones: the walk page by page over planes of `f32`. Where the heads
are as many as the K/V heads, `repeat_kv` and the helpers for K/V heads are
not called; they would be the identity, and the same as those called.
-/
import Dyninfer.Lowering.PagedProgram
import Dyninfer.Lowering.RowKernels

namespace Dyninfer

open OnlineAttention Kernels Rows MathExp MathFns

/-- The K row and the V row of a position. -/
structure KvRow (F : Type) (nkv d : Nat) where
  k : Fin nkv → Fin d → F
  v : Fin nkv → Fin d → F

/-- The weights of a layer, as they are loaded for the computation. -/
structure LayerWeights (F : Type) (h nkv g d i : Nat) where
  attnNorm : Fin h → F
  attnQ : Fin (nkv * g * d) → Fin h → F
  attnK : Fin (nkv * d) → Fin h → F
  attnV : Fin (nkv * d) → Fin h → F
  /-- Where `has_qk_norm`: the norm of the query heads and that of the key heads. -/
  qkNorm : Option ((Fin d → F) × (Fin d → F))
  attnOutput : Fin h → Fin (nkv * g * d) → F
  ffnNorm : Fin h → F
  ffnGate : Fin i → Fin h → F
  ffnUp : Fin i → Fin h → F
  ffnDown : Fin h → Fin i → F

/-- What the layers of a `DenseDecoderConfig` share. -/
structure DecoderSettings (F : Type) where
  rmsNormEps : F
  ropeTheta : Option F

namespace DenseLayer

variable {F : Type} [Zero F] [One F] [Add F] [Sub F] [Mul F] [Div F] [Neg F] [Max F] [MathFns F]
  {s h nkv g d i n nh : Nat} (c : DecoderSettings F) (w : LayerWeights F h nkv g d i)

/-- `1.0 / (d as f32).sqrt()` -/
def scale (F : Type) [One F] [Div F] [MathFns F] (d : Nat) : F := 1 / sqrt (sitofp d)

/-- `rms_norm_q_heads` and `rms_norm_kv_heads`, where they are called. -/
def headNorm (norm : Option (Fin d → F)) (x : Fin s → Fin n → Fin d → F) : Fin s → Fin n → Fin d → F :=
  match norm with
  | some weight => rmsNormHeads c.rmsNormEps x weight
  | none => x

/-- A RoPE helper, where it is called. -/
def withRope (helper : F → (Fin s → Fin n → Fin d → F) → Fin s → Fin n → Fin d → F)
    (x : Fin s → Fin n → Fin d → F) : Fin s → Fin n → Fin d → F :=
  match c.ropeTheta with
  | some theta => helper theta x
  | none => x

/-- The layer behind its attention: the output projection, and the feed-forward block. -/
def layerTail (hidden : Fin s → Fin h → F) (ctx : Fin s → Fin (nkv * g * d) → F) : Fin s → Fin h → F :=
  let o := linear ctx w.attnOutput
  let h2 p k := hidden p k + o p k
  let fn := rmsNorm c.rmsNormEps h2 w.ffnNorm
  let gate := linear fn w.ffnGate
  let up := linear fn w.ffnUp
  let ff := siluMul gate up
  let down := linear ff w.ffnDown
  fun p k => h2 p k + down p k

/-! ## The chunk functions -/

/-- `emit_prepare_paged_attention`: the grouped queries, and the chunk's K and V. -/
def preparePagedAttention (start : Nat) (q : Fin s → Fin (nkv * g * d) → F) (k v : Fin s → Fin (nkv * d) → F) :
    QueryTensor F nkv g s d × (Fin s → Fin nkv → Fin d → F) × (Fin s → Fin nkv → Fin d → F) :=
  let q3 : Fin s → Fin (nkv * g) → Fin d → F := expandShape q
  let k3 : Fin s → Fin nkv → Fin d → F := expandShape k
  let v3 : Fin s → Fin nkv → Fin d → F := expandShape v
  let qn := headNorm c (w.qkNorm.map Prod.fst) q3
  let kn := headNorm c (w.qkNorm.map Prod.snd) k3
  let qr := withRope c (fun theta => ropeChunk theta start) qn
  let kr := withRope c (fun theta => ropeChunk theta start) kn
  let q4 p kh gi dim := qr p (Fin.mkDivMod kh gi) dim
  (fun kh gi p dim => q4 p kh gi dim, kr, v3)

/-- `layer_prepare`, without what it fills. -/
def layerPrepare (start : Nat) (hidden : Fin s → Fin h → F) :
    QueryTensor F nkv g s d × (Fin s → Fin nkv → Fin d → F) × (Fin s → Fin nkv → Fin d → F) :=
  let xn := rmsNorm c.rmsNormEps hidden w.attnNorm
  preparePagedAttention c w start (linear xn w.attnQ) (linear xn w.attnK) (linear xn w.attnV)

/-- `emit_paged_causal_mask`. -/
def pagedCausalMask (chunk : PagedChunk) (pi : Nat) : Fin nkv → Fin g → Fin s → Fin n → F := fun _ _ q k =>
  if chunk.visible q (pi * chunk.page + k) then 0 else neg

/-- The keys and the values of a page, heads first, and its mask. -/
def pageTensor (chunk : PagedChunk) (pi : Nat) (kv : List (KvRow F nkv d)) : Page F nkv g s d where
  pageSize := kv.length
  k := fun kh p dim => (kv.get p).k kh dim
  v := fun kh p dim => (kv.get p).v kh dim
  mask := pagedCausalMask chunk pi

/-- `layer_page`. -/
def layerPage (chunk : PagedChunk) (query : QueryTensor F nkv g s d) (kv : List (KvRow F nkv d)) (pi : Nat)
    (running : Running F nkv g s d) : Running F nkv g s d :=
  onlineAttentionPage query (scale F d) (pageTensor chunk pi kv) running

/-- `layer_finish`. -/
def layerFinish (hidden : Fin s → Fin h → F) (running : Running F nkv g s d) : Fin s → Fin h → F :=
  let norm := normalise running
  let ctx4 p kh gi dim := norm kh gi p dim
  let ctx p (o : Fin (nkv * g * d)) := ctx4 p o.divNat.divNat o.divNat.modNat o.modNat
  layerTail c w hidden ctx

/-- `layer_store`'s `%tok`. -/
def narrow (row : KvRow F nkv d) : KvRow F nkv d := ⟨fun kh dim => row.k kh dim + 0, fun kh dim => row.v kh dim + 0⟩

/-- `fused_attn`: the hidden rows that leave the layer, and its planes. -/
def fusedAttn (chunk : PagedChunk) (hidden : Fin chunk.seq → Fin h → F) (kv : List (KvRow F nkv d)) :
    (Fin chunk.seq → Fin h → F) × List (KvRow F nkv d) :=
  let prepared := layerPrepare c w chunk.start hidden
  let toks := List.ofFn fun p => KvRow.mk (prepared.2.1 p) (prepared.2.2 p)
  let walked := (List.range chunk.histPages).foldl
    (fun running pi => layerPage chunk prepared.1 (chunk.walkPage narrow toks kv pi) pi running) start
  (layerFinish c w hidden walked, chunk.packed narrow toks kv)

/-! ## `prefill` and `decode` -/

/-- `linalg.softmax` along a row: the exponentials behind the maximum, over their sum. -/
def softmax (x : Fin n → F) : Fin n → F :=
  let maximum := Fin.foldl n (fun acc j => max (x j) acc) neg
  let e j := exp (x j - maximum)
  let sum := Fin.foldl n (fun acc j => e j + acc) 0
  fun j => e j / sum

/-- What `emit_attn` and `attn_decode` do with the heads of their queries, keys and values; they differ
in `masked`, what they make of a scaled score. -/
def batchAttention (masked : Fin s → Fin n → F → F) (q : Fin s → Fin nh → Fin d → F) (k v : Fin n → Fin nh → Fin d → F) :
    Fin s → Fin nh → Fin d → F :=
  let qb head p dim := q p head dim
  let kt head dim j := k j head dim
  let vb head j dim := v j head dim
  let scores head p j := Fin.foldl d (fun acc dim => acc + qb head p dim * kt head dim j) 0
  let scoresS head p j := scores head p j * scale F d
  let weights head p := softmax fun j => masked p j (scoresS head p j)
  let ctxB head p dim := Fin.foldl n (fun acc j => acc + weights head p j * vb head j dim) 0
  fun p head dim => ctxB head p dim

/-- `emit_attn`: the context, and the window's K and V. -/
def attn (q : Fin s → Fin (nkv * g * d) → F) (k v : Fin s → Fin (nkv * d) → F) :
    (Fin s → Fin (nkv * g * d) → F) × (Fin s → Fin nkv → Fin d → F) × (Fin s → Fin nkv → Fin d → F) :=
  let q3 : Fin s → Fin (nkv * g) → Fin d → F := expandShape q
  let k3 : Fin s → Fin nkv → Fin d → F := expandShape k
  let v3 : Fin s → Fin nkv → Fin d → F := expandShape v
  let qn := headNorm c (w.qkNorm.map Prod.fst) q3
  let kn := headNorm c (w.qkNorm.map Prod.snd) k3
  let qr := withRope c rope qn
  let kr := withRope c rope kn
  let masked (ii jj : Fin s) (a : F) := if (ii : Nat) < jj then negMask else a
  (collapseShape (batchAttention masked qr (repeatKv g kr) (repeatKv g v3)), kr, v3)

/-- What `prefill` stores: the window's rows in front of zeros. -/
def kvNew (n : Nat) (k v : Fin s → Fin nkv → Fin d → F) : Fin n → KvRow F nkv d := fun j =>
  if hj : j < s then ⟨k ⟨j, hj⟩, v ⟨j, hj⟩⟩ else ⟨fun _ _ => 0, fun _ _ => 0⟩

/-- An attention layer of `prefill`: the hidden rows that leave it, and its globals of `n` rows. -/
def prefillLayer (n : Nat) (hidden : Fin s → Fin h → F) : (Fin s → Fin h → F) × (Fin n → KvRow F nkv d) :=
  let xn := rmsNorm c.rmsNormEps hidden w.attnNorm
  let r := attn c w (linear xn w.attnQ) (linear xn w.attnK) (linear xn w.attnV)
  (layerTail c w hidden r.1, kvNew n r.2.1 r.2.2)

/-- `kv_update_row`. -/
def kvUpdateRow (cache : Fin n → KvRow F nkv d) (row : KvRow F nkv d) (pos : Nat) : Fin n → KvRow F nkv d :=
  fun j => if (j : Nat) = pos then row else cache j

/-- `attn_decode`: the context, and the cache with the new row. -/
def attnDecode (q : Fin 1 → Fin (nkv * g * d) → F) (cache : Fin n → KvRow F nkv d)
    (kNew vNew : Fin 1 → Fin nkv → Fin d → F) (pos : Nat) (attnBias : Fin n → F) :
    (Fin 1 → Fin (nkv * g * d) → F) × (Fin n → KvRow F nkv d) :=
  let q3 : Fin 1 → Fin (nkv * g) → Fin d → F := expandShape q
  let qn := headNorm c (w.qkNorm.map Prod.fst) q3
  let kn := headNorm c (w.qkNorm.map Prod.snd) kNew
  let qr := withRope c (fun theta => ropeAt theta pos) qn
  let kr := withRope c (fun theta => ropeAt theta pos) kn
  let upd := kvUpdateRow cache ⟨kr ⟨0, Nat.one_pos⟩, vNew ⟨0, Nat.one_pos⟩⟩ pos
  let masked (_ : Fin 1) (j : Fin n) (a : F) := a + attnBias j
  (collapseShape (batchAttention masked qr (repeatKv g fun j => (upd j).k) (repeatKv g fun j => (upd j).v)), upd)

/-- An attention layer of `decode`: the hidden row that leaves it, and its globals. -/
def decodeLayer (pos : Nat) (attnBias : Fin n → F) (hidden : Fin 1 → Fin h → F) (cache : Fin n → KvRow F nkv d) :
    (Fin 1 → Fin h → F) × (Fin n → KvRow F nkv d) :=
  let xn := rmsNorm c.rmsNormEps hidden w.attnNorm
  let r := attnDecode c w (linear xn w.attnQ) cache (expandShape (linear xn w.attnK)) (expandShape (linear xn w.attnV))
    pos attnBias
  (layerTail c w hidden r.1, r.2)

end DenseLayer

end Dyninfer
