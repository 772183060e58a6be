/-
Online attention over the pages of a cache
(`emit_online_attention_page` in `dyninfer-compiler/src/lowering/kernels.rs`):
the function that the emitter writes, over any scalars, and what the layer
around it starts from and divides by (`emit_paged_layer_prepare` and
`emit_paged_layer_finish` in `lowering/dense_decoder.rs`). A tensor is a
function of its indices; a reduction takes its dimension in order.
-/
import Dyninfer.Lib.OnlineSoftmax

namespace Dyninfer

/-- `math.exp`, and the literal `-3.40282347E+38` in the place of minus infinity. -/
class MathExp (F : Type) where
  exp : F → F
  neg : F

namespace OnlineAttention

section tensors

variable (F : Type) (kvHeads gqaGroup queryLen headDim : Nat)

/-- `tensor<{kv_heads}x{gqa_group}x{query_len}x{head_dim}xf32>` -/
abbrev QueryTensor := Fin kvHeads → Fin gqaGroup → Fin queryLen → Fin headDim → F

/-- `tensor<{kv_heads}x{gqa_group}x{query_len}xf32>` -/
abbrev RowTensor := Fin kvHeads → Fin gqaGroup → Fin queryLen → F

/-- The keys and the values of a page, and the mask against it. -/
structure Page where
  pageSize : Nat
  k : Fin kvHeads → Fin pageSize → Fin headDim → F
  v : Fin kvHeads → Fin pageSize → Fin headDim → F
  mask : Fin kvHeads → Fin gqaGroup → Fin queryLen → Fin pageSize → F

/-- What the calls for the pages hand on. -/
structure Running where
  output : QueryTensor F kvHeads gqaGroup queryLen headDim
  rowMax : RowTensor F kvHeads gqaGroup queryLen
  rowSum : RowTensor F kvHeads gqaGroup queryLen

end tensors

section page

variable {F : Type} [Zero F] [Add F] [Sub F] [Mul F] [Max F] [MathExp F] {kvHeads gqaGroup queryLen headDim : Nat}
  (query : QueryTensor F kvHeads gqaGroup queryLen headDim) (scale : F) (page : Page F kvHeads gqaGroup queryLen headDim)
  (running : Running F kvHeads gqaGroup queryLen headDim)

def dots (kh : Fin kvHeads) (g : Fin gqaGroup) (q : Fin queryLen) (p : Fin page.pageSize) : F :=
  Fin.foldl headDim (fun acc d => acc + query kh g q d * page.k kh p d) 0

def scores (kh : Fin kvHeads) (g : Fin gqaGroup) (q : Fin queryLen) (p : Fin page.pageSize) : F :=
  dots query page kh g q p * scale + page.mask kh g q p

def pageMax : RowTensor F kvHeads gqaGroup queryLen := fun kh g q =>
  Fin.foldl page.pageSize (fun acc p => max (scores query scale page kh g q p) acc) MathExp.neg

def newMax : RowTensor F kvHeads gqaGroup queryLen := fun kh g q =>
  max (running.rowMax kh g q) (pageMax query scale page kh g q)

def weights (kh : Fin kvHeads) (g : Fin gqaGroup) (q : Fin queryLen) (p : Fin page.pageSize) : F :=
  MathExp.exp (scores query scale page kh g q p - newMax query scale page running kh g q)

def pageSum : RowTensor F kvHeads gqaGroup queryLen := fun kh g q =>
  Fin.foldl page.pageSize (fun acc p => weights query scale page running kh g q p + acc) 0

def pageOut : QueryTensor F kvHeads gqaGroup queryLen headDim := fun kh g q d =>
  Fin.foldl page.pageSize (fun acc p => acc + weights query scale page running kh g q p * page.v kh p d) 0

def oldScale : RowTensor F kvHeads gqaGroup queryLen := fun kh g q =>
  MathExp.exp (running.rowMax kh g q - newMax query scale page running kh g q)

/-- `emit_online_attention_page`: the emitted function. -/
def onlineAttentionPage : Running F kvHeads gqaGroup queryLen headDim where
  output := fun kh g q d => running.output kh g q d * oldScale query scale page running kh g q +
    pageOut query scale page running kh g q d
  rowMax := newMax query scale page running
  rowSum := fun kh g q => running.rowSum kh g q * oldScale query scale page running kh g q +
    pageSum query scale page running kh g q

end page

section layer

variable {F : Type} [Zero F] [Add F] [Sub F] [Mul F] [Div F] [Max F] [MathExp F]
  {kvHeads gqaGroup queryLen headDim : Nat}

/-- What `emit_paged_layer_prepare` fills. -/
def start : Running F kvHeads gqaGroup queryLen headDim := ⟨fun _ _ _ _ => 0, fun _ _ _ => MathExp.neg, fun _ _ _ => 0⟩

/-- The calls for the pages, in order. -/
def walk (query : QueryTensor F kvHeads gqaGroup queryLen headDim) (scale : F)
    (pages : List (Page F kvHeads gqaGroup queryLen headDim)) : Running F kvHeads gqaGroup queryLen headDim :=
  pages.foldl (fun running page => onlineAttentionPage query scale page running) start

/-- `%norm` in `emit_paged_layer_finish`. -/
def normalise (running : Running F kvHeads gqaGroup queryLen headDim) : QueryTensor F kvHeads gqaGroup queryLen headDim :=
  fun kh g q d => running.output kh g q d / running.rowSum kh g q

end layer

/-! ## What it is for -/

/-- A page of numbers: each query row sees some of its keys. -/
structure KeyPage (kvHeads gqaGroup queryLen headDim : Nat) where
  pageSize : Nat
  k : Fin kvHeads → Fin pageSize → Fin headDim → ℝ
  v : Fin kvHeads → Fin pageSize → Fin headDim → ℝ
  visible : Fin kvHeads → Fin gqaGroup → Fin queryLen → Fin pageSize → Bool

section exact

variable {kvHeads gqaGroup queryLen headDim : Nat}

/-- The literal `-3.40282347E+38` is read as minus infinity, whose exponential is zero. -/
noncomputable instance : MathExp EReal := ⟨OnlineSoftmax.exp, ⊥⟩

/-- A query in exact arithmetic. -/
noncomputable def exactQuery (query : QueryTensor ℝ kvHeads gqaGroup queryLen headDim) :
    QueryTensor EReal kvHeads gqaGroup queryLen headDim := fun kh g q d => query kh g q d

/-- A page in exact arithmetic: the mask adds minus infinity. -/
noncomputable def KeyPage.exact (page : KeyPage kvHeads gqaGroup queryLen headDim) :
    Page EReal kvHeads gqaGroup queryLen headDim where
  pageSize := page.pageSize
  k := fun kh p d => page.k kh p d
  v := fun kh p d => page.v kh p d
  mask := fun kh g q p => if page.visible kh g q p then 0 else ⊥

/-- The score of a key. -/
noncomputable def score (query : QueryTensor ℝ kvHeads gqaGroup queryLen headDim) (scale : ℝ)
    (page : KeyPage kvHeads gqaGroup queryLen headDim) (kh : Fin kvHeads) (g : Fin gqaGroup) (q : Fin queryLen)
    (p : Fin page.pageSize) : ℝ :=
  (∑ d, query kh g q d * page.k kh p d) * scale

/-- The keys of a page that a query row sees, each with a dimension of its value. -/
noncomputable def keys (query : QueryTensor ℝ kvHeads gqaGroup queryLen headDim) (scale : ℝ) (kh : Fin kvHeads)
    (g : Fin gqaGroup) (q : Fin queryLen) (d : Fin headDim) (page : KeyPage kvHeads gqaGroup queryLen headDim) :
    List OnlineSoftmax.Key :=
  ((List.finRange page.pageSize).filter fun p => page.visible kh g q p).map fun p =>
    (score query scale page kh g q p, page.v kh p d)

end exact

end OnlineAttention

end Dyninfer
