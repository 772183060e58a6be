/-
The forward pass on the host that the tests compare a compiled model with
(`dyninfer-runtime/src/reference.rs`), over any scalars: one layer, as many K/V
heads as heads, no RoPE, every token of the window counted. A vector is flat,
its elements found by the index that the source computes. The sizes, constants
in the source, are parameters; the literals that `f32` has and other scalars
may not are the fields of a structure.
-/
import Dyninfer.Checkpoint.Packing
import Dyninfer.Lowering.DenseProgram
import Dyninfer.Quantization.BlockCodegen

namespace Dyninfer

namespace Reference

open MathExp MathFns

/-- `EPS`, `f32::NEG_INFINITY`, and the `-1.0e30` of a masked score. -/
structure Literals (F : Type) where
  eps : F
  negInfinity : F
  masked : F

/-- `H` is `nh * d`. -/
structure Weights (F : Type) (v i nh d : Nat) where
  emb : Fin (v * (nh * d)) → F
  attnNorm : Fin (nh * d) → F
  wq : Fin (nh * d * (nh * d)) → F
  wk : Fin (nh * d * (nh * d)) → F
  wv : Fin (nh * d * (nh * d)) → F
  wo : Fin (nh * d * (nh * d)) → F
  ffnNorm : Fin (nh * d) → F
  wgate : Fin (i * (nh * d)) → F
  wup : Fin (i * (nh * d)) → F
  wdown : Fin (nh * d * i) → F
  outNorm : Fin (nh * d) → F
  wout : Fin (v * (nh * d)) → F

variable {F : Type} [Zero F] [One F] [Add F] [Sub F] [Mul F] [Div F] [Neg F] [Max F] [MathFns F]
  {batch rows inn out v i nh d s n : Nat} (lit : Literals F)

/-- The element of a flat vector at a row and a column. -/
def at2 (x : Fin (rows * n) → F) (r : Fin rows) (k : Fin n) : F := x (Fin.mkDivMod r k)

def linear (x : Fin (batch * inn) → F) (w : Fin (out * inn) → F) : Fin (batch * out) → F := fun y =>
  let b := y.divNat
  let o := y.modNat
  Fin.foldl inn (fun acc k => acc + at2 x b k * at2 w o k) 0

def rmsnorm1d (x w : Fin n → F) : Fin n → F :=
  let ms := Fin.foldl n (fun acc k => acc + x k * x k) 0 / sitofp n
  let inv := 1 / sqrt (ms + lit.eps)
  fun k => x k * inv * w k

def rmsnorm2d (x : Fin (rows * n) → F) (w : Fin n → F) : Fin (rows * n) → F := fun y =>
  rmsnorm1d lit (at2 x y.divNat) w y.modNat

def silu (x : F) : F := x / (1 + exp (-x))

/-- The scores of a head, as they are before the softmax. -/
def scores (q k : Fin (s * (nh * d)) → F) (hd : Fin nh) (i j : Fin s) : F :=
  let scale := 1 / sqrt (sitofp d)
  let product := Fin.foldl d (fun acc t => acc + at2 q i (Fin.mkDivMod hd t) * at2 k j (Fin.mkDivMod hd t)) 0
  if (i : Nat) < j then lit.masked else product * scale

/-- The softmax of a row of scores, in place in the source. -/
def softmaxRow (row : Fin s → F) : Fin s → F :=
  let m := Fin.foldl s (fun acc j => max acc (row j)) lit.negInfinity
  let sum := Fin.foldl s (fun acc j => acc + exp (row j - m)) 0
  fun j => exp (row j - m) / sum

def attention (q k v : Fin (s * (nh * d)) → F) : Fin (s * (nh * d)) → F := fun y =>
  let i := y.divNat
  let hd := y.modNat.divNat
  let t := y.modNat.modNat
  Fin.foldl s (fun acc j => acc + softmaxRow lit (scores lit q k hd i) j * at2 v j (Fin.mkDivMod hd t)) 0

/-- `forward`, with the window of `s + 1` tokens. -/
def forward (w : Weights F v i nh d) (tokens : Fin (s + 1) → Fin v) : Fin v → F :=
  let h : Fin ((s + 1) * (nh * d)) → F := fun y => at2 w.emb (tokens y.divNat) y.modNat
  let xn := rmsnorm2d lit h w.attnNorm
  let q := linear xn w.wq
  let k := linear xn w.wk
  let v := linear xn w.wv
  let ctx := attention lit q k v
  let o := linear ctx w.wo
  let h2 y := h y + o y
  let fn := rmsnorm2d lit h2 w.ffnNorm
  let gate := linear fn w.wgate
  let up := linear fn w.wup
  let ff y := silu (gate y) * up y
  let down := linear ff w.wdown
  let h3 y := h2 y + down y
  let last := at2 h3 (Fin.last s)
  let ln := rmsnorm1d lit last w.outNorm
  fun o => linear (fun y : Fin (1 * (nh * d)) => ln y.modNat) w.wout (Fin.mkDivMod ⟨0, Nat.one_pos⟩ o)

/-- The window of the functions below: the first tokens, and zeros. -/
def window (s : Nat) [NeZero v] (tokens : List (Fin v)) : Fin s → Fin v := fun p => tokens.getD p 0

/-- `tiny_llama_prefill_logits`, `tiny_llama_mlx_u4_prefill_logits` and `tiny_llama_gguf_q4_0_prefill_logits`, over
the weights that each of them makes. -/
def prefillLogits [NeZero v] (s : Nat) (w : Weights F v i nh d) (tokens : List (Fin v)) : Fin v → F :=
  forward lit w (window (s + 1) tokens)

/-- The weights of the layer as a decoder has them, by rows. -/
def Weights.layer (w : Weights F v i nh d) : LayerWeights F (nh * d) nh 1 d i where
  attnNorm := w.attnNorm
  attnQ := fun o k => at2 w.wq (o.cast (congrArg (· * d) (Nat.mul_one nh))) k
  attnK := at2 w.wk
  attnV := at2 w.wv
  qkNorm := none
  attnOutput := fun o k => at2 w.wo o (k.cast (congrArg (· * d) (Nat.mul_one nh)))
  ffnNorm := w.ffnNorm
  ffnGate := at2 w.wgate
  ffnUp := at2 w.wup
  ffnDown := at2 w.wdown

@[inherit_doc Weights.layer] def Weights.decoder (w : Weights F v i nh d) : DecoderWeights F v (nh * d) nh 1 d i where
  tokenEmbd := at2 w.emb
  layers := [w.layer]
  outputNorm := w.outNorm
  output := at2 w.wout

/-! ## Quantised weights -/

section roundtrip

variable {F : Type} (host : F32Host F) (arith : F32Arith F)

/-- `gguf_q4_0_roundtrip` and `gguf_q8_0_roundtrip`, where their assertion holds: values are quantised by the scale
as it is, and restored by the scale as it is stored. -/
def symmetricRoundtrip (low steps : Nat) (values : List F) : Option (List F) :=
  if values.length % 32 = 0 then
    some ((Rows.chunksExact 32 values).flatMap fun block =>
      let packingScale := host.scaleBy steps block
      let storedScale := arith.extf (host.toF16 packingScale)
      let inv := host.inverse packingScale
      block.map fun value =>
        let quantized := host.clamp (host.round (host.mul value inv)) (host.sub (host.lit 0) (host.lit low)) (host.lit steps)
        arith.mulf quantized storedScale)
  else none

def ggufQ40Roundtrip : List F → Option (List F) := symmetricRoundtrip host arith 8 7

def ggufQ80Roundtrip : List F → Option (List F) := symmetricRoundtrip host arith 127 127

def ggufQ41Roundtrip (values : List F) : Option (List F) :=
  if values.length % 32 = 0 then
    some ((Rows.chunksExact 32 values).flatMap fun block =>
      let minimum := host.minimum block
      let packingScale := host.scaleQ41 block
      let storedScale := arith.extf (host.toF16 packingScale)
      let storedMinimum := arith.extf (host.toF16 minimum)
      let inverse := host.inverse packingScale
      block.map fun value =>
        let quantized := host.clamp (host.round (host.mul (host.sub value minimum) inverse)) (host.lit 0) (host.lit 15)
        arith.addf (arith.mulf quantized storedScale) storedMinimum)
  else none

/-- With groups of 64, `GROUP` in the source. -/
def affineU4Roundtrip (group : Nat) (values : List F) (columns : Nat) : Option (List F) :=
  if columns ≠ 0 ∧ columns % group = 0 then
    some (((Rows.chunksExact columns values).flatMap (Rows.chunksExact group)).flatMap fun block =>
      let min := host.minimum block
      let scale := host.scaleU4 block
      block.map fun value =>
        let quantized := host.clamp (host.round (host.div (host.sub value min) scale)) (host.lit 0) (host.lit 15)
        arith.addf (arith.mulf quantized scale) min)
  else none

end roundtrip

end Reference

end Dyninfer
