/-
The kernels of a dense decoder that work on one row at a time
(`dyninfer-compiler/src/lowering/kernels.rs`, the SiLU and the reshapes of
`lowering/dense_decoder.rs`): the functions that the emitters write, over any
scalars. A tensor is a function of its indices; a reduction takes its
dimension in order, with the accumulator where the region has it.
-/
import Dyninfer.Lowering.OnlineAttention
import Mathlib.Logic.Equiv.Fin.Basic

namespace Dyninfer

/-- The other operations of `math`, `arith.sitofp`, and the literal `-1.0e+7` of `emit_attn`. The
literal of a whole number is `sitofp` of it. -/
class MathFns (F : Type) extends MathExp F where
  sitofp : Nat → F
  sqrt : F → F
  cos : F → F
  sin : F → F
  powf : F → F → F
  negMask : F

namespace Kernels

open MathExp MathFns

variable {F : Type} {s h i nkv g d m n : Nat}

/-! ## Indices -/

/-- `tensor.expand_shape` of the last dimension into two. -/
def expandShape (x : Fin s → Fin (m * n) → F) : Fin s → Fin m → Fin n → F := fun p a b => x p (Fin.mkDivMod a b)

/-- `tensor.collapse_shape` of the last two dimensions into one. -/
def collapseShape (x : Fin s → Fin m → Fin n → F) : Fin s → Fin (m * n) → F := fun p o => x p o.divNat o.modNat

/-- `emit_repeat_kv`: head `h` of the result is head `h floordiv g`. -/
def repeatKv (g : Nat) (x : Fin s → Fin nkv → Fin d → F) : Fin s → Fin (nkv * g) → Fin d → F :=
  fun p head dim => x p head.divNat dim

/-- `%pair`: where the pair of a dimension has its first half. -/
def pair (dim : Fin d) : Fin d := ⟨dim % (d / 2), Nat.lt_of_le_of_lt (Nat.mod_le _ _) dim.isLt⟩

/-- `%pair_hi`: where it has its second half. -/
def pairHi (dim : Fin d) : Fin d := ⟨dim % (d / 2) + d / 2, by
  have hdim := dim.isLt
  rcases Nat.eq_zero_or_pos (d / 2) with hzero | hpos
  · rw [hzero, Nat.mod_zero]
    exact hdim
  · have hmod := Nat.mod_lt dim hpos
    omega⟩

/-- What the emitters of RoPE make of a head, given the cosine and the sine for its pairs. -/
def rotate [Add F] [Sub F] [Mul F] (cv sv : Nat → F) (x : Fin d → F) (dim : Fin d) : F :=
  let x1 := x (pair dim)
  let x2 := x (pairHi dim)
  let lo := x1 * cv (pair dim) - x2 * sv (pair dim)
  let hi := x1 * sv (pair dim) + x2 * cv (pair dim)
  if (dim : Nat) < d / 2 then lo else hi

/-! ## Linear layers, norms, activation -/

variable [Zero F] [One F] [Add F] [Sub F] [Mul F] [Div F] [Neg F] [MathFns F]

/-- `emit_linear`, the weight as `out × in`: transposed, then `linalg.matmul`. -/
def linear (x : Fin s → Fin m → F) (w : Fin n → Fin m → F) : Fin s → Fin n → F :=
  let wt (k : Fin m) (o : Fin n) := w o k
  fun p o => Fin.foldl m (fun acc k => acc + x p k * wt k o) 0

/-- `emit_rms_norm`. -/
def rmsNorm (eps : F) (x : Fin s → Fin h → F) (w : Fin h → F) : Fin s → Fin h → F :=
  let sq p k := x p k * x p k
  let ms p := Fin.foldl h (fun acc k => sq p k + acc) 0
  let inv p := 1 / sqrt (ms p / sitofp h + eps)
  fun p k => x p k * inv p * w k

/-- `emit_rms_norm_heads`. -/
def rmsNormHeads (eps : F) (x : Fin s → Fin n → Fin d → F) (w : Fin d → F) : Fin s → Fin n → Fin d → F :=
  let sq p head k := x p head k * x p head k
  let ms p head := Fin.foldl d (fun acc k => sq p head k + acc) 0
  let inv p head := 1 / sqrt (ms p head / sitofp d + eps)
  fun p head k => x p head k * inv p head * w k

/-- `%silu`, times `%up`. -/
def siluMul (gate up : Fin s → Fin i → F) : Fin s → Fin i → F := fun p k =>
  gate p k / (1 + exp (-gate p k)) * up p k

/-! ## RoPE -/

/-- The angle that `emit_rope` and `emit_rope_at` make their tables of. -/
def tableAngle (theta : F) (d pos i : Nat) : F :=
  let freq := 1 / powf theta (sitofp (2 * i) / sitofp d)
  sitofp pos * freq

/-- The angle that `emit_rope_chunk` computes on the device. -/
def deviceAngle (theta : F) (d absPos i : Nat) : F :=
  let exponent := sitofp 2 * sitofp i / sitofp d
  let freq := 1 / powf theta exponent
  sitofp absPos * freq

/-- `emit_rope`: row `p` of a window is at position `p`. -/
def rope (theta : F) (x : Fin s → Fin n → Fin d → F) : Fin s → Fin n → Fin d → F := fun p head =>
  rotate (fun i => cos (tableAngle theta d p i)) (fun i => sin (tableAngle theta d p i)) (x p head)

/-- `emit_rope_chunk`: row `p` of a chunk is at position `start + p`. -/
def ropeChunk (theta : F) (start : Nat) (x : Fin s → Fin n → Fin d → F) : Fin s → Fin n → Fin d → F := fun p head =>
  rotate (fun i => cos (deviceAngle theta d (start + p) i)) (fun i => sin (deviceAngle theta d (start + p) i)) (x p head)

/-- `emit_rope_at`: the one row is at position `pos`. -/
def ropeAt (theta : F) (pos : Nat) (x : Fin 1 → Fin n → Fin d → F) : Fin 1 → Fin n → Fin d → F := fun _ head =>
  rotate (fun i => cos (tableAngle theta d pos i)) (fun i => sin (tableAngle theta d pos i)) (x ⟨0, Nat.one_pos⟩ head)

end Kernels

end Dyninfer
