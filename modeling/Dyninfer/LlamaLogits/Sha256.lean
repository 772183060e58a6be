/-
The digest of a checkpoint as the reference runner computes it (`Sha256` and
`FileSha256` of `tools/llama-logits/main.cc`), in 64 lower-case hexadecimal
digits.
-/
import Dyninfer.Core.JsonGrammar

namespace Dyninfer

namespace LlamaLogits

/-- `state_` -/
structure Words where
  a : UInt32
  b : UInt32
  c : UInt32
  d : UInt32
  e : UInt32
  f : UInt32
  g : UInt32
  h : UInt32

structure Sha256 where
  state : Words := ⟨0x6a09e667, 0xbb67ae85, 0x3c6ef372, 0xa54ff53a, 0x510e527f, 0x9b05688c, 0x1f83d9ab, 0x5be0cd19⟩
  block : List UInt8 := []
  bitLength : UInt64 := 0

namespace Sha256

def k : List UInt32 := [
  0x428a2f98, 0x71374491, 0xb5c0fbcf, 0xe9b5dba5, 0x3956c25b, 0x59f111f1, 0x923f82a4, 0xab1c5ed5,
  0xd807aa98, 0x12835b01, 0x243185be, 0x550c7dc3, 0x72be5d74, 0x80deb1fe, 0x9bdc06a7, 0xc19bf174,
  0xe49b69c1, 0xefbe4786, 0x0fc19dc6, 0x240ca1cc, 0x2de92c6f, 0x4a7484aa, 0x5cb0a9dc, 0x76f988da,
  0x983e5152, 0xa831c66d, 0xb00327c8, 0xbf597fc7, 0xc6e00bf3, 0xd5a79147, 0x06ca6351, 0x14292967,
  0x27b70a85, 0x2e1b2138, 0x4d2c6dfc, 0x53380d13, 0x650a7354, 0x766a0abb, 0x81c2c92e, 0x92722c85,
  0xa2bfe8a1, 0xa81a664b, 0xc24b8b70, 0xc76c51a3, 0xd192e819, 0xd6990624, 0xf40e3585, 0x106aa070,
  0x19a4c116, 0x1e376c08, 0x2748774c, 0x34b0bcb5, 0x391c0cb3, 0x4ed8aa4a, 0x5b9cca4f, 0x682e6ff3,
  0x748f82ee, 0x78a5636f, 0x84c87814, 0x8cc70208, 0x90befffa, 0xa4506ceb, 0xbef9a3f7, 0xc67178f2]

def rotateRight (value count : UInt32) : UInt32 := (value >>> count) ||| (value <<< (32 - count))

/-- Four bytes, the highest first. -/
def word (bytes : List UInt8) : UInt32 := bytes.foldl (fun w b => (w <<< 8) ||| b.toUInt32) 0

/-- The first words of `w`, from the block. -/
def blockWords (block : List UInt8) : List UInt32 :=
  (List.range 16).map fun i => word ((block.drop (i * 4)).take 4)

/-- The word that follows `w`. -/
def nextWord (w : List UInt32) : UInt32 :=
  let back (i : Nat) := w.getD (w.length - i) 0
  let s0 := rotateRight (back 15) 7 ^^^ rotateRight (back 15) 18 ^^^ (back 15 >>> 3)
  let s1 := rotateRight (back 2) 17 ^^^ rotateRight (back 2) 19 ^^^ (back 2 >>> 10)
  back 16 + s0 + back 7 + s1

def schedule (block : List UInt8) : List UInt32 :=
  (List.range 48).foldl (fun w _ => w ++ [nextWord w]) (blockWords block)

def round (s : Words) (kw : UInt32 × UInt32) : Words :=
  let sum1 := rotateRight s.e 6 ^^^ rotateRight s.e 11 ^^^ rotateRight s.e 25
  let choose := (s.e &&& s.f) ^^^ (~~~s.e &&& s.g)
  let temp1 := s.h + sum1 + choose + kw.1 + kw.2
  let sum0 := rotateRight s.a 2 ^^^ rotateRight s.a 13 ^^^ rotateRight s.a 22
  let majority := (s.a &&& s.b) ^^^ (s.a &&& s.c) ^^^ (s.b &&& s.c)
  { a := temp1 + (sum0 + majority), b := s.a, c := s.b, d := s.c, e := s.d + temp1, f := s.e, g := s.f, h := s.g }

def transform (state : Words) (block : List UInt8) : Words :=
  let s := (k.zip (schedule block)).foldl round state
  { a := state.a + s.a, b := state.b + s.b, c := state.c + s.c, d := state.d + s.d
    e := state.e + s.e, f := state.f + s.f, g := state.g + s.g, h := state.h + s.h }

/-- One byte of `Update`; a full block is transformed. -/
def push (hash : Sha256) (b : UInt8) : Sha256 :=
  let block := hash.block ++ [b]
  if block.length = 64 then
    { state := transform hash.state block, block := [], bitLength := hash.bitLength + 8 }
  else { hash with block, bitLength := hash.bitLength + 8 }

def update (hash : Sha256) (data : List UInt8) : Sha256 := data.foldl push hash

/-- A word in eight digits. -/
def hexWord (value : UInt32) : List UInt8 :=
  JsonGrammar.hex4 (value.toNat / 2 ^ 16) ++ JsonGrammar.hex4 (value.toNat % 2 ^ 16)

/-- The last blocks: a one bit, zeros, and the length with its highest byte first. -/
def finalState (hash : Sha256) : Words :=
  let block := hash.block ++ [0x80]
  let (state, block) :=
    if block.length > 56 then (transform hash.state (block ++ List.replicate (64 - block.length) 0), [])
    else (hash.state, block)
  transform state (block ++ List.replicate (56 - block.length) 0 ++ (Bytes.toLe 8 hash.bitLength.toNat).reverse)

def final (hash : Sha256) : List UInt8 :=
  let s := hash.finalState
  [s.a, s.b, s.c, s.d, s.e, s.f, s.g, s.h].flatMap hexWord

end Sha256

/-- `FileSha256` -/
def fileSha256 (contents : List UInt8) : List UInt8 := (Sha256.update {} contents).final

end LlamaLogits

end Dyninfer
