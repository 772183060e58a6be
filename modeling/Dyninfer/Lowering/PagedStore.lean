/-
How a fused paged attention layer writes a chunk's K/V rows
(`lowering/dense_decoder.rs`: `paged_fused_attn_ops`, `emit_paged_layer_store`,
`emit_paged_page_clone`).

The packed planes are `num_pages` pages of `page` rows. A chunk of `seq` rows
at position `start` is stored by a fixed number of page writes: write `w` takes
page `page_lo + w`, clamped to the last page, overlays the rows of the chunk
that fall in it, and the pages written are then inserted one after another.
Since clamped writes may meet on a page, each takes over the last earlier
write to its page. The attention walk reads each page through the first write
to it.

A plane is the list of its rows, a `Row` being the K row and the V row of one
position in the storage type, a `Tok` the same in the chunk's type; the
emitted loops over planes, heads and dimensions treat every element alike.
Positions and page indices stay far below `2 ^ 64`, so they are naturals.
-/
import Dyninfer.Core.Types
import Dyninfer.Lib.Rows

namespace Dyninfer

open Rows

/-- `paged_max_writes`, in `u32`. -/
def pagedMaxWrites (seq page : Nat) : Nat :=
  max (min ((seq + page - 1) / page + 1) u32Max) 1

/-- The static shape of a chunk function, and the chunk an invocation presents: its first position
and how many of its rows are real. -/
structure PagedChunk where
  seq : Nat
  page : Nat
  numPages : Nat
  start : Nat
  valid : Nat
  deriving DecidableEq, Repr

namespace PagedChunk

variable {Tok Row : Type} (c : PagedChunk)

def nlast : Nat := c.numPages - 1

def pageLo : Nat := c.start / c.page

/-- The page write `w` goes to. -/
def writePage (w : Nat) : Nat := min (c.pageLo + w) c.nlast

/-- `hist_pages`: how many pages the attention walk takes. -/
def histPages : Nat := min ((c.start + c.valid + c.page - 1) / c.page) c.numPages

/-- `packed_extract`: a page of the packed planes. -/
def packedExtract (kv : List Row) (pi : Nat) : List Row := extractSlice kv (pi * c.page) c.page

/-- `layer_store`: the page with the chunk's rows laid over it. The index into the chunk is clamped,
so that the read is within it also where its value is not used. -/
def layerStore (narrow : Tok → Row) (chunk : List Tok) (kv : List Row) (pi : Nat) : List Row :=
  let pageStart := pi * c.page
  let pageEnd := pageStart + c.page
  let chunkEnd := c.start + c.valid
  if pageStart < chunkEnd ∧ c.start < pageEnd then
    kv.mapIdx fun pp old =>
      let abs := pageStart + pp
      let hit := c.start ≤ abs ∧ abs < chunkEnd
      let si := min (if hit then abs - c.start else 0) (c.seq - 1)
      if hit then (chunk[si]?.map narrow).getD old else old
  else kv

/-- What a write to page `pi` starts from: the old page, or what the last earlier write to that page
left. -/
def writeSource (pi : Nat) (old : List Row) (written : List (Nat × List Row)) : List Row :=
  written.foldl (fun src prev => if pi = prev.1 then prev.2 else src) old

/-- The pages the first `n` writes leave, in order. -/
def writes (narrow : Tok → Row) (chunk : List Tok) (kv : List Row) : Nat → List (Nat × List Row)
  | 0 => []
  | w + 1 =>
    let written := writes narrow chunk kv w
    let pi := c.writePage w
    let src := writeSource pi (c.packedExtract kv pi) written
    written ++ [(pi, c.layerStore narrow chunk src pi)]

/-- All the writes of the chunk function. -/
def allWrites (narrow : Tok → Row) (chunk : List Tok) (kv : List Row) : List (Nat × List Row) :=
  c.writes narrow chunk kv (pagedMaxWrites c.seq c.page)

/-- The page the attention walk takes at `pi`: of the first write to it, else the old one. -/
def select (pi : Nat) (old : List Row) : List (Nat × List Row) → List Row
  | [] => old
  | write :: rest => if pi = write.1 then write.2 else select pi old rest

/-- The sequence of `insert_slice`s that makes the new planes. -/
def pack (kv : List Row) (written : List (Nat × List Row)) : List Row :=
  written.foldl (fun kv write => insertSlice write.2 kv (write.1 * c.page)) kv

/-- The planes a chunk function returns. -/
def packed (narrow : Tok → Row) (chunk : List Tok) (kv : List Row) : List Row :=
  c.pack kv (c.allWrites narrow chunk kv)

/-- The page the walk of a chunk function takes at `pi`. -/
def walkPage (narrow : Tok → Row) (chunk : List Tok) (kv : List Row) (pi : Nat) : List Row :=
  select pi (c.packedExtract kv pi) (c.allWrites narrow chunk kv)

end PagedChunk

end Dyninfer
