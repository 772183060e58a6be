/-
The page writes of a chunk against a plain overwrite of its rows.

`stored` is the purpose: the planes with the chunk's valid rows at its
positions. Laying the chunk over a page of the old planes or of `stored` gives
`stored`'s page, so every write, whatever it takes over, leaves a page of
`stored`; hence it does not matter that clamped writes meet on a page, nor
which of them the walk or the last insert picks. The writes reach every page
the chunk's rows fall in, so the pages they leave out are already `stored`'s.
-/
import Dyninfer.Lowering.PagedStore

namespace Dyninfer.PagedChunk

open Rows

variable {Tok Row : Type} {c : PagedChunk} {narrow : Tok → Row} {chunk : List Tok} {kv : List Row}

/-- The chunk's rows, valid ones, lie within the planes. -/
structure Fits (c : PagedChunk) : Prop where
  page_pos : 1 ≤ c.page
  valid_pos : 1 ≤ c.valid
  valid_le : c.valid ≤ c.seq
  seq_le : c.seq ≤ u32Max
  room : c.start + c.valid ≤ c.numPages * c.page

/-- The planes with the chunk's valid rows written at its positions. -/
def stored (c : PagedChunk) (narrow : Tok → Row) (chunk : List Tok) (kv : List Row) : List Row :=
  kv.mapIdx fun r old =>
    if c.start ≤ r ∧ r < c.start + c.valid then (chunk[r - c.start]?.map narrow).getD old else old

@[simp] theorem length_stored : (c.stored narrow chunk kv).length = kv.length := by
  simp [stored]

theorem getElem?_stored (r : Nat) :
    (c.stored narrow chunk kv)[r]? =
      kv[r]?.map fun old =>
        if c.start ≤ r ∧ r < c.start + c.valid then (chunk[r - c.start]?.map narrow).getD old else old := by
  rw [stored, List.getElem?_mapIdx]

theorem getElem?_packedExtract (pi i : Nat) :
    (c.packedExtract kv pi)[i]? = if i < c.page then kv[pi * c.page + i]? else none :=
  getElem?_extractSlice _ _ _ _

/-- A row of a page after the chunk was laid over it. -/
theorem getElem?_layerStore (hfits : c.Fits) (page : List Row) (pi i : Nat) (hi : i < c.page) :
    (c.layerStore narrow chunk page pi)[i]? =
      page[i]?.map fun old =>
        if c.start ≤ pi * c.page + i ∧ pi * c.page + i < c.start + c.valid then
          (chunk[pi * c.page + i - c.start]?.map narrow).getD old
        else old := by
  have hle := hfits.valid_le
  unfold layerStore
  simp only
  split
  · rw [List.getElem?_mapIdx]
    congr 1
    funext old
    split
    · next hhit => rw [Nat.min_eq_left (by omega)]
    · rfl
  · next hoff =>
    have hmiss : ¬ (c.start ≤ pi * c.page + i ∧ pi * c.page + i < c.start + c.valid) := by omega
    simp only [if_neg hmiss, Option.map_id']

/-- Laid over a page of the old planes, the chunk gives the page of `stored`. -/
theorem layerStore_old (hfits : c.Fits) (pi : Nat) :
    c.layerStore narrow chunk (c.packedExtract kv pi) pi = c.packedExtract (c.stored narrow chunk kv) pi := by
  apply List.ext_getElem?
  intro i
  rw [getElem?_packedExtract, getElem?_stored]
  by_cases hi : i < c.page
  · rw [getElem?_layerStore hfits _ _ _ hi, getElem?_packedExtract, if_pos hi, if_pos hi]
  · rw [if_neg hi, List.getElem?_eq_none]
    unfold layerStore packedExtract
    simp only
    split <;> simp only [List.length_mapIdx, length_extractSlice] <;> omega

/-- Laid over a page that has it already, the chunk changes nothing. -/
theorem layerStore_stored (hfits : c.Fits) (pi : Nat) :
    c.layerStore narrow chunk (c.packedExtract (c.stored narrow chunk kv) pi) pi =
      c.packedExtract (c.stored narrow chunk kv) pi := by
  rw [layerStore_old hfits]
  congr 1
  apply List.ext_getElem?
  intro r
  rw [getElem?_stored, getElem?_stored, Option.map_map]
  congr 1
  funext old
  simp only [Function.comp]
  split
  · cases chunk[r - c.start]? <;> rfl
  · rfl

/-! ## What the writes leave -/

/-- Pages of one set of planes, each at an index below `n`. -/
def PagesOf (c : PagedChunk) (n : Nat) (planes : List Row) (written : List (Nat × List Row)) : Prop :=
  ∀ write ∈ written, write.1 < n ∧ write.2 = c.packedExtract planes write.1

/-- What a write starts from is a page of the old planes or one an earlier write left. -/
theorem writeSource_cases (pi : Nat) (old : List Row) (written : List (Nat × List Row)) :
    writeSource pi old written = old ∨ ∃ write ∈ written, write.1 = pi ∧ writeSource pi old written = write.2 := by
  unfold writeSource
  induction written generalizing old with
  | nil => exact .inl rfl
  | cons write rest ih =>
    rw [List.foldl_cons]
    rcases ih (if pi = write.1 then write.2 else old) with h | ⟨write', hmem, hpi, h⟩
    · split at h
      · next heq => exact .inr ⟨write, List.mem_cons_self, heq.symm, by rw [if_pos heq]; exact h⟩
      · next hne => exact .inl (by rw [if_neg hne]; exact h)
    · exact .inr ⟨write', List.mem_cons_of_mem _ hmem, hpi, h⟩

theorem Fits.numPages_pos (hfits : c.Fits) : 1 ≤ c.numPages := by
  have hroom := hfits.room
  have hvalid := hfits.valid_pos
  rcases Nat.eq_zero_or_pos c.numPages with h | h
  · rw [h, Nat.zero_mul] at hroom
    omega
  · exact h

/-- Wherever the chunk lies, the writes leave whole pages of the planes. -/
theorem writes_whole (hpages : 1 ≤ c.numPages) (hkv : kv.length = c.numPages * c.page) (n : Nat) :
    ∀ write ∈ c.writes narrow chunk kv n, write.1 < c.numPages ∧ write.2.length = c.page := by
  induction n with
  | zero => exact fun write hw => absurd hw List.not_mem_nil
  | succ w ih =>
    intro write hw
    rw [writes] at hw
    rcases List.mem_append.1 hw with hw | hw
    · exact ih write hw
    · obtain rfl := List.mem_singleton.1 hw
      have hlt : c.writePage w < c.numPages := by simp only [writePage, nlast]; omega
      refine ⟨hlt, ?_⟩
      have hsrc : (writeSource (c.writePage w) (c.packedExtract kv (c.writePage w))
          (c.writes narrow chunk kv w)).length = c.page := by
        rcases writeSource_cases (c.writePage w) (c.packedExtract kv (c.writePage w)) (c.writes narrow chunk kv w)
          with h | ⟨prev, hmem, -, h⟩ <;> rw [h]
        · have hroom := Nat.mul_le_mul_right c.page hlt
          rw [Nat.succ_mul] at hroom
          rw [packedExtract, length_extractSlice, hkv]
          omega
        · exact (ih prev hmem).2
      unfold layerStore
      simp only
      split
      · rw [List.length_mapIdx, hsrc]
      · exact hsrc

/-- Wherever the chunk lies, the planes returned are as long as the old ones. -/
theorem length_packed (hpages : 1 ≤ c.numPages) (hkv : kv.length = c.numPages * c.page) :
    (c.packed narrow chunk kv).length = c.numPages * c.page := by
  have key : ∀ (written : List (Nat × List Row)) (kv : List Row), kv.length = c.numPages * c.page →
      (∀ write ∈ written, write.1 < c.numPages ∧ write.2.length = c.page) →
      (c.pack kv written).length = c.numPages * c.page := by
    intro written
    induction written with
    | nil => intro kv hkv _; exact hkv
    | cons write rest ih =>
      intro kv hkv h
      obtain ⟨hlt, hlen⟩ := h write List.mem_cons_self
      have hroom := Nat.mul_le_mul_right c.page hlt
      rw [Nat.succ_mul] at hroom
      refine ih _ ?_ fun write' hmem => h write' (List.mem_cons_of_mem _ hmem)
      rw [length_insertSlice (by rw [hlen, hkv]; exact hroom), hkv]
  exact key _ _ hkv (writes_whole hpages hkv _)

/-- Every write leaves a page of `stored`. -/
theorem writes_pagesOf (hfits : c.Fits) (n : Nat) :
    PagesOf c c.numPages (c.stored narrow chunk kv) (c.writes narrow chunk kv n) := by
  have hpages := hfits.numPages_pos
  induction n with
  | zero => exact fun write hw => absurd hw List.not_mem_nil
  | succ w ih =>
    intro write hw
    rw [writes] at hw
    rcases List.mem_append.1 hw with hw | hw
    · exact ih write hw
    · obtain rfl := List.mem_singleton.1 hw
      refine ⟨by simp only [writePage, nlast]; omega, ?_⟩
      rcases writeSource_cases (c.writePage w) (c.packedExtract kv (c.writePage w)) (c.writes narrow chunk kv w)
        with h | ⟨prev, hmem, hpi, h⟩
      · simp only [h, layerStore_old hfits]
      · have hprev := (ih prev hmem).2
        rw [hpi] at hprev
        simp only [h, hprev, layerStore_stored hfits]

theorem map_fst_writes (n : Nat) :
    (c.writes narrow chunk kv n).map Prod.fst = (List.range n).map c.writePage := by
  induction n with
  | zero => rfl
  | succ w ih => rw [writes, List.map_append, ih, List.range_succ, List.map_append]; rfl

/-- The writes are as many as the chunk's rows can need pages. -/
theorem lt_maxWrites (hfits : c.Fits) {r : Nat} (hr : c.start ≤ r) (hr' : r < c.start + c.valid) :
    r / c.page - c.pageLo < pagedMaxWrites c.seq c.page := by
  obtain ⟨hpage, -, hvalid, hseq, -⟩ := hfits
  have hdiff : r / c.page ≤ c.pageLo + (c.seq + c.page - 1) / c.page := by
    have hmono : r / c.page ≤ (c.start + (c.seq - 1)) / c.page := Nat.div_le_div_right (by omega)
    have hadd : (c.start + (c.seq - 1)) / c.page ≤ c.start / c.page + (c.seq + c.page - 1) / c.page := by
      have h1 := Nat.div_add_mod c.start c.page
      have h2 := Nat.mod_lt c.start hpage
      have h3 : c.start + (c.seq - 1) < (c.start / c.page + (c.seq + c.page - 1) / c.page + 1) * c.page := by
        have h4 := Nat.lt_div_mul_add (a := c.seq + c.page - 1) hpage
        rw [Nat.add_mul, Nat.add_mul, Nat.one_mul]
        rw [Nat.mul_comm] at h1
        omega
      exact Nat.lt_succ_iff.1 ((Nat.div_lt_iff_lt_mul hpage).2 h3)
    exact Nat.le_trans hmono hadd
  unfold pagedMaxWrites
  by_cases hsat : (c.seq + c.page - 1) / c.page + 1 ≤ u32Max
  · rw [Nat.min_eq_left hsat]
    omega
  · -- The count saturates for pages of one row alone, where a row needs no page beyond its own.
    have hone : c.page = 1 := by
      refine Classical.byContradiction fun hne => hsat ?_
      have hmax : 2 ≤ u32Max := by decide
      obtain ⟨q, hq⟩ : ∃ q, c.page = q + 2 := ⟨c.page - 2, by omega⟩
      have hmul : q ≤ u32Max * q := Nat.le_mul_of_pos_left _ (by omega)
      refine (Nat.div_lt_iff_lt_mul hpage).2 ?_
      rw [hq, Nat.mul_add]
      omega
    have hrow : r / c.page - c.pageLo < c.seq := by
      rw [pageLo, hone, Nat.div_one, Nat.div_one]
      omega
    refine Nat.lt_of_lt_of_le hrow (Nat.le_trans ?_ (Nat.le_max_left _ _))
    rw [hone, Nat.add_sub_cancel, Nat.div_one]
    exact Nat.le_min.2 ⟨Nat.le_succ _, hseq⟩

/-- A row of the chunk lies in a page that is written. -/
theorem exists_write (hfits : c.Fits) {r : Nat} (hr : c.start ≤ r) (hr' : r < c.start + c.valid) :
    r / c.page ∈ (c.allWrites narrow chunk kv).map Prod.fst := by
  have hlo : c.pageLo ≤ r / c.page := Nat.div_le_div_right hr
  have hlast : r / c.page < c.numPages :=
    (Nat.div_lt_iff_lt_mul hfits.page_pos).2 (Nat.lt_of_lt_of_le hr' hfits.room)
  rw [allWrites, map_fst_writes, List.mem_map]
  refine ⟨r / c.page - c.pageLo, List.mem_range.2 (lt_maxWrites hfits hr hr'), ?_⟩
  rw [writePage, nlast]
  omega

/-- A page no write goes to is `stored`'s already. -/
theorem unwritten_page (hfits : c.Fits) {pi : Nat}
    (h : pi ∉ (c.allWrites narrow chunk kv).map Prod.fst) :
    c.packedExtract kv pi = c.packedExtract (c.stored narrow chunk kv) pi := by
  apply List.ext_getElem?
  intro i
  rw [getElem?_packedExtract, getElem?_packedExtract, getElem?_stored]
  split
  · next hi =>
    have hmiss : ¬ (c.start ≤ pi * c.page + i ∧ pi * c.page + i < c.start + c.valid) := by
      intro hhit
      have hpi : (pi * c.page + i) / c.page = pi := by
        rw [Nat.mul_comm, Nat.mul_add_div hfits.page_pos, Nat.div_eq_of_lt hi, Nat.add_zero]
      exact h (hpi ▸ exists_write hfits hhit.1 hhit.2)
    simp only [if_neg hmiss, Option.map_id']
  · rfl

/-! ## The walk and the pack -/

/-- Whichever write is picked, what is taken of pages of one set of planes is its page. -/
theorem select_pagesOf {n : Nat} {planes old : List Row} {written : List (Nat × List Row)} {pi : Nat}
    (h : PagesOf c n planes written)
    (hold : pi ∉ written.map Prod.fst → old = c.packedExtract planes pi) :
    select pi old written = c.packedExtract planes pi := by
  induction written with
  | nil => exact hold List.not_mem_nil
  | cons write rest ih =>
    rw [select]
    split
    · next heq => rw [(h write List.mem_cons_self).2, heq]
    · next hne =>
      refine ih (fun write' hmem => h write' (List.mem_cons_of_mem _ hmem)) fun hrest => hold ?_
      rw [List.map_cons, List.mem_cons, not_or]
      exact ⟨hne, hrest⟩

theorem pack_cons (kv : List Row) (write : Nat × List Row) (rest : List (Nat × List Row)) :
    c.pack kv (write :: rest) = c.pack (insertSlice write.2 kv (write.1 * c.page)) rest := rfl

/-- Inserting pages of one set of planes gives its rows in those pages, and the old ones elsewhere. -/
theorem pack_pagesOf (hpage : 1 ≤ c.page) {planes : List Row} (hplanes : planes.length = c.numPages * c.page)
    (written : List (Nat × List Row)) : ∀ kv : List Row, kv.length = c.numPages * c.page →
      PagesOf c c.numPages planes written →
      (c.pack kv written).length = c.numPages * c.page ∧
        ∀ r : Nat, (c.pack kv written)[r]? = if r / c.page ∈ written.map Prod.fst then planes[r]? else kv[r]? := by
  induction written with
  | nil => intro kv hkv _; exact ⟨hkv, fun r => by simp [pack]⟩
  | cons write rest ih =>
    intro kv hkv h
    obtain ⟨hlt, hpg⟩ := h write List.mem_cons_self
    have hroom : write.1 * c.page + c.page ≤ c.numPages * c.page := by
      rw [← Nat.succ_mul]
      exact Nat.mul_le_mul_right _ hlt
    have hlen : write.2.length = c.page := by
      rw [hpg, packedExtract, length_extractSlice, hplanes]
      omega
    have hfit : write.1 * c.page + write.2.length ≤ kv.length := by rw [hlen, hkv]; exact hroom
    have hins := getElem?_insertSlice hfit
    rw [pack_cons]
    obtain ⟨hlen', hrows⟩ := ih (insertSlice write.2 kv (write.1 * c.page))
      (by rw [length_insertSlice (by rw [hlen, hkv]; exact hroom), hkv])
      (fun write' hmem => h write' (List.mem_cons_of_mem _ hmem))
    refine ⟨hlen', fun r => ?_⟩
    rw [hrows r, hins r, List.map_cons, hlen]
    by_cases hrest : r / c.page ∈ rest.map Prod.fst
    · rw [if_pos hrest, if_pos (List.mem_cons_of_mem _ hrest)]
    · rw [if_neg hrest]
      by_cases hin : r / c.page = write.1
      · -- The row is in the page this write inserts.
        have h1 := Nat.div_add_mod r c.page
        have h2 := Nat.mod_lt r hpage
        rw [hin, Nat.mul_comm] at h1
        rw [if_pos (by omega), if_pos (hin ▸ List.mem_cons_self), hpg, getElem?_packedExtract, if_pos (by omega)]
        congr 1
        omega
      · have hout : ¬ (write.1 * c.page ≤ r ∧ r < write.1 * c.page + c.page) := by
          intro ⟨hlo, hhi⟩
          exact hin (Nat.div_eq_of_lt_le hlo (by rw [Nat.succ_mul]; exact hhi))
        rw [if_neg hout, if_neg]
        rw [List.mem_cons, not_or]
        exact ⟨hin, hrest⟩

/-- The planes a chunk function returns are the old ones with the chunk's valid rows written. -/
theorem packed_eq_stored (hfits : c.Fits) (hkv : kv.length = c.numPages * c.page) :
    c.packed narrow chunk kv = c.stored narrow chunk kv := by
  have hpages : PagesOf c c.numPages (c.stored narrow chunk kv) (c.allWrites narrow chunk kv) :=
    writes_pagesOf hfits (pagedMaxWrites c.seq c.page)
  obtain ⟨-, hrows⟩ := pack_pagesOf hfits.page_pos (by rw [length_stored, hkv]) _ kv hkv hpages
  apply List.ext_getElem?
  intro r
  rw [packed, hrows r, getElem?_stored]
  split
  · rfl
  · next h =>
    have hmiss : ¬ (c.start ≤ r ∧ r < c.start + c.valid) := fun hhit =>
      h (exists_write hfits hhit.1 hhit.2)
    simp only [if_neg hmiss, Option.map_id']

/-- The page the walk takes is the packed result's. -/
theorem walkPage_eq (hfits : c.Fits) (pi : Nat) :
    c.walkPage narrow chunk kv pi = c.packedExtract (c.stored narrow chunk kv) pi :=
  select_pagesOf (writes_pagesOf hfits _) fun h => unwritten_page hfits h

/-- The walk takes every page below the end of the chunk, within the planes. -/
theorem lt_histPages (hfits : c.Fits) {r : Nat} (hr : r < c.start + c.valid) : r / c.page < c.histPages := by
  have hpage := hfits.page_pos
  have h1 : r / c.page < (c.start + c.valid + c.page - 1) / c.page := by
    have hle : r / c.page + 1 ≤ (c.start + c.valid + c.page - 1) / c.page := by
      rw [Nat.le_div_iff_mul_le hpage, Nat.succ_mul]
      have := Nat.div_mul_le_self r c.page
      omega
    exact hle
  have h2 : r / c.page < c.numPages :=
    (Nat.div_lt_iff_lt_mul hpage).2 (Nat.lt_of_lt_of_le hr hfits.room)
  exact Nat.lt_min.2 ⟨h1, h2⟩

/-- **Paged writes touch exactly the valid rows.** For every chunk that lies within the planes: the
planes returned have the chunk's row `i` at `start + i` for each valid `i`, and every other row as it
was; the attention walk takes each page as it is in the planes returned, and takes every page below the
end of the chunk. -/
theorem paged_writes_exact (hfits : c.Fits) (hkv : kv.length = c.numPages * c.page)
    (hchunk : chunk.length = c.seq) :
    (c.packed narrow chunk kv).length = c.numPages * c.page ∧
      (∀ i < c.valid, (c.packed narrow chunk kv)[c.start + i]? = chunk[i]?.map narrow) ∧
      (∀ r, r < c.start ∨ c.start + c.valid ≤ r → (c.packed narrow chunk kv)[r]? = kv[r]?) ∧
      (∀ pi < c.histPages, c.walkPage narrow chunk kv pi = c.packedExtract (c.packed narrow chunk kv) pi) ∧
      ∀ r < c.start + c.valid, r / c.page < c.histPages := by
  have hroom := hfits.room
  have hvalid := hfits.valid_le
  rw [packed_eq_stored hfits hkv]
  refine ⟨by rw [length_stored, hkv], fun i hi => ?_, fun r hr => ?_, fun pi _ => walkPage_eq hfits pi,
    fun r hr => lt_histPages hfits hr⟩
  · have hkvlt : c.start + i < kv.length := by omega
    have hchunklt : i < chunk.length := by omega
    have hold : kv[c.start + i]? = some kv[c.start + i] := List.getElem?_eq_getElem hkvlt
    have hrow : chunk[i]? = some chunk[i] := List.getElem?_eq_getElem hchunklt
    rw [getElem?_stored, hold, Option.map_some, if_pos (by omega), Nat.add_sub_cancel_left, hrow]
    rfl
  · have hmiss : ¬ (c.start ≤ r ∧ r < c.start + c.valid) := by omega
    simp only [getElem?_stored, if_neg hmiss, Option.map_id']

theorem paged_writes_exact_two :
    (packed ⟨3, 2, 3, 1, 2⟩ (· + 100) [7, 8, 9] [0, 1, 2, 3, 4, 5]) = [0, 107, 108, 3, 4, 5] ∧
      (∀ pi < histPages ⟨3, 2, 3, 1, 2⟩,
        walkPage ⟨3, 2, 3, 1, 2⟩ (· + 100) [7, 8, 9] [0, 1, 2, 3, 4, 5] pi =
          packedExtract ⟨3, 2, 3, 1, 2⟩ (packed ⟨3, 2, 3, 1, 2⟩ (· + 100) [7, 8, 9] [0, 1, 2, 3, 4, 5]) pi) :=
  ⟨by decide, (paged_writes_exact ⟨by decide, by decide, by decide, by decide, by decide⟩ rfl rfl).2.2.2.1⟩

end Dyninfer.PagedChunk
