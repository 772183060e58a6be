/-
Tensors seen as lists of rows, and lists cut into chunks.

A tensor is the list of its slices along one dimension, so a slice of rows is
`drop` then `take`, writing rows back is an overwrite of the same length, and
what the last `k` rows of a growing sequence are is `trailing`. Nothing here
names a program: `α` is whatever a row is.
-/
namespace Rows

variable {α : Type}

/-- `len` rows of `t` from row `off` on. -/
def extractSlice (t : List α) (off len : Nat) : List α :=
  (t.drop off).take len

/-- `t` with the rows from `off` on overwritten by the rows of `src`. -/
def insertSlice (src t : List α) (off : Nat) : List α :=
  t.take off ++ src ++ t.drop (off + src.length)

@[simp] theorem length_extractSlice (t : List α) (off len : Nat) :
    (extractSlice t off len).length = min len (t.length - off) := by
  simp [extractSlice]

theorem getElem?_extractSlice (t : List α) (off len i : Nat) :
    (extractSlice t off len)[i]? = if i < len then t[off + i]? else none := by
  simp [extractSlice, List.getElem?_take, List.getElem?_drop]

/-- All the rows from `off` on. -/
theorem extractSlice_eq_drop {t : List α} {off len : Nat} (h : t.length ≤ off + len) :
    extractSlice t off len = t.drop off := by
  rw [extractSlice, List.take_of_length_le (by rw [List.length_drop]; omega)]

theorem extractSlice_all {t : List α} {len : Nat} (h : t.length ≤ len) : extractSlice t 0 len = t := by
  rw [extractSlice_eq_drop (by omega), List.drop_zero]

theorem length_insertSlice {src t : List α} {off : Nat} (h : off + src.length ≤ t.length) :
    (insertSlice src t off).length = t.length := by
  simp only [insertSlice, List.length_append, List.length_take, List.length_drop]
  omega

/-- A row of the overwritten tensor is the source's inside the range, the old one outside. -/
theorem getElem?_insertSlice {src t : List α} {off : Nat} (h : off + src.length ≤ t.length) (i : Nat) :
    (insertSlice src t off)[i]? =
      if off ≤ i ∧ i < off + src.length then src[i - off]? else t[i]? := by
  have hoff : (t.take off).length = off := by rw [List.length_take]; omega
  unfold insertSlice
  rw [List.append_assoc, List.getElem?_append]
  split
  · rename_i hlt
    rw [hoff] at hlt
    rw [List.getElem?_take_of_lt hlt, if_neg (by omega)]
  · rename_i hge
    rw [hoff] at hge ⊢
    rw [List.getElem?_append]
    split
    · rw [if_pos (by omega)]
    · rw [List.getElem?_drop, if_neg (by omega)]
      congr 1
      omega

/-- An insertion behind the first rows, without them. -/
theorem drop_insertSlice {src t : List α} {n off : Nat} (h : n + off ≤ t.length) :
    (insertSlice src t (n + off)).drop n = insertSlice src (t.drop n) off := by
  have hlen : n ≤ (t.take (n + off)).length := by
    rw [List.length_take_of_le h]
    omega
  rw [insertSlice, insertSlice, List.append_assoc, List.append_assoc, List.drop_append_of_le_length hlen, List.drop_take,
    Nat.add_sub_cancel_left, List.drop_drop, Nat.add_assoc]

/-- Two writes that fill a buffer: a prefix, and what follows it. -/
theorem insertSlice_prefix_suffix (z : α) (pre suf : List α) {n : Nat} (h : n = pre.length + suf.length) :
    insertSlice suf (insertSlice pre (List.replicate n z) 0) pre.length = pre ++ suf := by
  have hn : pre.length ≤ n := by omega
  simp [insertSlice, List.drop_append, h]

/-! ## Masks -/

/-- The rows a mask over row indices leaves visible, in order. -/
def keep (visible : Nat → Bool) (t : List α) : List α :=
  (t.zipIdx.filter fun r => visible r.2).map Prod.fst

/-- A mask that hides everything from row `n` on. -/
theorem keep_lt {visible : Nat → Bool} {n : Nat} (t : List α)
    (h : ∀ i < t.length, visible i = decide (i < n)) : keep visible t = t.take n := by
  have key : ∀ (t : List α) (i : Nat), ((t.zipIdx i).filter fun r => decide (r.2 < n)).map Prod.fst = t.take (n - i) := by
    intro t
    induction t with
    | nil => intro i; simp
    | cons a t ih =>
      intro i
      rw [List.zipIdx_cons, List.filter_cons]
      by_cases hi : i < n
      · rw [if_pos (by simpa using hi), List.map_cons, ih, show n - i = (n - (i + 1)) + 1 by omega,
          List.take_succ_cons]
      · rw [if_neg (by simpa using hi), ih, show n - (i + 1) = 0 by omega, show n - i = 0 by omega,
          List.take_zero, List.take_zero]
  have hfilter : t.zipIdx.filter (fun r => visible r.2) = t.zipIdx.filter fun r => decide (r.2 < n) := by
    refine List.filter_congr fun r hr => h r.2 ?_
    have := List.snd_lt_of_mem_zipIdx hr
    omega
  rw [keep, hfilter, key t 0, Nat.sub_zero]

/-- The visible rows by their indices. -/
theorem keep_ofFn {n : Nat} (visible : Nat → Bool) (f : Fin n → α) :
    keep visible (List.ofFn f) = ((List.finRange n).filter fun (p : Fin n) => visible p).map f := by
  have hzip : (List.ofFn f).zipIdx = (List.finRange n).map fun p => (f p, (p : Nat)) :=
    List.ext_getElem (by simp) fun r _ _ => by simp
  rw [keep, hzip, List.filter_map, List.map_map]
  rfl

theorem keep_eq_finRange (visible : Nat → Bool) (t : List α) :
    keep visible t = ((List.finRange t.length).filter fun (p : Fin t.length) => visible p).map t.get := by
  rw [← keep_ofFn]
  exact congrArg (keep visible) List.ofFn_getElem.symm

/-- A mask that hides the first rows. -/
theorem keep_drop {n : Nat} : ∀ {visible : Nat → Bool} {t : List α}, (∀ i < n, visible i = false) →
    keep visible t = keep (fun i => visible (i + n)) (t.drop n) := by
  induction n with
  | zero => exact fun _ => rfl
  | succ n ih =>
    intro visible t h
    cases t with
    | nil => rfl
    | cons a t =>
      have htail : keep visible (a :: t) = keep (fun i => visible (i + 1)) t := by
        unfold keep
        rw [List.zipIdx_cons, List.filter_cons, h 0 (Nat.succ_pos n), if_neg Bool.false_ne_true, List.zipIdx_succ,
          List.filter_map, List.map_map]
        rfl
      rw [htail, ih fun i hi => h (i + 1) (Nat.succ_lt_succ hi), List.drop_succ_cons]
      simp only [Nat.add_assoc]

/-- A mask that leaves the first row leaves a row. -/
theorem keep_ne_nil {visible : Nat → Bool} {t : List α} (ht : t ≠ []) (h : visible 0 = true) : keep visible t ≠ [] := by
  cases t with
  | nil => exact absurd rfl ht
  | cons a t => simp [keep, List.zipIdx_cons, h]

/-- The rows of the first `n` pages, one page after another. -/
theorem flatMap_pages (p : Nat) (t : List α) (n : Nat) :
    (List.range n).flatMap (fun i => extractSlice t (i * p) p) = t.take (n * p) := by
  induction n with
  | zero => simp
  | succ n ih =>
    rw [List.range_succ, List.flatMap_append, ih, List.flatMap_singleton, extractSlice, Nat.succ_mul, List.take_add]

/-- The same of the rows below row `m`. -/
theorem flatMap_pages_take (p : Nat) (t : List α) (n m : Nat) :
    (List.range n).flatMap (fun i => (extractSlice t (i * p) p).take (m - i * p)) = t.take (min m (n * p)) := by
  have hpage : ∀ i, (extractSlice t (i * p) p).take (m - i * p) = extractSlice (t.take m) (i * p) p := by
    intro i
    rw [extractSlice, extractSlice, List.drop_take, List.take_take, List.take_take, Nat.min_comm]
  simp only [hpage]
  rw [flatMap_pages, List.take_take, Nat.min_comm]

/-! ## The last rows -/

/-- The last `k` rows of `t`. -/
def lastRows (k : Nat) (t : List α) : List α :=
  t.drop (t.length - k)

/-- The last `k` rows of a sequence that is preceded by rows `z` without end. -/
def trailing (k : Nat) (z : α) (xs : List α) : List α :=
  lastRows k (List.replicate k z ++ xs)

@[simp] theorem length_lastRows (k : Nat) (t : List α) : (lastRows k t).length = min k t.length := by
  simp only [lastRows, List.length_drop]
  omega

@[simp] theorem length_trailing (k : Nat) (z : α) (xs : List α) : (trailing k z xs).length = k := by
  simp [trailing]

@[simp] theorem trailing_nil (k : Nat) (z : α) : trailing k z [] = List.replicate k z := by
  simp [trailing, lastRows]

theorem lastRows_append_right {k : Nat} {s t : List α} (h : k ≤ t.length) :
    lastRows k (s ++ t) = lastRows k t := by
  simp only [lastRows, List.length_append]
  rw [List.drop_append, List.drop_of_length_le (by omega), List.nil_append]
  congr 1
  omega

theorem lastRows_lastRows_append (k : Nat) (s t : List α) :
    lastRows k (lastRows k s ++ t) = lastRows k (s ++ t) := by
  simp only [lastRows, List.length_append, List.length_drop, List.drop_append, List.drop_drop]
  congr 1 <;> congr 1 <;> omega

/-- The last `k` rows are known from the last `k` rows before and what follows. -/
theorem trailing_append (k : Nat) (z : α) (xs ys : List α) :
    trailing k z (xs ++ ys) = lastRows k (trailing k z xs ++ ys) := by
  simp only [trailing]
  rw [lastRows_lastRows_append, List.append_assoc]

/-- The last row of a window of at least one row is the sequence's last. -/
theorem trailing_getLast? {k : Nat} (hk : 0 < k) (z : α) {xs : List α} (hx : xs ≠ []) :
    (trailing k z xs).getLast? = xs.getLast? := by
  have hlen : 0 < xs.length := List.length_pos_iff.2 hx
  rw [trailing, lastRows, List.getLast?_drop, List.length_append, List.length_replicate,
    if_neg (by omega), List.getLast?_append]
  cases h : xs.getLast? with
  | none => exact absurd (List.getLast?_eq_none_iff.1 h) hx
  | some x => rfl

theorem trailing_eq_drop (k : Nat) (z : α) (xs : List α) :
    trailing k z xs = (List.replicate k z ++ xs).drop xs.length := by
  rw [trailing, lastRows, List.length_append, List.length_replicate, Nat.add_sub_cancel_left]

/-- Without its oldest row, a window of `k` rows followed by `ys` is the whole padded sequence from
where the window's rows begin. -/
theorem drop_one_trailing_append {k : Nat} (hk : 0 < k) (z : α) (xs ys : List α) :
    (trailing k z xs).drop 1 ++ ys = (List.replicate (k - 1) z ++ (xs ++ ys)).drop xs.length := by
  obtain ⟨k, rfl⟩ : ∃ k', k = k' + 1 := ⟨k - 1, by omega⟩
  have hdrop : (trailing (k + 1) z xs).drop 1 = (List.replicate k z ++ xs).drop xs.length := by
    rw [trailing_eq_drop, List.drop_drop, List.replicate_succ, List.cons_append, List.drop_succ_cons]
  rw [hdrop, Nat.add_sub_cancel, ← List.append_assoc]
  exact (List.drop_append_of_le_length (by simp)).symm

/-! ## Chunks -/

/-- How many chunks of `c` rows cover `n` rows. -/
def chunkCount (c n : Nat) : Nat :=
  (n + c - 1) / c

/-- `l` cut into chunks of `c` elements, the last one possibly shorter. -/
def chunks (c : Nat) (l : List α) : List (List α) :=
  (List.range (chunkCount c l.length)).map fun i => extractSlice l (i * c) c

@[simp] theorem length_chunks (c : Nat) (l : List α) : (chunks c l).length = chunkCount c l.length := by
  simp [chunks]

theorem lt_chunkCount {c n i : Nat} (hc : 0 < c) : i < chunkCount c n ↔ i * c < n := by
  rw [chunkCount, Nat.lt_iff_add_one_le, Nat.le_div_iff_mul_le hc, Nat.add_mul]
  omega

theorem getElem?_chunks {c : Nat} (hc : 0 < c) (l : List α) (i : Nat) :
    (chunks c l)[i]? = if i * c < l.length then some (extractSlice l (i * c) c) else none := by
  simp only [chunks, List.getElem?_map, ← lt_chunkCount hc]
  split
  · rename_i h; simp [h]
  · rename_i h; simp [h]

@[simp] theorem chunks_nil (c : Nat) : chunks c ([] : List α) = [] := by
  have h : chunkCount c 0 = 0 := by
    unfold chunkCount
    rcases Nat.eq_zero_or_pos c with rfl | h
    · rfl
    · exact Nat.div_eq_of_lt (by omega)
  simp [chunks, h]

/-- The first chunk, then the chunks of the rest. -/
theorem chunks_cons {c : Nat} (hc : 0 < c) {l : List α} (hl : l ≠ []) :
    chunks c l = l.take c :: chunks c (l.drop c) := by
  have hpos : 0 < l.length := List.length_pos_iff.2 hl
  apply List.ext_getElem?
  intro i
  rw [getElem?_chunks hc]
  cases i with
  | zero => simp [hpos, extractSlice]
  | succ i =>
    rw [List.getElem?_cons_succ, getElem?_chunks hc, List.length_drop, Nat.succ_mul]
    by_cases h : i * c + c < l.length
    · rw [if_pos h, if_pos (by omega), extractSlice, extractSlice, List.drop_drop, Nat.add_comm c]
    · rw [if_neg h, if_neg (by omega)]

/-- A property of the chunks of every list: of none, and of a first chunk and the chunks after it. -/
theorem chunks_induction {c : Nat} (hc : 0 < c) {motive : List α → Prop} (nil : motive [])
    (cons : ∀ l, l ≠ [] → motive (l.drop c) → motive l) (l : List α) : motive l := by
  induction hn : l.length using Nat.strongRecOn generalizing l with
  | ind n ih =>
    by_cases hl : l = []
    · exact hl ▸ nil
    · have hpos : 0 < l.length := List.length_pos_iff.2 hl
      exact cons l hl (ih _ (by rw [List.length_drop]; omega) _ rfl)

/-- The chunks put end to end are the list. -/
theorem flatten_chunks {c : Nat} (hc : 0 < c) (l : List α) : (chunks c l).flatten = l := by
  induction l using chunks_induction hc with
  | nil => simp
  | cons l hl ih => rw [chunks_cons hc hl, List.flatten_cons, ih, List.take_append_drop]

/-! ## Whole chunks -/

/-- `slice::chunks_exact`: the chunks of `c` elements, without the rest. -/
def chunksExact (c : Nat) (l : List α) : List (List α) :=
  (List.range (l.length / c)).map fun i => (l.drop (i * c)).take c

theorem getElem?_chunksExact {c i : Nat} {l : List α} (h : i < l.length / c) :
    (chunksExact c l)[i]? = some ((l.drop (i * c)).take c) := by
  simp [chunksExact, List.getElem?_range h]

theorem length_of_mem_chunksExact {c : Nat} (hc : 0 < c) {l chunk : List α} (h : chunk ∈ chunksExact c l) :
    chunk.length = c := by
  obtain ⟨i, hi, rfl⟩ := List.mem_map.mp h
  rw [List.mem_range, Nat.lt_iff_add_one_le, Nat.le_div_iff_mul_le hc, Nat.succ_mul] at hi
  rw [List.length_take, List.length_drop]
  omega

/-- An element of what chunks of equal length put end to end. -/
theorem getElem?_flatMap_of_length {β : Type} {f : α → List β} {c : Nat} {l : List α} (hf : ∀ a ∈ l, (f a).length = c)
    {i r : Nat} {a : α} (ha : l[i]? = some a) (hr : r < c) : (l.flatMap f)[i * c + r]? = (f a)[r]? := by
  induction l generalizing i with
  | nil => cases ha
  | cons b l ih =>
    rw [List.forall_mem_cons] at hf
    rw [List.flatMap_cons]
    cases i with
    | zero =>
      cases ha
      rw [Nat.zero_mul, Nat.zero_add, List.getElem?_append_left (by omega)]
    | succ i =>
      have hskip : (i + 1) * c + r = (f b).length + (i * c + r) := by
        rw [hf.1, Nat.succ_mul]
        omega
      rw [List.getElem?_cons_succ] at ha
      rw [hskip, List.getElem?_append_right (Nat.le_add_right _ _), Nat.add_sub_cancel_left, ih hf.2 ha]

theorem length_flatMap_of_length {β : Type} {f : α → List β} {c : Nat} {l : List α} (hf : ∀ a ∈ l, (f a).length = c) :
    (l.flatMap f).length = l.length * c := by
  induction l with
  | nil => simp
  | cons b l ih =>
    rw [List.forall_mem_cons] at hf
    rw [List.flatMap_cons, List.length_append, hf.1, ih hf.2, List.length_cons, Nat.succ_mul]
    omega

end Rows
