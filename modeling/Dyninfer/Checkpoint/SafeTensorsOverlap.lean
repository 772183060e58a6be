/-
The overlap check of the SafeTensors reader. Tensors that share a byte are
refused, whatever their names and order. A tensor without bytes shares none,
and is refused all the same where its offset lies in another tensor: strictly
inside always, at its start when the other one is listed first.
-/
import Dyninfer.Checkpoint.SafeTensorsFacts
import Dyninfer.Lib.Intervals
import Mathlib.Data.List.Chain

namespace Dyninfer

open Bytes

def ByteRange.stop (r : ByteRange) : Nat := r.offset + r.length

namespace SafeTensors

/-- The bytes of the tensors, one range each. -/
def ranges (entries : List RawTensorEntry) : List ByteRange := entries.flatMap (·.byteRanges)

/-- No two of the tensors share a byte. -/
def ShareNoByte (entries : List RawTensorEntry) : Prop :=
  (ranges entries).Pairwise (Intervals.Apart ByteRange.offset ByteRange.stop)

/-- A tensor without bytes has its offset in another one. -/
def EmptyInside (entries : List RawTensorEntry) : Prop :=
  ∃ a ∈ ranges entries, ∃ b ∈ ranges entries, Intervals.EmptyIn ByteRange.offset ByteRange.stop a b

/-- A header whose entries are all valid, within the limits on the whole file. -/
structure Reads (serde : Serde) (source : RandomAccessSource) (limits : InspectionLimits)
    (fields : List (String × Json)) (entries : List RawTensorEntry) : Prop where
  run : ∃ len, headerLen source limits = .ok len ∧ headerFields serde source len = .ok fields ∧
    (tensorFields fields).mapM (fun field => readEntry serde source limits (dataBase len) field.1 field.2) = .ok entries
  count : entries.length ≤ limits.maxTensorCount
  total : saturatingSum (declaredBytes entries) ≤ limits.maxTotalDeclaredBytes

def Accepts (serde : Serde) (source : RandomAccessSource) (limits : InspectionLimits) : Prop :=
  ∃ found, index serde source limits = .ok found

section check

variable {serde : Serde} {source : RandomAccessSource} {limits : InspectionLimits} {fields : List (String × Json)}
  {entries : List RawTensorEntry}

theorem overlapping_eq_none_iff {triples : List (Nat × Nat × String)} :
    overlapping triples = none ↔ triples.IsChain fun a b => a.2.1 ≤ b.1 := by
  induction triples with
  | nil => simp [overlapping]
  | cons a rest ih =>
    cases rest with
    | nil => simp [overlapping]
    | cons b rest =>
      rw [List.isChain_cons_cons, ← ih, overlapping]
      split
      · simp only [reduceCtorEq, false_iff, not_and]
        omega
      · simp only [iff_and_self]
        omega

/-- The one range of an entry. -/
def rangeOf (entry : RawTensorEntry) : ByteRange := entry.byteRanges.headD ⟨0, 0⟩

theorem Reads.range (h : Reads serde source limits fields entries) :
    ∀ entry ∈ entries, entry.byteRanges = [rangeOf entry] ∧ (rangeOf entry).stop < 2 ^ 64 := by
  obtain ⟨len, -, -, hentries⟩ := h.run
  intro entry hentry
  have hsize : source.len < 2 ^ 63 := source.size
  obtain ⟨field, -, hread⟩ := declared_of_forall₂ (Fallible.mapM_ok hentries) entry hentry
  obtain ⟨info, ty, numel, -, -, -, -, -, -, -, -, hrange, hend⟩ := (readEntry_ok hread).1.info
  simp only [rangeOf, hrange, List.headD_cons, ByteRange.stop, true_and]
  omega

theorem Reads.ranges_eq (h : Reads serde source limits fields entries) : ranges entries = entries.map rangeOf := by
  have hranges := h.range
  clear h
  unfold ranges
  induction entries with
  | nil => rfl
  | cons entry entries ih =>
    rw [List.forall_mem_cons] at hranges
    rw [List.flatMap_cons, hranges.1.1, ih hranges.2, List.map_cons, List.singleton_append]

/-- The check compares neighbours in the order of their offsets. -/
theorem Reads.overlapping_iff (h : Reads serde source limits fields entries) :
    overlapping (Sorting.sortByKey (·.1) (entries.filterMap entryRange)) = none ↔
      Intervals.NeighboursApart ByteRange.offset ByteRange.stop (ranges entries) := by
  have htriples : entries.filterMap entryRange =
      entries.map fun entry => ((rangeOf entry).offset, (rangeOf entry).stop, entry.key) := by
    rw [← List.filterMap_eq_map, List.filterMap_congr]
    intro entry hentry
    obtain ⟨hrange, hstop⟩ := h.range entry hentry
    unfold ByteRange.stop at hstop ⊢
    rw [entryRange, hrange, List.head?_cons, Option.map_some, Function.comp_apply, Nat.min_eq_left (by omega)]
  rw [overlapping_eq_none_iff, Intervals.NeighboursApart, htriples, h.ranges_eq, Sorting.sortByKey_map,
    Sorting.sortByKey_map, List.isChain_map, List.isChain_map]

theorem Reads.accepts_iff (h : Reads serde source limits fields entries) :
    Accepts serde source limits ↔ Intervals.NeighboursApart ByteRange.offset ByteRange.stop (ranges entries) := by
  obtain ⟨len, hlen, hfields, hentries⟩ := h.run
  rw [← h.overlapping_iff]
  unfold tensorFields at hentries
  unfold Accepts index
  simp only [hlen, hfields, hentries, Fallible.ok_bind]
  rw [if_neg (by have := h.count; omega)]
  cases overlapping (Sorting.sortByKey (·.1) (entries.filterMap entryRange)) with
  | some pair => simp
  | none =>
    dsimp only
    rw [if_neg (by have := h.total; omega)]
    simp [pure, Except.pure]

theorem le_stop (entries : List RawTensorEntry) : ∀ r ∈ ranges entries, r.offset ≤ r.stop :=
  fun r _ => Nat.le_add_right r.offset r.length

end check

/-! ## The other direction -/

/-- A parser that gives the fields of an object in the opposite order. -/
def reversed (serde : Serde) : Serde where
  fromSlice bs := (serde.fromSlice bs).map fun
    | .object fields => .object fields.reverse
    | json => json
  tensorInfo := serde.tensorInfo
  indexFile := serde.indexFile
  object_keys bs fields h := by
    cases hread : serde.fromSlice bs with
    | error e => simp [hread, Except.map] at h
    | ok json =>
      cases json with
      | object read =>
        simp only [hread, Except.map, Except.ok.injEq, Json.object.injEq] at h
        rw [← h, List.map_reverse, List.nodup_reverse]
        exact serde.object_keys bs read hread
      | null | bool | number | string | array => simp [hread, Except.map] at h
  weightMap_keys := serde.weightMap_keys

section reverse

variable {serde : Serde} {source : RandomAccessSource} {limits : InspectionLimits} {fields : List (String × Json)}
  {entries : List RawTensorEntry}

theorem headerFields_reversed {len : Nat} (h : headerFields serde source len = .ok fields) :
    headerFields (reversed serde) source len = .ok fields.reverse := by
  obtain ⟨hend, bs, hrange, hbs⟩ := headerFields_ok h
  have hbase : dataBase len = 8 + len := by
    have hsize : source.len < 2 ^ 63 := source.size
    exact Nat.mod_eq_of_lt (by omega)
  unfold headerFields
  rw [hbase, if_neg (by omega), hrange]
  simp [reversed, Fallible.ok_bind, hbs, Except.map, Json.asObject]

theorem Reads.reverse (h : Reads serde source limits fields entries) :
    Reads (reversed serde) source limits fields.reverse entries.reverse := by
  obtain ⟨len, hlen, hfields, hentries⟩ := h.run
  refine ⟨⟨len, hlen, headerFields_reversed hfields, ?_⟩, ?_, ?_⟩
  · unfold tensorFields at hentries ⊢
    rw [List.filter_reverse, Fallible.mapM_iff_forall₂, List.forall₂_reverse_iff, ← Fallible.mapM_iff_forall₂]
    exact hentries
  · rw [List.length_reverse]
    exact h.count
  · have hperm : (declaredBytes entries.reverse).Perm (declaredBytes entries) := entries.reverse_perm.flatMap_right _
    have htotal := h.total
    rw [saturatingSum_eq] at htotal ⊢
    rwa [hperm.sum_nat]

end reverse

/-- A tensor of one byte, and one of none at the same offset. -/
def touchingHeader : String :=
  "\x7b\"a\":\x7b\"data_offsets\":[0,1],\"dtype\":\"U8\",\"shape\":[1]\x7d,\"b\":\x7b\"data_offsets\":[0,0],\"dtype\":\"U8\",\"shape\":[0]\x7d\x7d"

def touchingInfo (count : Nat) : Json :=
  .object [("data_offsets", .array [.ofNat 0, .ofNat count]), ("dtype", .string "U8"), ("shape", .array [.ofNat count])]

def touchingFields : List (String × Json) := [("a", touchingInfo 1), ("b", touchingInfo 0)]

/-- `serde_json` on that header and its entries. -/
def touchingSerde : Serde where
  fromSlice bs := if bs = utf8 touchingHeader then .ok (.object touchingFields) else .error "expected value"
  tensorInfo
    | .object [(_, .array [.number (.posInt dataStart), .number (.posInt dataEnd)]), (_, .string dtype),
        (_, .array [.number (.posInt dim)])] => .ok ⟨dtype, [dim.toNat], dataStart.toNat, dataEnd.toNat⟩
    | _ => .error "missing field"
  indexFile _ := .error "missing field"
  object_keys bs fields h := by
    split at h
    · cases h; simp [touchingFields]
    · cases h
  weightMap_keys bs parsed h := by cases h

def touchingSource : RandomAccessSource where
  kind := .memory
  path := none
  bytes := toLe 8 (utf8 touchingHeader).length ++ utf8 touchingHeader ++ [7]
  size := by decide +kernel

def touchingEntry (key : String) (count : Nat) : RawTensorEntry where
  key
  sourceFileIndex := 0
  shape := [count]
  storageType := .scalar .u8
  byteRanges := [⟨8 + (utf8 touchingHeader).length, count⟩]
  alignment := 1
  endianness := .little
  metadata := []

theorem touching_reads :
    Reads touchingSerde touchingSource {} touchingFields [touchingEntry "a" 1, touchingEntry "b" 0] := by
  have hlong : ¬ touchingSource.len < dataBase (utf8 touchingHeader).length := by decide +kernel
  have hbytes : touchingSource.bytes = toLe 8 (utf8 touchingHeader).length ++ utf8 touchingHeader ++ [7] := rfl
  have hread : touchingSource.readRange 8 (utf8 touchingHeader).length = .ok (utf8 touchingHeader) :=
    RandomAccessSource.readRange_eq hbytes
  refine ⟨⟨(utf8 touchingHeader).length, by decide +kernel, ?_, rfl⟩, by decide, by decide +kernel⟩
  unfold headerFields
  rw [if_neg hlong, hread]
  simp [Fallible.ok_bind, touchingSerde, Json.asObject]

theorem touching_shareNoByte : ShareNoByte [touchingEntry "a" 1, touchingEntry "b" 0] := by
  simp only [ShareNoByte, ranges, touchingEntry, List.flatMap_cons, List.flatMap_nil, List.append_nil,
    List.cons_append, List.nil_append, List.pairwise_pair]
  intro t ht
  have := ht.2.1
  have := ht.2.2
  simp only [ByteRange.stop] at *
  omega

/-! ## The verdict -/

/-- **The overlap check.** Among the headers whose entries are all valid the reader accepts exactly those whose
tensors share no byte, and decides alike for the same ranges under any names and in any order, unless the tensors
share no byte and one without bytes has its offset in another. -/
theorem overlap_exact_iff (serde : Serde) (source : RandomAccessSource) (limits : InspectionLimits)
    {fields : List (String × Json)} {entries : List RawTensorEntry} (h : Reads serde source limits fields entries) :
    ((Accepts serde source limits ↔ ShareNoByte entries) ∧
      ∀ (serde' : Serde) (source' : RandomAccessSource) (limits' : InspectionLimits) (fields' : List (String × Json))
        (entries' : List RawTensorEntry), Reads serde' source' limits' fields' entries' →
        (ranges entries').Perm (ranges entries) →
        (Accepts serde' source' limits' ↔ Accepts serde source limits)) ↔
      ¬ (ShareNoByte entries ∧ EmptyInside entries) := by
  constructor
  · rintro ⟨hexact, hall⟩ ⟨hapart, a, ha, b, hb, hempty⟩
    have haccepts := hexact.mpr hapart
    have hreverse := (hall (reversed serde) source limits fields.reverse entries.reverse h.reverse
      (entries.reverse_perm.flatMap_right _)).mpr haccepts
    rw [h.reverse.accepts_iff, h.reverse.ranges_eq, List.map_reverse, ← h.ranges_eq] at hreverse
    exact Intervals.not_neighboursApart_reverse (le_stop entries) ha hb hempty (h.accepts_iff.mp haccepts) hreverse
  · intro hnone
    have hexact {serde' : Serde} {source' : RandomAccessSource} {limits' : InspectionLimits}
        {fields' : List (String × Json)} {entries' : List RawTensorEntry}
        (h' : Reads serde' source' limits' fields' entries') (hperm : (ranges entries').Perm (ranges entries)) :
        Accepts serde' source' limits' ↔ ShareNoByte entries := by
      rw [h'.accepts_iff, ShareNoByte, ← hperm.pairwise_iff Intervals.Apart.symm]
      refine ⟨fun hcheck => hcheck.apart (le_stop entries'), fun hapart => ?_⟩
      refine Intervals.neighboursApart_of_apart (le_stop entries') hapart fun a ha b hb hempty => hnone ?_
      exact ⟨(hperm.pairwise_iff Intervals.Apart.symm).mp hapart, a, hperm.mem_iff.mp ha, b, hperm.mem_iff.mp hb,
        hempty⟩
    exact ⟨hexact h (.refl _), fun serde' source' limits' fields' entries' h' hperm =>
      (hexact h' hperm).trans (hexact h (.refl _)).symm⟩

theorem overlap_exact_iff_touching :
    ((Accepts touchingSerde touchingSource {} ↔ ShareNoByte [touchingEntry "a" 1, touchingEntry "b" 0]) ∧
      ∀ (serde' : Serde) (source' : RandomAccessSource) (limits' : InspectionLimits) (fields' : List (String × Json))
        (entries' : List RawTensorEntry), Reads serde' source' limits' fields' entries' →
        (ranges entries').Perm (ranges [touchingEntry "a" 1, touchingEntry "b" 0]) →
        (Accepts serde' source' limits' ↔ Accepts touchingSerde touchingSource {})) ↔
      ¬ (ShareNoByte [touchingEntry "a" 1, touchingEntry "b" 0] ∧
        EmptyInside [touchingEntry "a" 1, touchingEntry "b" 0]) :=
  overlap_exact_iff _ _ _ touching_reads

/-- The tensor without bytes comes second, and the file is refused. -/
theorem empty_tensor_refused :
    ¬ ∀ (serde : Serde) (source : RandomAccessSource) (limits : InspectionLimits) (fields : List (String × Json))
      (entries : List RawTensorEntry), Reads serde source limits fields entries →
      (Accepts serde source limits ↔ ShareNoByte entries) := by
  intro hall
  have haccepts := (hall _ _ _ _ _ touching_reads).mpr touching_shareNoByte
  refine (touching_reads.accepts_iff.mp haccepts).not_after (le_stop _)
    (a := ⟨8 + (utf8 touchingHeader).length, 0⟩) (b := ⟨8 + (utf8 touchingHeader).length, 1⟩) ?_ (.refl _)
  exact ⟨rfl, le_refl _, Nat.lt_succ_self _⟩

end SafeTensors

end Dyninfer
