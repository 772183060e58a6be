/-
What a GGUF index guarantees. The cursor stays inside the source, so the data
section starts without an overflow and every tensor lies in it with the size
of its type and shape. That names are distinct and tensors apart is up to the
directory, which the reader takes as it is.
-/
import Dyninfer.Checkpoint.Gguf
import Dyninfer.Lib.Effect

namespace Dyninfer.Gguf

open Bytes Effect

/-! ## The cursor stays inside the source -/

/-- A reading that moves forward by at least `k` bytes, and not past the end of the source; one that fails does
not move back. -/
structure Forward (source : RandomAccessSource) (k : Nat) {α : Type} (x : CursorM α) : Prop where
  run : ∀ pos, Triple (fun p => p = pos ∧ pos ≤ source.len) x (fun _ p => pos + k ≤ p ∧ p ≤ source.len)
    fun p => pos ≤ p ∧ p ≤ source.len

section forward

variable {source : RandomAccessSource} {limits : InspectionLimits} {α β : Type} {k l : Nat} {x : CursorM α}
  {f : α → CursorM β}

theorem Forward.ok (h : Forward source k x) {pos p : Nat} {a : α} (hpos : pos ≤ source.len)
    (hrun : x.run pos = .ok a p) : pos + k ≤ p ∧ p ≤ source.len := (h.run pos).ok ⟨rfl, hpos⟩ hrun

theorem Forward.pure (a : α) : Forward source 0 (Pure.pure a) :=
  ⟨fun _ => Triple.pure fun _ hp => ⟨by omega, hp.1 ▸ hp.2⟩⟩

theorem Forward.throw (e : DynInferError) : Forward source k (throw e : CursorM α) :=
  ⟨fun _ => Triple.throw fun _ hp => ⟨hp.1.ge, hp.1 ▸ hp.2⟩⟩

theorem Forward.bind (hx : Forward source k x) (hf : ∀ a, Forward source l (f a)) :
    Forward source (k + l) (x >>= f) := by
  refine ⟨fun pos => (hx.run pos).bind fun a => Triple.of_forall fun p hp => ?_⟩
  exact ((hf a).run p).conseq (fun q hq => ⟨hq, hp.2⟩) (fun b q hq => ⟨by omega, hq.2⟩) fun q hq => ⟨by omega, hq.2⟩

theorem Forward.imp (hx : Forward source k x) (h : l ≤ k) : Forward source l x :=
  ⟨fun pos => (hx.run pos).conseq (fun _ hp => hp) (fun _ _ hp => ⟨by omega, hp.2⟩) fun _ h => h⟩

/-- A reading followed by others. -/
theorem Forward.step (hx : Forward source k x) (hf : ∀ a, Forward source 0 (f a)) : Forward source k (x >>= f) :=
  hx.bind hf

theorem Forward.any (hx : Forward source k x) (hf : ∀ a, Forward source 0 (f a)) : Forward source 0 (x >>= f) :=
  (hx.step hf).imp (Nat.zero_le k)

theorem forward_lift (y : Except DynInferError α) : Forward source 0 (lift y) := by
  cases y with
  | ok a => exact .pure a
  | error e => exact .throw e

theorem forward_require (c : Bool) (e : DynInferError) : Forward source 0 (require c e) := by
  cases c with
  | true => exact .pure ()
  | false => exact .throw e

theorem run_readExact (len pos : Nat) : (readExact source len).run pos =
    match source.readRange pos len with
    | .ok buf => .ok buf (pos + len)
    | .error e => .error e pos := by
  unfold readExact
  rw [EStateM.run_bind, EStateM.run_get]
  cases h : source.readRange pos len with
  | error e => simp only [h, lift, EStateM.run_bind, run_throw]
  | ok buf =>
    have hend := (source.readRange_ok h).1
    have hsize : source.len < 2 ^ 63 := source.size
    have hfits : decide (pos + len < 2 ^ 64) = true := decide_eq_true (by omega)
    simp only [h, lift, EStateM.run_bind, EStateM.run_pure, hfits, run_require_true]
    rfl

theorem forward_readExact (len : Nat) : Forward source len (readExact source len) := by
  refine ⟨fun pos p hp => ?_⟩
  rw [hp.1, run_readExact]
  cases h : source.readRange pos len with
  | error e => exact ⟨le_rfl, hp.2⟩
  | ok buf => exact ⟨le_rfl, (source.readRange_ok h).1⟩

theorem forward_readUint (width : Nat) : Forward source width (readUint source width) :=
  (forward_readExact width).bind fun _ => .pure _

theorem forward_readInt (width : Nat) : Forward source width (readInt source width) :=
  (forward_readUint width).bind fun _ => .pure _

theorem forward_readString : Forward source 8 (readString source limits) := by
  refine (forward_readUint 8).step fun len => ?_
  refine (forward_require _ _).step fun _ => ?_
  refine (forward_readExact len).any fun bytes => ?_
  cases fromUtf8 bytes with
  | some s => exact .pure s
  | none => exact .throw _

theorem forward_readTimes (hx : Forward source 0 x) (n : Nat) : Forward source 0 (readTimes x n) := by
  induction n with
  | zero => exact .pure []
  | succ n ih => exact hx.step fun _ => ih.step fun _ => .pure _

/-- Every value takes at least one byte. -/
theorem forward_readValue (depth valueType : Nat) : Forward source 1 (readValue source limits depth valueType) := by
  induction depth generalizing valueType with
  | zero => exact .throw _
  | succ depth ih =>
    unfold readValue
    split
    case h_1 => contradiction
    case h_11 elemDepth hdepth =>
      cases hdepth
      refine ((forward_readUint 4).imp (by decide)).step fun elemType => ?_
      refine (forward_readUint 8).any fun count => ?_
      refine (forward_require _ _).step fun _ => ?_
      exact (forward_readTimes ((ih elemType).imp (Nat.zero_le 1)) count).step fun _ => .pure _
    case h_10 => exact (forward_readString.imp (by decide)).step fun _ => .pure _
    all_goals first
      | exact (forward_readInt _).imp (by decide)
      | exact ((forward_readUint _).imp (by decide)).step fun _ => .pure _
      | exact .throw _

theorem forward_readPair : Forward source 0 (readPair source limits) := by
  refine forward_readString.any fun key => ?_
  refine (forward_lift _).step fun _ => ?_
  refine (forward_readUint 4).any fun valueType => ?_
  exact (forward_readValue _ _).any fun _ => .pure _

theorem forward_readTensorDir : Forward source 0 (readTensorDir source limits) := by
  refine forward_readString.any fun name => ?_
  refine (forward_lift _).step fun _ => ?_
  refine (forward_readUint 4).any fun nDims => ?_
  refine (forward_require _ _).step fun _ => ?_
  refine (forward_readTimes ((forward_readUint 8).imp (Nat.zero_le _)) nDims).step fun dims => ?_
  refine (forward_lift _).step fun _ => ?_
  refine (forward_readUint 4).any fun typeCode => ?_
  refine (forward_lift _).step fun ggufType => ?_
  exact (forward_readUint 8).any fun offset => .pure _

theorem forward_readHeader : Forward source 0 (readHeader source limits) := by
  refine (forward_readExact 4).any fun found => ?_
  refine (forward_require _ _).step fun _ => ?_
  refine (forward_readUint 4).any fun version => ?_
  refine (forward_require _ _).step fun _ => ?_
  refine (forward_readUint 8).any fun tensorCount => ?_
  refine (forward_readUint 8).any fun kvCount => ?_
  refine (forward_require _ _).step fun _ => ?_
  refine (forward_readTimes forward_readPair kvCount).step fun pairs => ?_
  exact (forward_readTimes forward_readTensorDir tensorCount).step fun dirs => .pure _

theorem header_ok {found : Header} {pos : Nat} (h : header source limits = .ok (found, pos)) :
    (readHeader source limits).run 0 = .ok found pos ∧ pos ≤ source.len := by
  unfold header at h
  cases hrun : (readHeader source limits).run 0 with
  | error e p =>
    rw [hrun] at h
    cases h
  | ok read p =>
    rw [hrun] at h
    cases h
    exact ⟨rfl, (forward_readHeader.ok (Nat.zero_le _) hrun).2⟩

end forward

/-! ## What the header says -/

/-- What a reading that succeeds returns. -/
structure Yields {α : Type} (x : CursorM α) (P : α → Prop) : Prop where
  run : ∀ pos a p, x.run pos = .ok a p → P a

section yields

variable {source : RandomAccessSource} {limits : InspectionLimits} {α β : Type} {x : CursorM α} {f : α → CursorM β}
  {P : α → Prop} {Q : β → Prop}

theorem Yields.pure {a : α} (h : P a) : Yields (Pure.pure a) P := ⟨by rintro _ _ _ ⟨⟩; exact h⟩

theorem Yields.bind (hx : Yields x P) (hf : ∀ a, P a → Yields (f a) Q) : Yields (x >>= f) Q := by
  refine ⟨fun pos b q h => ?_⟩
  rw [EStateM.run_bind] at h
  cases hrun : x.run pos with
  | error e p =>
    rw [hrun] at h
    cases h
  | ok a p =>
    rw [hrun] at h
    exact (hf a (hx.run pos a p hrun)).run p b q h

theorem yields_any (x : CursorM α) : Yields x fun _ => True := ⟨fun _ _ _ _ => trivial⟩

theorem yields_lift (y : Except DynInferError α) : Yields (lift y) fun a => y = .ok a := by
  cases y with
  | ok a => exact .pure rfl
  | error e => exact ⟨by rintro _ _ _ ⟨⟩⟩

theorem yields_require (c : Bool) (e : DynInferError) : Yields (require c e : CursorM Unit) fun _ => c = true := by
  cases c with
  | true => exact .pure rfl
  | false => exact ⟨by rintro _ _ _ ⟨⟩⟩

theorem yields_readTimes (hx : Yields x P) (n : Nat) :
    Yields (readTimes x n) fun xs => xs.length = n ∧ ∀ a ∈ xs, P a := by
  induction n with
  | zero => exact .pure (by simp)
  | succ n ih =>
    refine hx.bind fun a ha => ih.bind fun rest hrest => .pure ?_
    simpa [hrest.1, ha] using hrest.2

theorem yields_readUint (width : Nat) : Yields (readUint source width) fun n => n < 256 ^ width := by
  have hread : Yields (readExact source width) fun bs => bs.length = width := by
    refine ⟨fun pos bs p h => ?_⟩
    rw [run_readExact] at h
    cases hrange : source.readRange pos width with
    | error e =>
      rw [hrange] at h
      cases h
    | ok buf =>
      rw [hrange] at h
      cases h
      exact source.length_readRange hrange
  exact hread.bind fun bs hbs => .pure (hbs ▸ ofLe_lt bs)

/-- An entry of the directory within the limits; its rank is a `u32`. -/
structure TensorDir.Within (limits : InspectionLimits) (dir : TensorDir) : Prop where
  name : dir.name.utf8ByteSize ≤ limits.maxKeyLen
  rank : dir.shape.length ≤ limits.maxShapeRank
  rankU32 : dir.shape.length < 2 ^ 32
  dims : ∀ d ∈ dir.shape, d ≤ limits.maxDim

theorem yields_readTensorDir : Yields (readTensorDir source limits) (·.Within limits) := by
  refine (yields_any _).bind fun name _ => ?_
  refine (yields_lift _).bind fun _ hname => ?_
  refine (yields_readUint 4).bind fun nDims hnDims => ?_
  refine (yields_require _ _).bind fun _ hrank => ?_
  refine (yields_readTimes (yields_any _) nDims).bind fun dims hdims => ?_
  refine (yields_lift _).bind fun _ hshape => ?_
  refine (yields_any _).bind fun typeCode _ => (yields_any _).bind fun ggufType _ => (yields_any _).bind fun offset _ => ?_
  refine .pure ⟨InspectionLimits.validateKey_ok_iff.mp hname, ?_, ?_, ?_⟩
  · exact (InspectionLimits.validateShape_ok_iff.mp hshape).1
  · rwa [List.length_reverse, hdims.1]
  · exact (InspectionLimits.validateShape_ok_iff.mp hshape).2

theorem yields_readPair : Yields (readPair source limits) fun pair => pair.1.utf8ByteSize ≤ limits.maxKeyLen := by
  refine (yields_any _).bind fun key _ => ?_
  refine (yields_lift _).bind fun _ hkey => ?_
  exact (yields_any _).bind fun valueType _ => (yields_any _).bind fun value _ =>
    .pure (InspectionLimits.validateKey_ok_iff.mp hkey)

/-- A header within the limits of its reader. -/
structure Header.Within (limits : InspectionLimits) (header : Header) : Prop where
  tensorCount : header.dirs.length ≤ limits.maxTensorCount
  dirs : ∀ dir ∈ header.dirs, dir.Within limits
  metadata : ∃ pairs : List (String × Json), header.metadata = AssocMap.insertAll [] Prod.fst Prod.snd pairs ∧
    pairs.length ≤ limits.maxMetadataEntries ∧ ∀ pair ∈ pairs, pair.1.utf8ByteSize ≤ limits.maxKeyLen

theorem yields_readHeader : Yields (readHeader source limits) (·.Within limits) := by
  refine (yields_any _).bind fun found _ => (yields_any _).bind fun _ _ => ?_
  refine (yields_any _).bind fun version _ => (yields_any _).bind fun _ _ => ?_
  refine (yields_any _).bind fun tensorCount _ => (yields_any _).bind fun kvCount _ => ?_
  refine (yields_require _ _).bind fun _ hcounts => ?_
  refine (yields_readTimes yields_readPair kvCount).bind fun pairs hpairs => ?_
  refine (yields_readTimes yields_readTensorDir tensorCount).bind fun dirs hdirs => ?_
  obtain ⟨htensors, hkv⟩ := of_decide_eq_true hcounts
  exact .pure ⟨hdirs.1 ▸ htensors, hdirs.2, pairs, rfl, hpairs.1 ▸ hkv, hpairs.2⟩

theorem header_within {found : Header} {pos : Nat} (h : header source limits = .ok (found, pos)) :
    found.Within limits := yields_readHeader.run 0 found pos (header_ok h).1

end yields

/-! ## Placing the tensors -/

theorem alignUp_lt {value align : Nat} (hvalue : value < 2 ^ 63) (halign : align < 2 ^ 64) :
    (value + align - 1) / align * align < 2 ^ 64 := by
  have hle : (value + align - 1) / align * align ≤ value + align - 1 := Nat.div_mul_le_self _ _
  by_cases h : value < align
  · have hone : (value + align - 1) / align < 2 := Nat.div_lt_of_lt_mul (by omega)
    have hmul : (value + align - 1) / align * align ≤ 1 * align := Nat.mul_le_mul_right _ (by omega)
    omega
  · omega

theorem Header.alignment_lt (header : Header) : header.alignment < 2 ^ 64 := by
  unfold Header.alignment
  cases h : (header.metadata.get "general.alignment").bind Json.asU64 with
  | none => decide
  | some n =>
    obtain ⟨json, -, hjson⟩ := Option.bind_eq_some_iff.mp h
    exact Json.asU64_lt hjson

/-- The data section of a file starts without an overflow. -/
theorem alignUp_ok {source : RandomAccessSource} {limits : InspectionLimits} {found : Header} {pos : Nat}
    (h : header source limits = .ok (found, pos)) : ∃ dataOffset, alignUp pos found.alignment = .ok dataOffset := by
  have hpos := (header_ok h).2
  have hsize : source.len < 2 ^ 63 := source.size
  unfold alignUp
  by_cases hzero : found.alignment = 0
  · exact ⟨pos, if_pos hzero⟩
  · rw [if_neg hzero, if_pos (alignUp_lt (by omega) found.alignment_lt)]
    exact ⟨_, rfl⟩

/-- The size of a directory entry's tensor. -/
def TensorDir.nbytes (dir : TensorDir) : Nat := (dir.ggufType.nbytesForShape dir.shape).toOption.getD 0

/-- The entry of a tensor that was placed. -/
def TensorDir.entry (alignment dataOffset : Nat) (dir : TensorDir) : RawTensorEntry where
  key := dir.name
  sourceFileIndex := 0
  shape := dir.shape
  storageType := dir.ggufType.storageElementType
  byteRanges := [⟨dataOffset + dir.offset, dir.nbytes⟩]
  alignment
  endianness := .little
  metadata := [("gguf.type_code", .ofNat dir.ggufType.code), ("gguf.type", .string dir.ggufType.name)]

/-- A tensor that is placed has a size, and its bytes lie in the source. -/
theorem placeTensor_ok_iff {source : RandomAccessSource} {alignment dataOffset : Nat} {dir : TensorDir}
    {entry : RawTensorEntry} : placeTensor source alignment dataOffset dir = .ok entry ↔
      dir.ggufType.nbytesForShape dir.shape = .ok dir.nbytes ∧
        dataOffset + dir.offset + dir.nbytes ≤ source.len ∧ entry = dir.entry alignment dataOffset := by
  have hsize : source.len < 2 ^ 63 := source.size
  unfold placeTensor TensorDir.entry TensorDir.nbytes
  cases dir.ggufType.nbytesForShape dir.shape with
  | error e => exact ⟨nofun, fun h => by cases h.1⟩
  | ok nbytes =>
    simp only [Except.toOption, Option.getD_some, true_and, Fallible.bind_ok_iff, Except.ok.injEq, exists_eq_left']
    by_cases habs : dataOffset + dir.offset ≥ 2 ^ 64
    · rw [if_pos habs]
      exact ⟨nofun, fun h => absurd h.1 (by omega)⟩
    · by_cases hend : min (dataOffset + dir.offset + nbytes) (2 ^ 64 - 1) > source.len
      · rw [if_neg habs, if_pos hend]
        exact ⟨nofun, fun h => absurd h.1 (by omega)⟩
      · rw [if_neg habs, if_neg hend, Except.ok.injEq]
        exact ⟨fun h => ⟨by omega, h.symm⟩, fun h => h.2.symm⟩

/-- What a successful index is made of: a header, where its data section starts, and its tensors placed. -/
theorem index_ok {source : RandomAccessSource} {limits : InspectionLimits} {index : RawCheckpointIndex}
    (h : Gguf.index source limits = .ok index) :
    ∃ found pos, header source limits = .ok (found, pos) ∧ alignUp pos found.alignment = .ok index.dataOffset ∧
      index.metadata = found.metadata ∧
      index.entries = Sorting.sortByKey (·.key) (found.dirs.map (·.entry found.alignment index.dataOffset)) ∧
      ∀ dir ∈ found.dirs, dir.ggufType.nbytesForShape dir.shape = .ok dir.nbytes ∧
        index.dataOffset + dir.offset + dir.nbytes ≤ source.len := by
  obtain ⟨⟨found, pos⟩, hheader, h⟩ := Fallible.bind_ok h
  obtain ⟨dataOffset, halign, h⟩ := Fallible.bind_ok h
  obtain ⟨entries, hentries, h⟩ := Fallible.bind_ok h
  cases h
  obtain ⟨hall, rfl⟩ := (Fallible.mapM_ok_iff fun dir entry => by
    rw [placeTensor_ok_iff, ← and_assoc]).mp (Fallible.of_mapError_ok hentries)
  exact ⟨found, pos, Fallible.of_mapError_ok hheader, halign, rfl, rfl, hall⟩

/-- No index has a tensor whose rank leaves `u32`. -/
theorem index_rank_lt {source : RandomAccessSource} {limits : InspectionLimits} {index : RawCheckpointIndex}
    (h : Gguf.index source limits = .ok index) : ∀ entry ∈ index.entries, entry.shape.length < 2 ^ 32 := by
  obtain ⟨found, pos, hheader, -, -, hentries, -⟩ := index_ok h
  intro entry hentry
  rw [hentries] at hentry
  obtain ⟨dir, hdir, rfl⟩ := List.mem_map.mp ((List.mergeSort_perm _ _).mem_iff.mp hentry)
  exact ((header_within hheader).dirs dir hdir).rankU32

/-- A file whose tensors all have their size and lie in it is indexed. -/
theorem index_of_placed {source : RandomAccessSource} {limits : InspectionLimits} {found : Header}
    {pos dataOffset : Nat} (hheader : header source limits = .ok (found, pos))
    (halign : alignUp pos found.alignment = .ok dataOffset)
    (hdirs : ∀ dir ∈ found.dirs, dir.ggufType.nbytesForShape dir.shape = .ok dir.nbytes ∧
      dataOffset + dir.offset + dir.nbytes ≤ source.len) :
    ∃ index, Gguf.index source limits = .ok index ∧ index.metadata = found.metadata ∧
      index.entries = Sorting.sortByKey (·.key) (found.dirs.map (·.entry found.alignment dataOffset)) := by
  have hentries : found.dirs.mapM (placeTensor source found.alignment dataOffset) =
      .ok (found.dirs.map (·.entry found.alignment dataOffset)) :=
    (Fallible.mapM_ok_iff fun dir entry => by rw [placeTensor_ok_iff, ← and_assoc]).mpr ⟨hdirs, rfl⟩
  unfold Gguf.index
  rw [hheader, Fallible.ok_mapError, Fallible.ok_bind]
  simp only [halign, hentries, Fallible.ok_mapError, Fallible.ok_bind]
  exact ⟨_, rfl, rfl, rfl⟩

/-! ## Soundness -/

/-- Two ranges that both have bytes share none. -/
def Apart (offset length offset' length' : Nat) : Prop :=
  length ≠ 0 → length' ≠ 0 → offset + length ≤ offset' ∨ offset' + length' ≤ offset

/-- A sound index of a source: every tensor lies in the data section with the size of its type and shape,
names are distinct and tensors apart. -/
structure Sound (source : RandomAccessSource) (index : RawCheckpointIndex) : Prop where
  placed : ∀ entry ∈ index.entries, ∃ (type : GgufType) (range : ByteRange), entry.byteRanges = [range] ∧
    entry.storageType = type.storageElementType ∧
    entry.metadata.get "gguf.type_code" = some (.ofNat type.code) ∧
    type.nbytesForShape entry.shape = .ok range.length ∧
    index.dataOffset ≤ range.offset ∧ range.offset + range.length ≤ source.len
  names : (index.entries.map (·.key)).Nodup
  apart : index.entries.Pairwise fun a b => ∀ r ∈ a.byteRanges, ∀ r' ∈ b.byteRanges,
    Apart r.offset r.length r'.offset r'.length

/-- A directory that lists each name once, and no two tensors over the same bytes. -/
structure Header.ListsApart (header : Header) : Prop where
  names : (header.dirs.map (·.name)).Nodup
  apart : header.dirs.Pairwise fun a b => Apart a.offset a.nbytes b.offset b.nbytes

theorem apart_shift {k offset length offset' length' : Nat} :
    Apart (k + offset) length (k + offset') length' ↔ Apart offset length offset' length' := by
  unfold Apart
  constructor <;> intro h hl hl' <;> have := h hl hl' <;> omega

theorem sound_iff {source : RandomAccessSource} {limits : InspectionLimits} {index : RawCheckpointIndex}
    (h : Gguf.index source limits = .ok index) :
    ∃ found pos, header source limits = .ok (found, pos) ∧ (Sound source index ↔ found.ListsApart) := by
  obtain ⟨found, pos, hheader, -, -, hentries, hplaced⟩ := index_ok h
  refine ⟨found, pos, hheader, ?_⟩
  have hperm : index.entries.Perm (found.dirs.map (·.entry found.alignment index.dataOffset)) := by
    rw [hentries]
    exact List.mergeSort_perm _ _
  have hnames : (index.entries.map (·.key)).Nodup ↔ (found.dirs.map (·.name)).Nodup := by
    rw [(hperm.map _).nodup_iff, List.map_map]
    rfl
  have hapart : (index.entries.Pairwise fun a b => ∀ r ∈ a.byteRanges, ∀ r' ∈ b.byteRanges,
      Apart r.offset r.length r'.offset r'.length) ↔
      found.dirs.Pairwise fun a b => Apart a.offset a.nbytes b.offset b.nbytes := by
    rw [hperm.pairwise_iff, List.pairwise_map]
    · simp only [TensorDir.entry, List.mem_singleton, forall_eq, apart_shift]
    · intro a b hab r hr r' hr' hl hl'
      exact (hab r' hr' r hr hl' hl).symm
  constructor
  · exact fun hsound => ⟨hnames.mp hsound.names, hapart.mp hsound.apart⟩
  · intro hlists
    refine ⟨fun entry hentry => ?_, hnames.mpr hlists.names, hapart.mpr hlists.apart⟩
    obtain ⟨dir, hdir, rfl⟩ := List.mem_map.mp (hperm.mem_iff.mp hentry)
    obtain ⟨hsize, hend⟩ := hplaced dir hdir
    exact ⟨dir.ggufType, ⟨index.dataOffset + dir.offset, dir.nbytes⟩, rfl, rfl, rfl, hsize, Nat.le_add_right _ _, hend⟩

/-- **GGUF indices.** No arithmetic of the reader overflows; and an index is sound when the directory lists
each name once and no two tensors over the same bytes. -/
theorem index_sound_iff (source : RandomAccessSource) (limits : InspectionLimits) :
    Gguf.index source limits ≠ .error .overflow ∧
      ∀ index, Gguf.index source limits = .ok index →
        ∃ found pos, header source limits = .ok (found, pos) ∧ (Sound source index ↔ found.ListsApart) := by
  refine ⟨fun hover => ?_, fun index h => sound_iff h⟩
  rcases Fallible.bind_error hover with hover | ⟨⟨found, pos⟩, hheader, hover⟩
  · obtain ⟨e, he⟩ := Fallible.of_mapError_error hover
    cases he
  obtain ⟨start, hstart⟩ := alignUp_ok (Fallible.of_mapError_ok hheader)
  rcases Fallible.bind_error hover with hover | ⟨dataOffset, -, hover⟩
  · rw [hstart] at hover
    cases hover
  rcases Fallible.bind_error hover with hover | ⟨entries, -, hover⟩
  · obtain ⟨e, he⟩ := Fallible.of_mapError_error hover
    cases he
  · cases hover

/-- Two tensors of one `f32`, `a` and another, whose data starts at the given offset. -/
def twoTensorBytes (second : String) (offset : Nat) : List UInt8 :=
  magic ++ toLe 4 3 ++ toLe 8 2 ++ toLe 8 0 ++
    (toLe 8 1 ++ utf8 "a" ++ toLe 4 1 ++ toLe 8 1 ++ toLe 4 0 ++ toLe 8 0) ++
    (toLe 8 1 ++ utf8 second ++ toLe 4 1 ++ toLe 8 1 ++ toLe 4 0 ++ toLe 8 offset) ++ List.replicate 14 0

def twoTensors (second : String) (offset : Nat) (size : (twoTensorBytes second offset).length < 2 ^ 63) :
    RandomAccessSource where
  kind := .memory
  path := none
  bytes := twoTensorBytes second offset
  size

theorem length_twoTensorBytes_lt : (twoTensorBytes "b" 4).length < 2 ^ 63 := by decide +kernel

theorem index_sound_iff_twoTensors :
    ∃ index, Gguf.index (twoTensors "b" 4 length_twoTensorBytes_lt) {} = .ok index ∧
      ∃ found pos, header (twoTensors "b" 4 length_twoTensorBytes_lt) {} = .ok (found, pos) ∧
        (Sound (twoTensors "b" 4 length_twoTensorBytes_lt) index ↔ found.ListsApart) := by
  obtain ⟨index, hindex, -⟩ := Fallible.exists_ok (x := Gguf.index (twoTensors "b" 4 length_twoTensorBytes_lt) {})
    (p := fun _ => true) (by decide +kernel)
  exact ⟨index, hindex, (index_sound_iff _ _).2 index hindex⟩

/-- A file that lists one name twice, over the same bytes, is indexed. -/
theorem duplicate_indexed :
    ¬ ∀ (source : RandomAccessSource) (limits : InspectionLimits) (index : RawCheckpointIndex),
      Gguf.index source limits = .ok index → Sound source index := by
  intro hall
  obtain ⟨index, hindex, -⟩ := Fallible.exists_ok (x := Gguf.index (twoTensors "a" 0 (by decide +kernel)) {})
    (p := fun _ => true) (by decide +kernel)
  obtain ⟨listed, hlisted, hnames⟩ := Fallible.exists_ok (x := header (twoTensors "a" 0 (by decide +kernel)) {})
    (p := fun listed => decide (listed.1.dirs.map (·.name) = ["a", "a"])) (by decide +kernel)
  obtain ⟨found, pos, hheader, hsound⟩ := sound_iff hindex
  have hnodup := (hsound.mp (hall _ _ index hindex)).names
  rw [hlisted] at hheader
  cases hheader
  rw [of_decide_eq_true hnames] at hnodup
  exact absurd hnodup (by decide)

end Dyninfer.Gguf
