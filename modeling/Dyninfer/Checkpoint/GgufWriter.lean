/-
The GGUF writer (`write_gguf` in `dyninfer-checkpoint-gguf/src/q4.rs`) and its
round trip through the reader. The writer lays out the tensor infos and the
data in one pass, each tensor padded to the alignment; the reader finds every
tensor where the pass put it.
-/
import Dyninfer.Checkpoint.GgufFacts

namespace Dyninfer

open Bytes Effect

/-- `MetaValue`; an `f32` is its bits. -/
inductive MetaValue where
  | u32 (x : UInt32)
  | u64 (x : UInt64)
  | f32 (bits : UInt32)
  | string (s : String)
  deriving DecidableEq, Repr

/-- A tensor to write: its shape, its `ggml` type code and its raw bytes. -/
structure GgufTensor where
  shape : List UInt64
  typeCode : UInt32
  bytes : List UInt8
  deriving DecidableEq, Repr

namespace Gguf

/-! ## The writer -/

def writeString (s : String) : List UInt8 := toLe 8 s.utf8ByteSize ++ utf8 s

/-- The type and the value of a metadata entry. -/
def writeMeta : MetaValue → List UInt8
  | .u32 x => toLe 4 4 ++ toLe 4 x.toNat
  | .u64 x => toLe 4 10 ++ toLe 8 x.toNat
  | .f32 bits => toLe 4 6 ++ toLe 4 bits.toNat
  | .string s => toLe 4 8 ++ writeString s

/-- The zeros that bring `len` to the alignment. -/
def padding (len : Nat) : Nat := (alignmentDefault - len % alignmentDefault) % alignmentDefault

/-- An entry of the directory; the rank is cut to its 32 bits. -/
def writeInfo (name : String) (tensor : GgufTensor) (offset : Nat) : List UInt8 :=
  writeString name ++ (toLe 4 tensor.shape.length ++ (tensor.shape.reverse.flatMap (toLe 8 ·.toNat) ++
    (toLe 4 tensor.typeCode.toNat ++ toLe 8 offset)))

/-- One step of the pass over the tensors: the infos and the data written so far. -/
def writeTensor (written : List UInt8 × List UInt8) (tensor : String × GgufTensor) : List UInt8 × List UInt8 :=
  let data := written.2 ++ List.replicate (padding written.2.length) 0
  (written.1 ++ writeInfo tensor.1 tensor.2 data.length, data ++ tensor.2.bytes)

/-- `write_gguf`, over the entries of its two maps in the order it meets them. -/
def writeGguf (tensors : List (String × GgufTensor)) (metadata : List (String × MetaValue)) : List UInt8 :=
  let body := magic ++ (toLe 4 3 ++ (toLe 8 tensors.length ++ (toLe 8 metadata.length ++
    metadata.flatMap fun entry => writeString entry.1 ++ writeMeta entry.2)))
  let (infos, data) := tensors.foldl writeTensor ([], [])
  let body := body ++ infos
  body ++ List.replicate (padding body.length) 0 ++ data

/-! ## What a file means -/

/-- The JSON of a metadata value. -/
def toJson : MetaValue → Json
  | .u32 x => .ofNat x.toNat
  | .u64 x => .ofNat x.toNat
  | .f32 bits => .number (.float (Float32.ofBits bits).toFloat)
  | .string s => .string s

/-- A value the reader takes back: its string is within the limit, its float finite. -/
def Readable (limits : InspectionLimits) : MetaValue → Prop
  | .u32 _ | .u64 _ => True
  | .f32 bits => bits.toNat / 2 ^ 23 % 2 ^ 8 ≠ 2 ^ 8 - 1
  | .string s => s.utf8ByteSize ≤ limits.maxKeyLen

/-- A tensor of a supported type, of a shape within the limits, with the bytes these require. -/
structure Supported (limits : InspectionLimits) (tensor : GgufTensor) (type : GgufType) : Prop where
  typeCode : GgufType.fromU32 tensor.typeCode.toNat = .ok type
  rank : tensor.shape.length ≤ limits.maxShapeRank
  dims : ∀ d ∈ tensor.shape, d.toNat ≤ limits.maxDim
  bytes : type.nbytesForShape (tensor.shape.map (·.toNat)) = .ok tensor.bytes.length

/-- Tensors and metadata within the limits of a reader. -/
structure Writable (limits : InspectionLimits) (tensors : List (String × GgufTensor))
    (metadata : List (String × MetaValue)) : Prop where
  tensorCount : tensors.length ≤ limits.maxTensorCount
  names : (tensors.map (·.1)).Nodup
  nameLens : ∀ tensor ∈ tensors, tensor.1.utf8ByteSize ≤ limits.maxKeyLen
  supported : ∀ tensor ∈ tensors, ∃ type, Supported limits tensor.2 type
  metadataCount : metadata.length ≤ limits.maxMetadataEntries
  keys : (metadata.map (·.1)).Nodup
  keyLens : ∀ entry ∈ metadata, entry.1.utf8ByteSize ≤ limits.maxKeyLen
  values : ∀ entry ∈ metadata, Readable limits entry.2
  noAlignment : "general.alignment" ∉ metadata.map (·.1)

/-- An entry of an index that gives back a tensor: its name, shape and type, and the range of its bytes. -/
structure GivesBack (source : RandomAccessSource) (tensor : String × GgufTensor) (entry : RawTensorEntry) :
    Prop where
  key : entry.key = tensor.1
  shape : entry.shape = tensor.2.shape.map (·.toNat)
  type : ∃ type : GgufType, type.code = tensor.2.typeCode.toNat ∧ entry.storageType = type.storageElementType ∧
    entry.metadata.get "gguf.type_code" = some (.ofNat type.code)
  bytes : ∃ offset, entry.byteRanges = [⟨offset, tensor.2.bytes.length⟩] ∧
    source.readRange offset tensor.2.bytes.length = .ok tensor.2.bytes

/-- Reading the source gives the tensors, by name, and the metadata. -/
def ReadsBack (source : RandomAccessSource) (limits : InspectionLimits) (tensors : List (String × GgufTensor))
    (metadata : List (String × MetaValue)) : Prop :=
  ∃ index, Gguf.index source limits = .ok index ∧
    (∀ key json, index.metadata.get key = some json ↔ ∃ v, (key, v) ∈ metadata ∧ json = toJson v) ∧
    List.Forall₂ (GivesBack source) (Sorting.sortByKey (·.1) tensors) index.entries

/-! ## Reading what was written -/

section reading

variable (source : RandomAccessSource) {limits : InspectionLimits}

theorem takes_readExact (bs : List UInt8) : Takes source.bytes (readExact source bs.length) bs bs := by
  intro before after h
  rw [run_readExact, source.readRange_eq h]

theorem takes_lift {α : Type} {x : Except DynInferError α} {a : α} (h : x = .ok a) : Takes source.bytes (lift x) [] a := by
  subst h
  exact Takes.pure a

theorem takes_require {c : Bool} {e : DynInferError} (h : c = true) :
    Takes source.bytes (require c e : CursorM Unit) [] () := by
  subst h
  exact Takes.pure ()

theorem takes_readUint (width n : Nat) :
    Takes source.bytes (readUint source width) (toLe width n) (n % 256 ^ width) := by
  have h := (takes_readExact source (toLe width n)).last (g := ofLe)
  rw [length_toLe, ofLe_toLe] at h
  exact h

theorem takes_readUint_lt {width n : Nat} (h : n < 256 ^ width) :
    Takes source.bytes (readUint source width) (toLe width n) n := by
  have htakes := takes_readUint source width n
  rwa [Nat.mod_eq_of_lt h] at htakes

/-- Bytes that stand in a source are fewer than `2^63`. -/
theorem takes_of_length {α : Type} {x : CursorM α} {bs : List UInt8} {a : α}
    (h : bs.length < 2 ^ 63 → Takes source.bytes x bs a) : Takes source.bytes x bs a := by
  intro before after hsource
  have hlen : bs.length ≤ source.bytes.length := by
    rw [hsource]
    simp only [List.length_append]
    omega
  exact h (Nat.lt_of_le_of_lt hlen source.size) before after hsource

theorem takes_readString {s : String} (h : s.utf8ByteSize ≤ limits.maxKeyLen) :
    Takes source.bytes (readString source limits) (writeString s) s := by
  refine takes_of_length source fun hlen => ?_
  simp only [writeString, List.length_append, length_toLe, length_utf8] at hlen
  refine (takes_readUint_lt source (by omega)).bind ?_
  refine (takes_require source (decide_eq_true h)).skip ?_
  have hbytes := takes_readExact source (utf8 s)
  rw [length_utf8] at hbytes
  rw [← List.append_nil (utf8 s)]
  refine hbytes.bind ?_
  simp only [fromUtf8_utf8]
  exact Takes.pure s

theorem jsonOfF32_finite {bits : UInt32} (h : bits.toNat / 2 ^ 23 % 2 ^ 8 ≠ 2 ^ 8 - 1) :
    jsonOfF32 bits.toNat = toJson (.f32 bits) := by
  unfold jsonOfF32 toJson
  rw [if_neg h, UInt32.ofNat_toNat]

theorem takes_readPair {key : String} {v : MetaValue} (hkey : key.utf8ByteSize ≤ limits.maxKeyLen)
    (hv : Readable limits v) :
    Takes source.bytes (readPair source limits) (writeString key ++ writeMeta v) (key, toJson v) := by
  refine (takes_readString source hkey).bind ?_
  refine (takes_lift source (InspectionLimits.validateKey_ok_iff.mpr hkey)).skip ?_
  cases v with
  | u32 x =>
    refine (takes_readUint_lt source (by decide)).bind ?_
    exact ((takes_readUint_lt source x.toNat_lt).last (g := Json.ofNat)).last
  | u64 x =>
    refine (takes_readUint_lt source (by decide)).bind ?_
    exact ((takes_readUint_lt source x.toNat_lt).last (g := Json.ofNat)).last
  | f32 bits =>
    refine (takes_readUint_lt source (by decide)).bind ?_
    rw [← jsonOfF32_finite hv]
    exact ((takes_readUint_lt source bits.toNat_lt).last (g := jsonOfF32)).last
  | string s =>
    refine (takes_readUint_lt source (by decide)).bind ?_
    exact ((takes_readString source hv).last (g := Json.string)).last

/-- A tensor and the offset of its bytes in the data section. -/
structure Placed where
  name : String
  tensor : GgufTensor
  type : GgufType
  offset : Nat

def Placed.dir (placed : Placed) : TensorDir where
  name := placed.name
  shape := placed.tensor.shape.map (·.toNat)
  ggufType := placed.type
  offset := placed.offset

theorem takes_readTensorDir {placed : Placed} (hname : placed.name.utf8ByteSize ≤ limits.maxKeyLen)
    (hrank : placed.tensor.shape.length < 2 ^ 32) (h : Supported limits placed.tensor placed.type)
    (hoffset : placed.offset < 2 ^ 64) :
    Takes source.bytes (readTensorDir source limits) (writeInfo placed.name placed.tensor placed.offset)
      placed.dir := by
  have hdims : Takes source.bytes (readTimes (readU64 source) placed.tensor.shape.reverse.length)
      (placed.tensor.shape.reverse.flatMap (toLe 8 ·.toNat)) (placed.tensor.shape.reverse.map (·.toNat)) :=
    Takes.readTimes fun d _ => takes_readUint_lt source d.toNat_lt
  rw [List.length_reverse] at hdims
  refine (takes_readString source hname).bind ?_
  refine (takes_lift source (InspectionLimits.validateKey_ok_iff.mpr hname)).skip ?_
  refine (takes_readUint_lt source hrank).bind ?_
  refine (takes_require source (decide_eq_true h.rank)).skip ?_
  refine hdims.bind ?_
  rw [← List.map_reverse, List.reverse_reverse]
  refine (takes_lift source (InspectionLimits.validateShape_ok_iff.mpr ⟨?_, ?_⟩)).skip ?_
  · simpa using h.rank
  · simpa using h.dims
  refine (takes_readUint_lt source placed.tensor.typeCode.toNat_lt).bind ?_
  refine (takes_lift source h.typeCode).skip ?_
  exact (takes_readUint_lt source hoffset).last

end reading

/-! ## The layout -/

def typeOf (tensor : GgufTensor) : GgufType := (GgufType.fromU32 tensor.typeCode.toNat).toOption.getD .f32

/-- Where the pass puts each tensor, with `start` bytes of data written. -/
def place : Nat → List (String × GgufTensor) → List Placed
  | _, [] => []
  | start, tensor :: rest =>
    let offset := start + padding start
    { name := tensor.1, tensor := tensor.2, type := typeOf tensor.2, offset } ::
      place (offset + tensor.2.bytes.length) rest

/-- The data the pass adds to `start` bytes. -/
def blob : Nat → List (String × GgufTensor) → List UInt8
  | _, [] => []
  | start, tensor :: rest =>
    List.replicate (padding start) 0 ++
      (tensor.2.bytes ++ blob (start + padding start + tensor.2.bytes.length) rest)

def Placed.info (placed : Placed) : List UInt8 := writeInfo placed.name placed.tensor placed.offset

theorem foldl_writeTensor (tensors : List (String × GgufTensor)) (infos data : List UInt8) :
    tensors.foldl writeTensor (infos, data) =
      (infos ++ (place data.length tensors).flatMap Placed.info, data ++ blob data.length tensors) := by
  induction tensors generalizing infos data with
  | nil => simp [place, blob]
  | cons tensor rest ih =>
    rw [List.foldl_cons, writeTensor, ih]
    simp [place, blob, Placed.info, Nat.add_assoc]

theorem place_map (start : Nat) (tensors : List (String × GgufTensor)) :
    (place start tensors).map (fun placed => (placed.name, placed.tensor)) = tensors := by
  induction tensors generalizing start with
  | nil => rfl
  | cons tensor rest ih => simp [place, ih]

theorem place_type {start : Nat} {tensors : List (String × GgufTensor)} {placed : Placed}
    (h : placed ∈ place start tensors) : placed.type = typeOf placed.tensor := by
  induction tensors generalizing start with
  | nil => cases h
  | cons tensor rest ih =>
    cases h with
    | head => rfl
    | tail _ h => exact ih h

/-- The bytes of a tensor stand in the data at its offset. -/
theorem place_bytes {start : Nat} {tensors : List (String × GgufTensor)} {placed : Placed}
    (h : placed ∈ place start tensors) : ∃ before after,
      blob start tensors = before ++ placed.tensor.bytes ++ after ∧ placed.offset = start + before.length := by
  induction tensors generalizing start with
  | nil => cases h
  | cons tensor rest ih =>
    cases h with
    | head => exact ⟨List.replicate (padding start) 0, _, (List.append_assoc _ _ _).symm, by simp⟩
    | tail _ h =>
      obtain ⟨before, after, hblob, hoffset⟩ := ih h
      refine ⟨List.replicate (padding start) 0 ++ tensor.2.bytes ++ before, after, ?_, ?_⟩
      · simp [blob, hblob]
      · simp [hoffset, Nat.add_assoc]

/-- What stands before the data section. -/
def preamble (tensors : List (String × GgufTensor)) (metadata : List (String × MetaValue)) : List UInt8 :=
  magic ++ (toLe 4 3 ++ (toLe 8 tensors.length ++ (toLe 8 metadata.length ++
    ((metadata.flatMap fun entry => writeString entry.1 ++ writeMeta entry.2) ++
      (place 0 tensors).flatMap Placed.info))))

theorem writeGguf_eq (tensors : List (String × GgufTensor)) (metadata : List (String × MetaValue)) :
    writeGguf tensors metadata =
      preamble tensors metadata ++ List.replicate (padding (preamble tensors metadata).length) 0 ++ blob 0 tensors := by
  have hpreamble : magic ++ (toLe 4 3 ++ (toLe 8 tensors.length ++ (toLe 8 metadata.length ++
      metadata.flatMap fun entry => writeString entry.1 ++ writeMeta entry.2))) ++
      (place 0 tensors).flatMap Placed.info = preamble tensors metadata := by
    simp only [preamble, List.append_assoc]
  unfold writeGguf
  rw [foldl_writeTensor]
  simp only [List.nil_append, List.length_nil, hpreamble]

/-- The header of a file that was written. -/
def writtenHeader (tensors : List (String × GgufTensor)) (metadata : List (String × MetaValue)) : Header where
  version := 3
  metadata := AssocMap.insertAll [] Prod.fst Prod.snd (metadata.map fun entry => (entry.1, toJson entry.2))
  dirs := (place 0 tensors).map Placed.dir

theorem Supported.typeOf {limits : InspectionLimits} {tensor : GgufTensor} {type : GgufType}
    (h : Supported limits tensor type) : Gguf.typeOf tensor = type := by
  unfold Gguf.typeOf
  rw [h.typeCode]
  rfl

section roundTrip

variable {source : RandomAccessSource} {limits : InspectionLimits} {tensors : List (String × GgufTensor)}
  {metadata : List (String × MetaValue)}

theorem Writable.placed (h : Writable limits tensors metadata) {placed : Placed} (hp : placed ∈ place 0 tensors) :
    placed.name.utf8ByteSize ≤ limits.maxKeyLen ∧ Supported limits placed.tensor placed.type := by
  have hmem : (placed.name, placed.tensor) ∈ tensors := by
    rw [← place_map 0 tensors]
    exact List.mem_map_of_mem hp
  obtain ⟨type, hsupported⟩ := h.supported _ hmem
  refine ⟨h.nameLens _ hmem, ?_⟩
  rwa [place_type hp, hsupported.typeOf]

theorem takes_readHeader (h : Writable limits tensors metadata)
    (hranks : ∀ tensor ∈ tensors, tensor.2.shape.length < 2 ^ 32) (hsource : source.bytes = writeGguf tensors metadata) :
    Takes source.bytes (readHeader source limits) (preamble tensors metadata) (writtenHeader tensors metadata) := by
  refine takes_of_length source fun hlen => ?_
  have hinfos := length_le_flatMap (e := Placed.info) (place 0 tensors) fun placed => by
    simp [Placed.info, writeInfo, writeString, toLe]
  have hplaced : (place 0 tensors).length = tensors.length := by
    rw [← List.length_map (f := fun placed : Placed => (placed.name, placed.tensor)), place_map]
  have hpairs := length_le_flatMap (e := fun entry : String × MetaValue => writeString entry.1 ++ writeMeta entry.2)
    metadata fun entry => by simp [writeString, toLe]
  simp only [preamble, List.length_append] at hlen
  have hoffset : ∀ placed ∈ place 0 tensors, placed.offset < 2 ^ 64 := by
    intro placed hp
    obtain ⟨before, after, hblob, hoffset⟩ := place_bytes hp
    have hsize := source.size
    rw [hsource, writeGguf_eq, hblob] at hsize
    simp only [List.length_append] at hsize
    omega
  have hmagic := takes_readExact source magic
  refine hmagic.bind ?_
  refine (takes_require source (by simp)).skip ?_
  refine (takes_readUint_lt source (by decide)).bind ?_
  refine (takes_require source (by decide)).skip ?_
  refine (takes_readUint_lt source (by omega)).bind ?_
  refine (takes_readUint_lt source (by omega)).bind ?_
  refine (takes_require source (decide_eq_true ⟨h.tensorCount, h.metadataCount⟩)).skip ?_
  have hmetadata : Takes source.bytes (readTimes (readPair source limits) metadata.length)
      (metadata.flatMap fun entry => writeString entry.1 ++ writeMeta entry.2)
      (metadata.map fun entry => (entry.1, toJson entry.2)) :=
    Takes.readTimes fun entry hentry => takes_readPair source (h.keyLens entry hentry) (h.values entry hentry)
  refine hmetadata.bind ?_
  have hdirs : Takes source.bytes (readTimes (readTensorDir source limits) (place 0 tensors).length)
      ((place 0 tensors).flatMap Placed.info) ((place 0 tensors).map Placed.dir) := by
    refine Takes.readTimes fun placed hp => ?_
    obtain ⟨hname, hsupported⟩ := h.placed hp
    have hmem : (placed.name, placed.tensor) ∈ tensors := by
      rw [← place_map 0 tensors]
      exact List.mem_map_of_mem hp
    exact takes_readTensorDir source hname (hranks _ hmem) hsupported (hoffset placed hp)
  rw [hplaced] at hdirs
  exact hdirs.last

theorem header_written (h : Writable limits tensors metadata)
    (hranks : ∀ tensor ∈ tensors, tensor.2.shape.length < 2 ^ 32) (hsource : source.bytes = writeGguf tensors metadata) :
    header source limits = .ok (writtenHeader tensors metadata, (preamble tensors metadata).length) := by
  have hrun := (takes_readHeader h hranks hsource).run_zero (List.replicate _ 0 ++ blob 0 tensors) (by
    rw [hsource, writeGguf_eq, List.append_assoc])
  unfold header
  rw [hrun]

theorem alignment_written (h : Writable limits tensors metadata) :
    (writtenHeader tensors metadata).alignment = alignmentDefault := by
  have hkey : ∀ pair ∈ metadata.map (fun entry => (entry.1, toJson entry.2)), pair.1 ≠ "general.alignment" := by
    intro pair hpair heq
    obtain ⟨entry, hentry, rfl⟩ := List.mem_map.mp hpair
    exact h.noAlignment (List.mem_map.mpr ⟨entry, hentry, heq⟩)
  unfold Header.alignment writtenHeader
  rw [AssocMap.get_insertAll_of_not_mem [] hkey]
  rfl

theorem alignUp_padding {len : Nat} (h : len < 2 ^ 63) : alignUp len alignmentDefault = .ok (len + padding len) := by
  have hround : (len + 32 - 1) / 32 * 32 = len + (32 - len % 32) % 32 := by omega
  unfold alignUp padding alignmentDefault
  rw [if_neg (by decide), hround, if_pos (by omega)]

/-- **What is written reads back.** -/
theorem readsBack_of_writable (h : Writable limits tensors metadata)
    (hranks : ∀ tensor ∈ tensors, tensor.2.shape.length < 2 ^ 32) (hsource : source.bytes = writeGguf tensors metadata) :
    ReadsBack source limits tensors metadata := by
  have hfile : source.bytes = preamble tensors metadata ++
      List.replicate (padding (preamble tensors metadata).length) 0 ++ blob 0 tensors := by rw [hsource, writeGguf_eq]
  have hsize : source.bytes.length < 2 ^ 63 := source.size
  have hlen : (preamble tensors metadata).length < 2 ^ 63 := by
    rw [hfile] at hsize
    simp only [List.length_append] at hsize
    omega
  obtain ⟨dataOffset, hdata⟩ : ∃ dataOffset, dataOffset =
      (preamble tensors metadata).length + padding (preamble tensors metadata).length := ⟨_, rfl⟩
  -- every tensor stands in the file where its directory entry says
  have hstands : ∀ placed ∈ place 0 tensors, ∃ before after, source.bytes = before ++ placed.tensor.bytes ++ after ∧
      before.length = dataOffset + placed.offset := by
    intro placed hp
    obtain ⟨before, after, hblob, hoffset⟩ := place_bytes hp
    refine ⟨preamble tensors metadata ++ List.replicate (padding (preamble tensors metadata).length) 0 ++ before, after, ?_, ?_⟩
    · rw [hfile, hblob]
      simp only [List.append_assoc]
    · simp [hdata, hoffset, Nat.add_assoc]
  have hnbytes : ∀ placed ∈ place 0 tensors, placed.dir.ggufType.nbytesForShape placed.dir.shape =
      .ok placed.tensor.bytes.length := fun placed hp => (h.placed hp).2.bytes
  have hsizes : ∀ placed ∈ place 0 tensors, placed.dir.nbytes = placed.tensor.bytes.length := by
    intro placed hp
    unfold TensorDir.nbytes
    rw [hnbytes placed hp]
    rfl
  obtain ⟨index, hindex, hmetadata, hentries⟩ := index_of_placed (header_written h hranks hsource)
    (hdata ▸ alignment_written h ▸ alignUp_padding hlen) (by
      intro dir hdir
      obtain ⟨placed, hp, rfl⟩ := List.mem_map.mp hdir
      obtain ⟨before, after, hbytes, hbefore⟩ := hstands placed hp
      refine ⟨by rw [hnbytes placed hp, hsizes placed hp], ?_⟩
      rw [hsizes placed hp, RandomAccessSource.len, hbytes]
      simp only [List.length_append, Placed.dir]
      omega)
  refine ⟨index, hindex, fun key json => ?_, ?_⟩
  · rw [hmetadata, writtenHeader, AssocMap.get_insertAll_iff]
    · simp [eq_comm]
    · rw [List.map_map]
      exact h.keys
  · have htensors := Sorting.sortByKey_map (fun tensor : String × GgufTensor => tensor.1)
      (fun placed : Placed => (placed.name, placed.tensor)) (place 0 tensors)
    have hplaced := Sorting.sortByKey_map (fun entry : RawTensorEntry => entry.key)
      (fun placed : Placed => placed.dir.entry (writtenHeader tensors metadata).alignment dataOffset) (place 0 tensors)
    rw [place_map] at htensors
    rw [writtenHeader, List.map_map] at hentries
    rw [htensors, hentries.trans hplaced, List.forall₂_map_left_iff, List.forall₂_map_right_iff]
    refine List.forall₂_same.mpr fun placed hsort => ?_
    have hp : placed ∈ place 0 tensors := (List.mergeSort_perm _ _).mem_iff.mp hsort
    obtain ⟨before, after, hbytes, hbefore⟩ := hstands placed hp
    refine ⟨rfl, rfl, ⟨placed.type, GgufType.code_of_fromU32 (h.placed hp).2.typeCode, rfl, rfl⟩, before.length, ?_, ?_⟩
    · change [ByteRange.mk _ placed.dir.nbytes] = _
      rw [hsizes placed hp, hbefore]
      rfl
    · exact source.readRange_eq hbytes

/-- A matrix, a row of `Q8_0` blocks under a name that sorts before it, and an entry of each kind. -/
def sampleTensors : List (String × GgufTensor) :=
  [("token_embd.weight", ⟨[2, 2], 0, (List.range 16).map UInt8.ofNat⟩),
    ("output.weight", ⟨[32, 2], 8, (List.range 68).map UInt8.ofNat⟩)]

def sampleMetadata : List (String × MetaValue) :=
  [("general.architecture", .string "llama"), ("llama.block_count", .u32 1), ("general.size", .u64 84),
    ("llama.rope.freq_base", .f32 0x461c4000)]

theorem readsBack_two : ∃ source, source.bytes = writeGguf sampleTensors sampleMetadata ∧
    ReadsBack source {} sampleTensors sampleMetadata := by
  refine ⟨⟨.memory, none, writeGguf sampleTensors sampleMetadata, by decide +kernel⟩, rfl, ?_⟩
  refine readsBack_of_writable ?_ (by decide) rfl
  constructor
  case supported =>
    rw [sampleTensors, List.forall_mem_cons, List.forall_mem_singleton]
    refine ⟨⟨.f32, rfl, by decide, ?_, by decide⟩, ⟨.q8_0, rfl, by decide, ?_, by decide⟩⟩
    all_goals
      rw [List.forall_mem_cons, List.forall_mem_singleton]
      decide
  case values =>
    have hname : "llama".utf8ByteSize ≤ 16384 := by decide
    simpa [sampleMetadata, Readable] using hname
  all_goals decide

end roundTrip

/-- One element under any number of dimensions. -/
def deepScalar (rank : Nat) : GgufTensor := ⟨List.replicate rank 1, 0, [1, 2, 3, 4]⟩

theorem numel_replicate_one (rank : Nat) : Shape.numel (List.replicate rank 1) = some 1 := by
  unfold Shape.numel
  induction rank with
  | zero => rfl
  | succ rank ih => simpa [List.replicate_succ] using ih

theorem writable_deepScalar (rank : Nat) : Writable { maxShapeRank := rank } [("w", deepScalar rank)] [] := by
  constructor
  case supported =>
    intro tensor htensor
    cases List.mem_singleton.mp htensor
    refine ⟨.f32, rfl, by simp [deepScalar], fun d hd => ?_, ?_⟩
    · rw [List.eq_of_mem_replicate hd]
      exact Nat.one_le_two_pow
    · have hshape : (deepScalar rank).shape.map (·.toNat) = List.replicate rank 1 := by simp [deepScalar]
      rw [hshape, GgufType.nbytesForShape, numel_replicate_one]
      rfl
  case nameLens =>
    intro tensor htensor
    cases List.mem_singleton.mp htensor
    have hname : "w".utf8ByteSize = 1 := by decide +kernel
    simp [hname]
  all_goals simp

theorem length_deepScalar (rank : Nat) : (writeGguf [("w", deepScalar rank)] []).length ≤ 8 * rank + 128 := by
  have hmagic : magic.length = 4 := by decide +kernel
  have hname : "w".utf8ByteSize = 1 := by decide +kernel
  have hdims : (List.map (fun _ : UInt64 => 8) (List.replicate rank (1 : UInt64))).sum = 8 * rank := by
    simp [Nat.mul_comm]
  rw [writeGguf_eq]
  simp only [preamble, place, blob, Placed.info, writeInfo, writeString, deepScalar, padding, alignmentDefault,
    List.length_append, List.length_flatMap, List.length_replicate, length_toLe, length_utf8, hmagic, hname,
    List.flatMap_cons, List.flatMap_nil, List.length_nil, List.length_cons, List.reverse_replicate, hdims]
  omega

/-- The rank field is cut to 32 bits: a tensor of rank `2^32` does not read back. -/
theorem rank_cut : ¬ ∀ (source : RandomAccessSource) (limits : InspectionLimits)
    (tensors : List (String × GgufTensor)) (metadata : List (String × MetaValue)),
    Writable limits tensors metadata → source.bytes = writeGguf tensors metadata →
      ReadsBack source limits tensors metadata := by
  intro hall
  have hlen := length_deepScalar (2 ^ 32)
  obtain ⟨index, hindex, -, hentries⟩ := hall ⟨.memory, none, writeGguf [("w", deepScalar (2 ^ 32))] [], by omega⟩ _ _ _
    (writable_deepScalar (2 ^ 32)) rfl
  have hsorted : Sorting.sortByKey (·.1) [("w", deepScalar (2 ^ 32))] = [("w", deepScalar (2 ^ 32))] :=
    List.mergeSort_singleton _
  rw [hsorted] at hentries
  obtain ⟨entry, hentry, hback⟩ := Fallible.exists_of_forall₂ hentries (List.mem_singleton_self _)
  have hrank := index_rank_lt hindex entry hentry
  rw [hback.shape, List.length_map, deepScalar, List.length_replicate] at hrank
  exact absurd hrank (lt_irrefl _)

end Gguf

end Dyninfer
