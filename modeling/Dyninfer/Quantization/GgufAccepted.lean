/-
The GGUF convention against the registered definitions. The reader sizes a
tensor, the convention describes its encoding, and a definition checks both:
for every block type and for the dense scalars these tables agree, so whatever
the reader admits, the definition accepts. The other scalars are read and
decoded as well, and have no definition.
-/
import Dyninfer.Checkpoint.GgufConvention
import Dyninfer.Checkpoint.GgufFacts
import Dyninfer.Quantization.CandidateFacts
import Dyninfer.Quantization.StorageFacts

namespace Dyninfer

/-! ## Sizes -/

theorem GgufType.nbytesForShape_ok_iff {type : GgufType} {shape : Shape} {n : Nat} :
    type.nbytesForShape shape = .ok n ↔ ∃ numel size, shape.numel = some numel ∧ type.typeSize = some size ∧
      n < 2 ^ 64 ∧ ((∃ block, type.blockSize = some block ∧ numel % block = 0 ∧ n = numel / block * size) ∨
        type.blockSize = none ∧ n = numel * size) := by
  unfold nbytesForShape checkedMul
  cases shape.numel with
  | none => simp
  | some numel =>
    cases type.typeSize with
    | none => cases type.blockSize <;> simp [cannotSize]
    | some size =>
      cases type.blockSize with
      | none =>
        dsimp only
        by_cases h : numel * size < 2 ^ 64
        · rw [if_pos h]
          simp
          omega
        · rw [if_neg h]
          simp
          omega
      | some block =>
        dsimp only
        by_cases hmod : numel % block = 0
        · rw [if_neg (by simpa using hmod)]
          by_cases h : numel / block * size < 2 ^ 64
          · rw [if_pos h]
            simp [hmod]
            omega
          · rw [if_neg h]
            simp [hmod]
            omega
        · rw [if_pos hmod]
          simp [hmod]

theorem checkedSum_singleton {n : Nat} (h : n < 2 ^ 64) : checkedSum [n] = some n := by
  simpa [checkedSum] using h

/-! ## What a definition accepts -/

namespace QuantizationDefinition

/-- The definition describes blocks of this encoding: so many values in so many bytes, under this codec. -/
def describesBlock (q : BlockQuantization) (blockSize bytesPerBlock : Nat) (codec : String) :
    QuantizationDefinition → Bool
  | .ggufQ40 => GgufQ40Definition.matchesEncoding (.blockQuantized q) && GgufQ40Definition.describes q &&
      blockSize == 32 && bytesPerBlock == 18 && codec == "gguf.q4_0"
  | .ggufQ41 => describesSchema ggufQ41Schema
  | .ggufQ6K => describesSchema ggufQ6KSchema
  | .ggufQ80 => describesSchema ggufQ80Schema
  | .ggufBlock definition => describesSchema definition
  | _ => false
where
  describesSchema (schema : GgufBlockDefinition) : Bool :=
    schema.describes q && blockSize == schema.blockSize && bytesPerBlock == schema.bytesPerBlock && codec == schema.codec

end QuantizationDefinition

/-- One component of a codec that holds a whole number of blocks of the shape. -/
structure HoldsBlocks (parameter : LogicalParameter) (blockSize bytesPerBlock : Nat) (codec : String) : Prop where
  component : holdsOneBlockComponent codec parameter.components = true
  bytes : ∃ numel, parameter.logicalType.shape.numel = some numel ∧ numel % blockSize = 0 ∧
    numel / blockSize * bytesPerBlock < 2 ^ 64 ∧
    checkedSum (parameter.byteRanges.map (·.length)) = some (numel / blockSize * bytesPerBlock)

section accepts

variable {parameter : LogicalParameter} {q : BlockQuantization}

theorem GgufBlockDefinition.validate_of_holdsBlocks {definition : GgufBlockDefinition}
    (hencoding : parameter.encoding = .blockQuantized q) (hdescribes : definition.describes q = true)
    (h : HoldsBlocks parameter definition.blockSize definition.bytesPerBlock definition.codec) :
    definition.validate parameter = .ok () := by
  obtain ⟨numel, hnumel, hmod, hlt, hsum⟩ := h.bytes
  have hcomponent := h.component
  simp only [validate, hencoding, hdescribes, hnumel, hsum, orOverflow, Fallible.ok_bind]
  rw [if_neg (by simp), if_neg (by simpa using hmod), if_neg (by omega), if_neg (by simp [hcomponent])]
  rfl

theorem GgufQ40Definition.validate_of_holdsBlocks (hencoding : parameter.encoding = .blockQuantized q)
    (hmatches : matchesEncoding (.blockQuantized q) = true) (hdescribes : describes q = true)
    (h : HoldsBlocks parameter 32 18 "gguf.q4_0") : validate parameter = .ok () := by
  obtain ⟨numel, hnumel, hmod, hlt, hsum⟩ := h.bytes
  have hcomponent := h.component
  simp only [validate, hencoding, hmatches, hdescribes, hnumel, hsum, orOverflow, Fallible.ok_bind]
  rw [if_neg (by simp), if_neg (by simp), if_neg (by simpa using hmod), if_neg (by omega),
    if_neg (by simp [hcomponent])]
  rfl

theorem QuantizationDefinition.validate_of_describesBlock {definition : QuantizationDefinition}
    {blockSize bytesPerBlock : Nat} {codec : String} (hencoding : parameter.encoding = .blockQuantized q)
    (hdescribes : definition.describesBlock q blockSize bytesPerBlock codec = true)
    (h : HoldsBlocks parameter blockSize bytesPerBlock codec) : definition.validate parameter = .ok () := by
  have hschema {schema : GgufBlockDefinition}
      (hschema : describesBlock.describesSchema q blockSize bytesPerBlock codec schema = true) :
      schema.validate parameter = .ok () := by
    simp only [describesBlock.describesSchema, Bool.and_eq_true, beq_iff_eq] at hschema
    obtain ⟨⟨⟨hq, rfl⟩, rfl⟩, rfl⟩ := hschema
    exact GgufBlockDefinition.validate_of_holdsBlocks hencoding hq h
  cases definition with
  | ggufQ40 =>
    simp only [describesBlock, Bool.and_eq_true, beq_iff_eq] at hdescribes
    obtain ⟨⟨⟨⟨hmatches, hdescribes⟩, rfl⟩, rfl⟩, rfl⟩ := hdescribes
    exact GgufQ40Definition.validate_of_holdsBlocks hencoding hmatches hdescribes h
  | ggufQ41 => exact hschema hdescribes
  | ggufQ6K => exact hschema hdescribes
  | ggufQ80 => exact hschema hdescribes
  | ggufBlock definition => exact hschema hdescribes
  | plain storageType => cases hdescribes
  | mlxAffine bits => cases hdescribes

theorem PlainDefinition.validate_of_holds {scalar : ScalarType} {order : TensorOrder} {numel : Nat}
    (hencoding : parameter.encoding = .plain scalar order) (helement : parameter.logicalType.elementType = scalar) (hnumel : parameter.logicalType.shape.numel = some numel)
    (hlt : numel * scalar.sizeBytes < 2 ^ 64) (hone : parameter.components.length = 1)
    (hsum : checkedSum (parameter.byteRanges.map (·.length)) = some (numel * scalar.sizeBytes)) :
    PlainDefinition.validate scalar parameter = .ok () := by
  have hmatches : matchesEncoding scalar parameter.encoding = true := by simp [matchesEncoding, hencoding]
  simp only [validate, hmatches, helement, hnumel, hsum, orOverflow, Option.bind_eq_bind, Option.bind_some, if_pos hlt,
    Fallible.ok_bind]
  rw [if_neg (by simp), if_neg (by simp), if_neg (by simp [hone])]
  rfl

end accepts

/-! ## The tables agree -/

namespace GgufMixedConvention

/-- Every type, in the order of the codes. -/
def ggufTypes : List GgufType :=
  [.f32, .f16, .q4_0, .q4_1, .q5_0, .q5_1, .q8_0, .q8_1, .q2_k, .q3_k, .q4_k, .q5_k, .q6_k, .q8_k, .iq2_xxs, .iq2_xs,
    .iq3_xxs, .iq1_s, .iq4_nl, .iq3_s, .iq2_s, .iq4_xs, .i8, .i16, .i32, .i64, .f64, .iq1_m, .bf16, .tq1_0, .tq2_0,
    .mxfp4]

theorem mem_ggufTypes (type : GgufType) : type ∈ ggufTypes := by
  cases type <;> simp [ggufTypes]

/-- The encoding a type decodes to, and the definition that takes it, as the tables have them. -/
def tablesAgree (type : GgufType) : Bool :=
  match physicalEncoding type with
  | .error _ => false
  | .ok (encoding, logicalType) =>
    let definition := builtinDefinitions.find? (·.matchesEncoding encoding)
    match encoding with
    | .plain scalar _ => type.blockSize.isNone && type.typeSize == some scalar.sizeBytes && logicalType == scalar &&
        plainScalar type == some scalar && definition == if type.isDenseV1 then some (.plain scalar) else none
    | .blockQuantized q => type.storageElementType == .opaqueCodec s!"gguf.{type.name}" && !type.isDenseV1 &&
        match type.blockSize, type.typeSize with
        | some block, some size => definition.any (·.describesBlock q block size s!"gguf.{type.name}")
        | _, _ => false
    | _ => false

theorem tablesAgree_all : ggufTypes.all tablesAgree = true := by decide +kernel

theorem tablesAgree_eq_true (type : GgufType) : tablesAgree type = true :=
  List.all_eq_true.mp tablesAgree_all type (mem_ggufTypes type)

/-! ## From an entry to its definition -/

/-- An entry that the reader placed: its type, and its bytes in one range of the size the reader computed. -/
structure Placed (type : GgufType) (range : ByteRange) (entry : RawTensorEntry) : Prop where
  code : entry.metadata.get "gguf.type_code" = some (.ofNat type.code)
  storageType : entry.storageType = type.storageElementType
  byteRanges : entry.byteRanges = [range]
  size : type.nbytesForShape entry.shape = .ok range.length

theorem placed_of_index {source : RandomAccessSource} {limits : InspectionLimits} {index : RawCheckpointIndex}
    (h : Gguf.index source limits = .ok index) : ∀ entry ∈ index.entries, ∃ type range, Placed type range entry := by
  obtain ⟨found, pos, -, -, -, hentries, hplaced⟩ := Gguf.index_ok h
  intro entry hentry
  rw [hentries] at hentry
  obtain ⟨dir, hdir, rfl⟩ := List.mem_map.mp ((List.mergeSort_perm _ _).mem_iff.mp hentry)
  exact ⟨dir.ggufType, ⟨index.dataOffset + dir.offset, dir.nbytes⟩, rfl, rfl, rfl, (hplaced dir hdir).1⟩

/-- A parameter decoded from an entry of a type: its encoding is the type's, and it has one component, of the
entry's shape and bytes. -/
structure DecodedAs (type : GgufType) (entry : RawTensorEntry) (parameter : LogicalParameter) : Prop where
  encoding : physicalEncoding type = .ok (parameter.encoding, parameter.logicalType.elementType)
  shape : parameter.logicalType.shape = entry.shape
  component : ∃ component, parameter.components = [component] ∧ component.name = "data" ∧
    component.shape = entry.shape ∧ component.storageType = entry.storageType ∧
    component.byteRanges = entry.byteRanges

theorem DecodedAs.byteRanges {type : GgufType} {entry : RawTensorEntry} {parameter : LogicalParameter}
    (h : DecodedAs type entry parameter) : parameter.byteRanges = entry.byteRanges := by
  obtain ⟨component, hcomponents, -, -, -, hranges⟩ := h.component
  simp [LogicalParameter.byteRanges, hcomponents, hranges]

theorem decodeEntry_ok {type : GgufType} {range : ByteRange} {entry : RawTensorEntry} (h : Placed type range entry) :
    ∃ parameter, decodeEntry entry = .ok parameter ∧ DecodedAs type entry parameter := by
  have hcode : type.code < 2 ^ 32 := by cases type <;> decide
  have hread : entryGgufType entry = .ok type := by
    unfold entryGgufType
    rw [h.code, Option.bind_some, Json.asU64_ofNat (by omega)]
    show GgufType.fromU32 (asU32 type.code) = .ok type
    rw [show asU32 type.code = type.code from Nat.mod_eq_of_lt hcode, GgufType.fromU32_code]
  have hagree := tablesAgree_eq_true type
  unfold tablesAgree at hagree
  unfold decodeEntry
  rw [hread, Fallible.ok_bind]
  cases hencoding : physicalEncoding type with
  | error e => simp [hencoding] at hagree
  | ok pair => exact ⟨_, rfl, hencoding, rfl, _, rfl, rfl, rfl, rfl, rfl⟩

section definitions

variable {type : GgufType} {range : ByteRange} {entry : RawTensorEntry} {parameter : LogicalParameter}

theorem validate_of_placed (hplaced : Placed type range entry) (hdecoded : DecodedAs type entry parameter)
    (htype : type.blockSize.isSome ∨ type.isDenseV1 = true) : ∃ definition,
      builtinDefinitions.find? (·.matchesEncoding parameter.encoding) = some definition ∧
        definition.validate parameter = .ok () := by
  obtain ⟨numel, size, hnumel, hsize, hlt, hlength⟩ := GgufType.nbytesForShape_ok_iff.mp hplaced.size
  obtain ⟨component, hcomponents, hname, hshape, hstorage, hranges⟩ := hdecoded.component
  have hsum : checkedSum (parameter.byteRanges.map (·.length)) = some range.length := by
    rw [hdecoded.byteRanges, hplaced.byteRanges]
    exact checkedSum_singleton hlt
  have hagree := tablesAgree_eq_true type
  unfold tablesAgree at hagree
  rw [hdecoded.encoding] at hagree
  dsimp only at hagree
  cases hencoding : parameter.encoding with
  | plain scalar order =>
    simp only [hencoding, Bool.and_eq_true, Option.isNone_iff_eq_none, beq_iff_eq, hsize, Option.some.injEq] at hagree
    obtain ⟨⟨⟨⟨hblock, rfl⟩, helement⟩, -⟩, hfind⟩ := hagree
    rcases htype with hsome | hdense
    · simp [hblock] at hsome
    · rcases hlength with ⟨block, hsome, -⟩ | ⟨-, hlength⟩
      · simp [hblock] at hsome
      · refine ⟨.plain scalar, by rw [hfind, if_pos hdense], ?_⟩
        exact PlainDefinition.validate_of_holds hencoding helement (hdecoded.shape ▸ hnumel) (by omega)
          (by rw [hcomponents]; rfl) (hlength ▸ hsum)
  | blockQuantized q =>
    simp only [hencoding, Bool.and_eq_true, beq_iff_eq, Bool.not_eq_true', hsize] at hagree
    obtain ⟨⟨hcodec, hdense⟩, hagree⟩ := hagree
    rcases hlength with ⟨block, hblock, hmod, hlength⟩ | ⟨hblock, -⟩
    · rw [hblock] at hagree
      obtain ⟨definition, hfind, hdescribes⟩ := (Option.any_eq_true _ _).mp hagree
      refine ⟨definition, hfind, ?_⟩
      refine definition.validate_of_describesBlock hencoding hdescribes ⟨?_, numel, hdecoded.shape ▸ hnumel, hmod, ?_, ?_⟩
      · rw [hcomponents]
        simp [holdsOneBlockComponent, hname, hstorage, hplaced.storageType, hcodec]
      · omega
      · rw [hsum, hlength]
    · rw [hblock] at hagree
      cases hagree
  | groupQuantized | sparse | opaqueCodec => simp [hencoding] at hagree

theorem find_of_undefined (hdecoded : DecodedAs type entry parameter) (hblock : type.blockSize = none)
    (hdense : type.isDenseV1 = false) : builtinDefinitions.find? (·.matchesEncoding parameter.encoding) = none := by
  have hagree := tablesAgree_eq_true type
  unfold tablesAgree at hagree
  rw [hdecoded.encoding] at hagree
  dsimp only at hagree
  cases hencoding : parameter.encoding with
  | plain scalar order =>
    simp only [hencoding, Bool.and_eq_true, beq_iff_eq] at hagree
    rw [hagree.2, hdense]
    simp
  | blockQuantized q => simp [hencoding, hblock] at hagree
  | groupQuantized | sparse | opaqueCodec => simp [hencoding] at hagree

end definitions

/-- An entry and the parameter decoded from it: the reader's type and size, the convention's encoding, and
what the registry's definitions make of it. -/
structure Agree (registry : QuantizationRegistry) (type : GgufType) (entry : RawTensorEntry)
    (parameter : LogicalParameter) : Prop where
  placed : ∃ range, Placed type range entry
  decoded : DecodedAs type entry parameter
  accepted : type.blockSize.isSome ∨ type.isDenseV1 = true → ∃ definition,
    registry.resolve parameter.encoding = some definition ∧ definition.validate parameter = .ok ()
  undefined : type.blockSize = none → type.isDenseV1 = false → registry.resolve parameter.encoding = none

/-- **GGUF parameters.** Whatever index the reader accepts decodes, and every parameter of a block type or of a
dense scalar is accepted by the definition its encoding resolves to; the other scalars resolve to none. -/
theorem decoded_accepted (source : RandomAccessSource) (limits : InspectionLimits) {index : RawCheckpointIndex}
    {registry : QuantizationRegistry} (hindex : Gguf.index source limits = .ok index)
    (hregistry : defaultQuantizationRegistry = .ok registry) :
    ∃ catalog, decode index = .ok catalog ∧ List.Forall₂ (fun entry parameter => ∃ type,
      Agree registry type entry parameter) index.entries catalog.parameters := by
  have hresolve (parameter : LogicalParameter) : registry.resolve parameter.encoding =
      builtinDefinitions.find? (·.matchesEncoding parameter.encoding) := by
    rw [QuantizationRegistry.resolve, default_definitions hregistry]
  have hdecode : ∀ entry ∈ index.entries, ∃ parameter, decodeEntry entry = .ok parameter ∧
      ∃ type, Agree registry type entry parameter := by
    intro entry hentry
    obtain ⟨type, range, hplaced⟩ := placed_of_index hindex entry hentry
    obtain ⟨parameter, hparameter, hdecoded⟩ := decodeEntry_ok hplaced
    refine ⟨parameter, hparameter, type, ⟨range, hplaced⟩, hdecoded, fun htype => ?_, fun hblock hdense => ?_⟩
    · rw [hresolve]
      exact validate_of_placed hplaced hdecoded htype
    · rw [hresolve]
      exact find_of_undefined hdecoded hblock hdense
  obtain ⟨parameters, hparameters, hall⟩ := Fallible.mapM_exists hdecode
  exact ⟨⟨parameters, normalizedMetadata index.metadata⟩, by unfold decode; rw [hparameters]; rfl, hall⟩

/-- One tensor of a type: 32 values. -/
def oneTensorBytes (type : GgufType) : List UInt8 :=
  Gguf.magic ++ Bytes.toLe 4 3 ++ Bytes.toLe 8 1 ++ Bytes.toLe 8 0 ++
    (Bytes.toLe 8 1 ++ Bytes.utf8 "a" ++ Bytes.toLe 4 1 ++ Bytes.toLe 8 32 ++ Bytes.toLe 4 type.code ++
      Bytes.toLe 8 0) ++ List.replicate 40 0

def oneTensor (type : GgufType) (size : (oneTensorBytes type).length < 2 ^ 63) : RandomAccessSource where
  kind := .memory
  path := none
  bytes := oneTensorBytes type
  size

theorem decoded_accepted_q4_0 : ∃ index registry catalog,
    Gguf.index (oneTensor .q4_0 (by decide +kernel)) {} = .ok index ∧ index.entries.length = 1 ∧
      decode index = .ok catalog ∧ List.Forall₂ (fun entry parameter => ∃ type,
        Agree registry type entry parameter) index.entries catalog.parameters := by
  obtain ⟨index, hindex, hlength⟩ := Fallible.exists_ok (x := Gguf.index (oneTensor .q4_0 (by decide +kernel)) {})
    (p := fun index => index.entries.length == 1) (by decide +kernel)
  obtain ⟨registry, hregistry, -⟩ := Fallible.exists_ok (x := defaultQuantizationRegistry) (p := fun _ => true)
    (by decide +kernel)
  obtain ⟨catalog, hcatalog, hall⟩ := decoded_accepted _ _ hindex hregistry
  exact ⟨index, registry, catalog, hindex, by simpa using hlength, hcatalog, hall⟩

/-- An `i8` tensor is read and decoded, and no definition takes it. -/
theorem i8_undefined :
    ¬ ∀ (source : RandomAccessSource) (limits : InspectionLimits) (index : RawCheckpointIndex)
      (registry : QuantizationRegistry) (catalog : ParameterCatalog), Gguf.index source limits = .ok index →
      defaultQuantizationRegistry = .ok registry → decode index = .ok catalog →
      ∀ parameter ∈ catalog.parameters, ∃ definition, registry.resolve parameter.encoding = some definition ∧
        definition.validate parameter = .ok () := by
  intro hall
  obtain ⟨index, hindex, -⟩ := Fallible.exists_ok (x := Gguf.index (oneTensor .i8 (by decide +kernel)) {})
    (p := fun _ => true) (by decide +kernel)
  obtain ⟨registry, hregistry, -⟩ := Fallible.exists_ok (x := defaultQuantizationRegistry) (p := fun _ => true)
    (by decide +kernel)
  obtain ⟨read, hread, hencodings⟩ := Fallible.exists_ok
    (x := (Gguf.index (oneTensor .i8 (by decide +kernel)) {}).toOption.elim (.error (.internal "")) decode)
    (p := fun catalog => catalog.parameters.map (·.encoding) == [.plain .i8]) (by decide +kernel)
  rw [hindex] at hread
  have hencodings : read.parameters.map (·.encoding) = [.plain .i8] := by simpa using hencodings
  obtain ⟨parameter, hparameter, hencoding⟩ : ∃ parameter ∈ read.parameters, parameter.encoding = .plain .i8 :=
    List.mem_map.mp (by rw [hencodings]; exact List.mem_cons_self)
  obtain ⟨definition, hresolve, -⟩ := hall _ _ index registry read hindex hregistry hread parameter hparameter
  rw [QuantizationRegistry.resolve, default_definitions hregistry, hencoding] at hresolve
  revert hresolve
  rw [show builtinDefinitions.find? (·.matchesEncoding (.plain .i8)) = none by decide +kernel]
  simp

end GgufMixedConvention

end Dyninfer
