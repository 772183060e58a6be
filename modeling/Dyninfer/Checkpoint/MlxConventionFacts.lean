/-
What the MLX convention makes of a checkpoint: a partition of its tensors,
rotary caches apart, into parameters. A group of packed weight, scales and
biases is found by name, so its owner is the weight of that name; the shapes
that the decoder derives from the packed weight are those that the encoding's
definition derives from the logical one.
-/
import Dyninfer.Checkpoint.MlxConvention
import Dyninfer.Checkpoint.ShardedFacts
import Dyninfer.Quantization.CandidateFacts
import Dyninfer.Quantization.StorageFacts

namespace Dyninfer

/-! ## Accepted groups -/

theorem checkedSum_of_lt {lengths : List Nat} (h : lengths.sum < 2 ^ 64) : checkedSum lengths = some lengths.sum := by
  have hrun : ∀ start, start + lengths.sum < 2 ^ 64 →
      lengths.foldlM (fun total length => if total + length < 2 ^ 64 then some (total + length) else none) start =
        some (start + lengths.sum) := by
    induction lengths with
    | nil => intro start _; rfl
    | cons length lengths ih =>
      intro start hfits
      rw [List.sum_cons] at h hfits
      rw [List.foldlM_cons, if_pos (by omega), Option.bind_eq_bind, Option.bind_some, ih (by omega) _ (by omega),
        List.sum_cons, Nat.add_assoc]
  have hall := hrun 0 (by omega)
  rwa [Nat.zero_add] at hall

namespace MlxAffineDefinition

variable {bits : Nat} {parameter : LogicalParameter}

theorem checkComponentBytes_of_fills {name : String} {entry : RawTensorEntry} (h : entry.Fills) :
    checkComponentBytes bits parameter (MlxConvention.component name entry) = .ok () := by
  obtain ⟨ty, numel, htype, hnumel, hfits, hsum⟩ := h
  have hactual : checkedSum (entry.byteRanges.map (·.length)) = some (numel * ty.sizeBytes) := by
    rw [checkedSum_of_lt (by omega), hsum]
  unfold checkComponentBytes MlxConvention.component
  simp only [htype, hnumel, hactual, orOverflow, Option.bind_eq_bind, Option.bind_some, if_pos hfits, Fallible.ok_bind]
  exact if_neg fun hne => hne rfl

/-- The shapes of a group, for a logical shape with the given last axis. -/
theorem checkShapes_of {groupSize last : Nat} {outer : List Nat} {packed scales biases : StorageComponent}
    (hlogical : parameter.logicalType.shape = outer ++ [last]) (hfits : last * bits < 2 ^ 64)
    (hwords : last * bits % 32 = 0) (hgroups : last % groupSize = 0)
    (hpacked : packed.shape = outer ++ [last * bits / 32]) (hscales : scales.shape = outer ++ [last / groupSize])
    (hbiases : biases.shape = outer ++ [last / groupSize]) :
    checkShapes bits parameter groupSize packed scales biases = .ok () := by
  unfold checkShapes
  have hlast : (outer ++ [last]).getLastD 0 = last := by simp
  simp only [hlogical, hpacked, hscales, hbiases, hlast, List.dropLast_concat]
  rw [if_neg (by simp), if_neg (by omega), if_neg (by omega), if_neg (by omega), if_neg (by simp)]
  rfl

end MlxAffineDefinition

namespace MlxConvention

/-! ## One group -/

/-- The encoding of a group. -/
def affineGroup (bits groupSize : Nat) (ty : ScalarType) : GroupQuantization where
  logicalType := ty
  storageBits := bits % 2 ^ 8
  storageContainer := .u32
  signed := false
  axis := -1
  groupSize
  scaleType := ty
  biasType := some ty
  zeroPoint := .none
  packing := s!"mlx.affine.u{bits}"
  order := .rowMajor
  components := ["packed", "scales", "biases"]

/-- What a weight that is decoded with its scales and biases gives. -/
structure Affine (weight scales biases : RawTensorEntry) (bits groupSize : Nat) (parameter : LogicalParameter)
    (ty : ScalarType) (outer : List Nat) (words : Nat) : Prop where
  weightType : weight.storageType = .scalar .u32
  scalesType : scales.storageType = .scalar ty
  biasesType : biases.storageType = .scalar ty
  weightShape : weight.shape = outer ++ [words]
  fits : words * 32 < 2 ^ 64
  exact : words * 32 % bits = 0
  groups : words * 32 / bits % groupSize = 0
  scalesShape : scales.shape = outer ++ [words * 32 / bits / groupSize]
  biasesShape : biases.shape = outer ++ [words * 32 / bits / groupSize]
  name : parameter.canonicalName = weight.key
  logical : parameter.logicalType.shape = outer ++ [words * 32 / bits]
  encoding : parameter.encoding = .groupQuantized (affineGroup bits groupSize ty)
  components : parameter.components =
    [component "packed" weight, component "scales" scales, component "biases" biases]

theorem scalarType_ok {entry : RawTensorEntry} {ty : ScalarType} (h : scalarType entry = .ok ty) :
    entry.storageType = .scalar ty := by
  unfold scalarType at h
  split at h
  case h_1 hty => cases h; exact hty
  case h_2 => cases h

theorem decodeAffineWeight_ok {weight scales biases : RawTensorEntry} {bits groupSize : Nat}
    {parameter : LogicalParameter} (h : decodeAffineWeight weight scales biases bits groupSize = .ok parameter) :
    ∃ ty outer words, Affine weight scales biases bits groupSize parameter ty outer words := by
  obtain ⟨hrank, h⟩ := Fallible.ite_throw_ok h
  obtain ⟨hweight, h⟩ := Fallible.ite_throw_ok h
  obtain ⟨ty, hscales, h⟩ := Fallible.bind_ok h
  obtain ⟨biasType, hbiases, h⟩ := Fallible.bind_ok h
  obtain ⟨htypes, h⟩ := Fallible.ite_throw_ok h
  obtain ⟨hfits, h⟩ := Fallible.ite_throw_ok h
  obtain ⟨hexact, h⟩ := Fallible.ite_throw_ok h
  obtain ⟨hgroups, h⟩ := Fallible.ite_throw_ok h
  obtain ⟨hshapes, h⟩ := Fallible.ite_throw_ok h
  cases h
  obtain rfl : ty = biasType := by
    by_contra hne
    exact htypes (.inl hne)
  obtain ⟨hscalesShape, hbiasesShape⟩ := not_or.mp hshapes
  have hne : weight.shape ≠ [] := by simpa using hrank
  refine ⟨ty, weight.shape.dropLast, weight.shape.getLastD 0, not_not.mp hweight, scalarType_ok hscales,
    scalarType_ok hbiases, ?_, by omega, by omega, by omega, not_not.mp hscalesShape, not_not.mp hbiasesShape,
    rfl, rfl, rfl, rfl⟩
  rw [List.getLastD_eq_getLast?, List.getLast?_eq_getLast_of_ne_nil hne, Option.getD_some,
    List.dropLast_append_getLast hne]

section affine

variable {weight scales biases : RawTensorEntry} {bits groupSize : Nat} {parameter : LogicalParameter} {ty : ScalarType}
  {outer : List Nat} {words : Nat}

/-- The packed words of the logical axis. -/
theorem Affine.unpack (h : Affine weight scales biases bits groupSize parameter ty outer words) :
    words * 32 / bits * bits = words * 32 := Nat.div_mul_cancel (Nat.dvd_of_mod_eq_zero h.exact)

/-- The definition of the width accepts the group. -/
theorem Affine.accepted (h : Affine weight scales biases bits groupSize parameter ty outer words) (hbits : bits < 2 ^ 8)
    (hgroup : groupSize ≠ 0) (hweight : weight.Fills) (hscales : scales.Fills) (hbiases : biases.Fills) :
    MlxAffineDefinition.validate bits parameter = .ok () := by
  have hunpack := h.unpack
  have hfits := h.fits
  have hlt : bits < 256 := hbits
  have hshapes : MlxAffineDefinition.checkShapes bits parameter groupSize (component "packed" weight)
      (component "scales" scales) (component "biases" biases) = .ok () := by
    refine MlxAffineDefinition.checkShapes_of h.logical ?_ ?_ h.groups ?_ h.scalesShape h.biasesShape
    · rwa [hunpack]
    · rw [hunpack, Nat.mul_mod_left]
    · rw [hunpack, Nat.mul_div_cancel _ (by decide)]
      exact h.weightShape
  have hbytes : [component "packed" weight, component "scales" scales, component "biases" biases].forM
      (MlxAffineDefinition.checkComponentBytes bits parameter) = .ok () := by
    rw [Fallible.forM_ok_iff]
    simp only [List.mem_cons, List.not_mem_nil, or_false, forall_eq_or_imp, forall_eq]
    exact ⟨MlxAffineDefinition.checkComponentBytes_of_fills hweight,
      MlxAffineDefinition.checkComponentBytes_of_fills hscales, MlxAffineDefinition.checkComponentBytes_of_fills hbiases⟩
  have hdescribes : MlxAffineDefinition.describes bits (affineGroup bits groupSize ty) = true := by
    simp [MlxAffineDefinition.describes, MlxAffineDefinition.matchesEncoding, MlxAffineDefinition.id, affineGroup, hlt,
      hgroup]
  have hvalid : MlxAffineDefinition.validateComponents bits parameter (affineGroup bits groupSize ty)
      [component "packed" weight, component "scales" scales, component "biases" biases] = .ok () := by
    simp only [MlxAffineDefinition.validateComponents]
    rw [if_neg (by simp [component]), if_neg (by simp [component, affineGroup, h.weightType, h.scalesType, h.biasesType])]
    exact Fallible.bind_ok_iff.mpr ⟨(), hshapes, hbytes⟩
  unfold MlxAffineDefinition.validate
  simp only [h.encoding, h.components, if_pos hdescribes, hvalid]

/-- The registry finds that definition. -/
theorem resolve_affine {encodings : QuantizationRegistry} (hencodings : defaultQuantizationRegistry = .ok encodings)
    (hbits : bits ∈ [2, 3, 4, 6, 8]) :
    encodings.resolve (.groupQuantized (affineGroup bits groupSize ty)) = some (.mlxAffine bits) := by
  unfold QuantizationRegistry.resolve
  rw [default_definitions hencodings]
  simp only [List.mem_cons, List.not_mem_nil, or_false] at hbits
  rcases hbits with rfl | rfl | rfl | rfl | rfl <;> rfl

theorem Affine.bytes (h : Affine weight scales biases bits groupSize parameter ty outer words) (hweight : weight.Fills) :
    (component "packed" weight).byteLength * 8 = parameter.logicalType.shape.size * bits := by
  obtain ⟨ty', numel, htype, hnumel, -, hsum⟩ := hweight
  obtain rfl : ScalarType.u32 = ty' := by
    rw [h.weightType] at htype
    exact StorageElementType.scalar.inj htype
  have hsize : numel = outer.prod * words := by
    rw [Shape.numel_ok hnumel, h.weightShape, Shape.size, List.prod_append, List.prod_singleton]
  have hbytes : (component "packed" weight).byteLength = outer.prod * words * 4 := by
    rw [← hsize]
    exact hsum
  have hunpack := h.unpack
  rw [hbytes, h.logical, Shape.size, List.prod_append, List.prod_singleton, Nat.mul_assoc _ _ bits, hunpack,
    Nat.mul_assoc, Nat.mul_assoc]

end affine

/-! ## The loop over the entries -/

/-- What one entry gives: parameters, and the keys of the companions they take. -/
inductive Decodes (entries : List RawTensorEntry) (bits groupSize : Nat) (entry : RawTensorEntry) :
    List LogicalParameter → List String → Prop
  | skipped (h : isCompanion entry.key = true ∨ isRotaryCache entry.key = true) : Decodes entries bits groupSize entry [] []
  | affine {base : String} {scales biases : RawTensorEntry} {parameter : LogicalParameter} {ty : ScalarType}
      {outer : List Nat} {words : Nat} (hcompanion : isCompanion entry.key = false)
      (hkey : entry.key = base ++ ".weight") (hscales : scales ∈ entries) (hbiases : biases ∈ entries)
      (hscalesKey : scales.key = base ++ ".scales") (hbiasesKey : biases.key = base ++ ".biases")
      (h : Affine entry scales biases bits groupSize parameter ty outer words) :
      Decodes entries bits groupSize entry [parameter] [scales.key, biases.key]
  | plain {parameter : LogicalParameter} {ty : ScalarType} (hcompanion : isCompanion entry.key = false)
      (hname : parameter.canonicalName = entry.key) (hencoding : parameter.encoding = .plain ty)
      (hcomponents : parameter.components = [component "data" entry]) : Decodes entries bits groupSize entry [parameter] []

section loop

variable {entries : List RawTensorEntry} {bits groupSize : Nat}

theorem byKey_get {key : String} {entry : RawTensorEntry} (h : (byKey entries).get key = some entry) :
    entry ∈ entries ∧ entry.key = key := by
  obtain ⟨-, hget⟩ | ⟨before, found, after, hentries, hkey, -, hget⟩ :=
    AssocMap.get_insertAll_cases [] (·.key) id entries key
  · rw [byKey, hget] at h
    cases h
  · rw [byKey, hget] at h
    cases h
    exact ⟨hentries ▸ List.mem_append_right _ List.mem_cons_self, hkey⟩

theorem decodePlain_ok {entry : RawTensorEntry} {parameter : LogicalParameter} (h : decodePlain entry = .ok parameter) :
    parameter.canonicalName = entry.key ∧ (∃ ty, parameter.encoding = .plain ty) ∧
      parameter.components = [component "data" entry] := by
  obtain ⟨ty, -, h⟩ := Fallible.bind_ok h
  obtain ⟨-, h⟩ := Fallible.ite_throw_ok h
  cases h
  exact ⟨rfl, ⟨ty, rfl⟩, rfl⟩

theorem decodeEntry_ok {entry : RawTensorEntry} {decoded decoded' : Decoded}
    (h : decodeEntry (byKey entries) bits groupSize decoded entry = .ok decoded') :
    ∃ parameters consumed, Decodes entries bits groupSize entry parameters consumed ∧
      decoded' = ⟨decoded.parameters ++ parameters, decoded.consumedComponents ++ consumed⟩ := by
  unfold decodeEntry at h
  split at h
  case isTrue hcompanion =>
    cases h
    exact ⟨[], [], .skipped (.inl hcompanion), by simp⟩
  case isFalse hcompanion =>
    have hcompanion : isCompanion entry.key = false := by simpa using hcompanion
    split at h
    case isTrue hrotary =>
      cases h
      exact ⟨[], [], .skipped (.inr hrotary), by simp⟩
    case isFalse =>
      simp only at h
      split at h
      case h_1 scales biases hscales hbiases =>
        obtain ⟨parameter, hparameter, h⟩ := Fallible.bind_ok h
        cases h
        obtain ⟨ty, outer, words, haffine⟩ := decodeAffineWeight_ok hparameter
        obtain ⟨base, hbase, hscales⟩ := Option.bind_eq_some_iff.mp hscales
        obtain ⟨base', hbase', hbiases⟩ := Option.bind_eq_some_iff.mp hbiases
        obtain rfl : base = base' := Option.some_inj.mp (hbase.symm.trans hbase')
        obtain ⟨hscales, hscalesKey⟩ := byKey_get hscales
        obtain ⟨hbiases, hbiasesKey⟩ := byKey_get hbiases
        exact ⟨[parameter], [scales.key, biases.key],
          .affine hcompanion (Text.stripEnd_eq_some.mp hbase) hscales hbiases hscalesKey hbiasesKey haffine, rfl⟩
      case h_2 =>
        obtain ⟨parameter, hparameter, h⟩ := Fallible.bind_ok h
        cases h
        obtain ⟨hname, ⟨ty, hencoding⟩, hcomponents⟩ := decodePlain_ok hparameter
        exact ⟨[parameter], [], .plain hcompanion hname hencoding hcomponents, by simp⟩
      case h_3 => cases h

/-- The whole loop: the entries in turn. -/
theorem foldlM_decodeEntry_ok {items : List RawTensorEntry} {decoded decoded' : Decoded}
    (h : items.foldlM (decodeEntry (byKey entries) bits groupSize) decoded = .ok decoded') :
    ∃ outs : List (List LogicalParameter × List String),
      List.Forall₂ (fun entry out => Decodes entries bits groupSize entry out.1 out.2) items outs ∧
      decoded' = ⟨decoded.parameters ++ outs.flatMap (·.1), decoded.consumedComponents ++ outs.flatMap (·.2)⟩ := by
  induction items generalizing decoded with
  | nil =>
    cases h
    exact ⟨[], .nil, by simp⟩
  | cons entry items ih =>
    rw [List.foldlM_cons] at h
    obtain ⟨next, hnext, h⟩ := Fallible.bind_ok h
    obtain ⟨parameters, consumed, hdecodes, rfl⟩ := decodeEntry_ok hnext
    obtain ⟨outs, houts, rfl⟩ := ih h
    exact ⟨(parameters, consumed) :: outs, .cons hdecodes houts, by simp⟩

/-- A parameter is named by the entry that gives it. -/
theorem names_sublist {items : List RawTensorEntry} {outs : List (List LogicalParameter × List String)}
    (h : List.Forall₂ (fun entry out => Decodes entries bits groupSize entry out.1 out.2) items outs) :
    ((outs.flatMap (·.1)).map (·.canonicalName)).Sublist (items.map (·.key)) := by
  induction h with
  | nil => exact .slnil
  | @cons entry out items outs hdecodes _ ih =>
    obtain ⟨parameters, consumed⟩ := out
    rw [List.flatMap_cons, List.map_append, List.map_cons]
    cases hdecodes with
    | skipped => exact ih.cons _
    | affine _ _ _ _ _ _ h =>
      rw [List.map_singleton, h.name]
      exact ih.cons_cons _
    | plain _ hname =>
      rw [List.map_singleton, hname]
      exact ih.cons_cons _

/-! ## The owner of a tensor -/

/-- The key of the parameter that a tensor belongs to: of scales and biases, the weight of their name. -/
def owner (key : String) : String :=
  if isCompanion key then String.ofList (key.toList.take (key.toList.length - 7)) ++ ".weight" else key

theorem owner_append {base ending : String} (hcompanion : isCompanion (base ++ ending) = true)
    (hlength : ending.toList.length = 7) : owner (base ++ ending) = base ++ ".weight" := by
  unfold owner
  rw [if_pos hcompanion, String.toList_append, List.length_append, hlength, Nat.add_sub_cancel, List.take_left,
    String.ofList_toList]

theorem owner_scales (base : String) : owner (base ++ ".scales") = base ++ ".weight" := by
  refine owner_append ?_ rfl
  unfold isCompanion
  rw [Text.endsWith_iff.mpr ⟨base, rfl⟩, Bool.true_or]

theorem owner_biases (base : String) : owner (base ++ ".biases") = base ++ ".weight" := by
  refine owner_append ?_ rfl
  unfold isCompanion
  rw [Text.endsWith_iff.mpr ⟨base, rfl⟩, Bool.or_true]

theorem owner_of_not_companion {key : String} (h : isCompanion key = false) : owner key = key := by
  unfold owner
  rw [h]
  rfl

/-- Every component of a parameter has it as its owner. -/
theorem Decodes.owner_eq {entry : RawTensorEntry} {parameters : List LogicalParameter} {consumed : List String}
    (h : Decodes entries bits groupSize entry parameters consumed) :
    ∀ parameter ∈ parameters, ∀ key ∈ parameter.components.map (·.key), owner key = parameter.canonicalName := by
  cases h with
  | skipped => simp
  | affine hcompanion hkey _ _ hscalesKey hbiasesKey h =>
    simp only [forall_eq, h.components, h.name, List.map_cons, List.map_nil, List.mem_cons, List.not_mem_nil, or_false,
      forall_eq_or_imp, component]
    exact ⟨owner_of_not_companion hcompanion, by rw [hscalesKey, owner_scales, hkey],
      by rw [hbiasesKey, owner_biases, hkey]⟩
  | plain hcompanion hname hencoding hcomponents =>
    simp only [List.mem_singleton, forall_eq, hcomponents, hname, List.map_cons, List.map_nil, component]
    exact owner_of_not_companion hcompanion

end loop

/-! ## The catalog -/

/-- Every tensor, rotary caches apart, is a component of one parameter and of no other. -/
structure Partitions (entries : List RawTensorEntry) (parameters : List LogicalParameter) : Prop where
  names : (parameters.map (·.canonicalName)).Nodup
  covered : ∀ entry ∈ entries, isRotaryCache entry.key = false → ∃ parameter ∈ parameters,
    (∃ name, component name entry ∈ parameter.components) ∧
      ∀ other ∈ parameters, entry.key ∈ other.components.map (·.key) → other = parameter

/-- A quantised parameter: weight, scales and biases of one name, which the registered definition of its width accepts,
and whose shapes and packed bytes follow from its own shape. -/
structure Consistent (entries : List RawTensorEntry) (parameter : LogicalParameter) (q : GroupQuantization) : Prop where
  components : ∃ base weight scales biases, weight ∈ entries ∧ scales ∈ entries ∧ biases ∈ entries ∧
    weight.key = base ++ ".weight" ∧ scales.key = base ++ ".scales" ∧ biases.key = base ++ ".biases" ∧
    parameter.components = [component "packed" weight, component "scales" scales, component "biases" biases]
  registered : ∀ encodings, defaultQuantizationRegistry = .ok encodings →
    encodings.resolve parameter.encoding = some (.mlxAffine q.storageBits)
  accepted : MlxAffineDefinition.validate q.storageBits parameter = .ok ()
  geometry : ∃ packed scales biases outer last, parameter.components = [packed, scales, biases] ∧
    parameter.logicalType.shape = outer ++ [last] ∧ last * q.storageBits % 32 = 0 ∧ last % q.groupSize = 0 ∧
    packed.shape = outer ++ [last * q.storageBits / 32] ∧ scales.shape = outer ++ [last / q.groupSize] ∧
    biases.shape = outer ++ [last / q.groupSize] ∧
    packed.byteLength * 8 = parameter.logicalType.shape.size * q.storageBits

theorem Affine.consistent {entries : List RawTensorEntry} {weight scales biases : RawTensorEntry} {bits groupSize : Nat}
    {parameter : LogicalParameter} {ty : ScalarType} {outer : List Nat} {words : Nat} {base : String}
    (h : Affine weight scales biases bits groupSize parameter ty outer words) (hbits : bits ∈ [2, 3, 4, 6, 8])
    (hgroup : groupSize ≠ 0) (hfills : ∀ entry ∈ entries, entry.Fills) (hweight : weight ∈ entries)
    (hscales : scales ∈ entries) (hbiases : biases ∈ entries) (hkey : weight.key = base ++ ".weight")
    (hscalesKey : scales.key = base ++ ".scales") (hbiasesKey : biases.key = base ++ ".biases") :
    Consistent entries parameter (affineGroup bits groupSize ty) := by
  have hlt : bits < 2 ^ 8 := by
    simp only [List.mem_cons, List.not_mem_nil, or_false] at hbits
    omega
  have hstored : (affineGroup bits groupSize ty).storageBits = bits := Nat.mod_eq_of_lt hlt
  have hunpack := h.unpack
  refine ⟨⟨base, weight, scales, biases, hweight, hscales, hbiases, hkey, hscalesKey, hbiasesKey, h.components⟩, ?_, ?_,
    ⟨_, _, _, outer, words * 32 / bits, h.components, h.logical, ?_, h.groups, ?_, h.scalesShape, h.biasesShape, ?_⟩⟩
  · intro encodings hencodings
    rw [hstored, h.encoding]
    exact resolve_affine hencodings hbits
  · rw [hstored]
    exact h.accepted hlt hgroup (hfills weight hweight) (hfills scales hscales) (hfills biases hbiases)
  · rw [hstored, hunpack, Nat.mul_mod_left]
  · rw [hstored, hunpack, Nat.mul_div_cancel _ (by decide)]
    exact h.weightShape
  · rw [hstored]
    exact h.bytes (hfills weight hweight)

/-- What a decoding that succeeds has made of the entries. -/
theorem decode_ok {load : String → MetadataMap} {index : RawCheckpointIndex} {catalog : ParameterCatalog}
    (h : decode load index = .ok catalog) :
    ∃ bits groupSize outs, bits ∈ [2, 3, 4, 6, 8] ∧ groupSize ≠ 0 ∧
      List.Forall₂ (fun entry (out : List LogicalParameter × List String) =>
        Decodes index.entries bits groupSize entry out.1 out.2) index.entries outs ∧
      catalog.parameters = outs.flatMap (·.1) ∧
      ∀ entry ∈ index.entries, isCompanion entry.key = true → entry.key ∈ outs.flatMap (·.2) := by
  obtain ⟨bits, -, h⟩ := Fallible.bind_ok h
  obtain ⟨groupSize, -, h⟩ := Fallible.bind_ok h
  obtain ⟨hconfig, h⟩ := Fallible.ite_throw_ok h
  obtain ⟨decoded, hloop, h⟩ := Fallible.bind_ok h
  obtain ⟨horphan, h⟩ := Fallible.ite_throw_ok h
  cases h
  obtain ⟨hbits, hgroup⟩ := not_or.mp hconfig
  obtain ⟨outs, houts, rfl⟩ := foldlM_decodeEntry_ok hloop
  refine ⟨bits, groupSize, outs, not_not.mp hbits, hgroup, houts, List.nil_append _, fun entry hentry hcompanion => ?_⟩
  rw [not_not, List.map_eq_nil_iff, List.filter_eq_nil_iff] at horphan
  have hconsumed := horphan entry hentry
  rw [hcompanion, Bool.true_and, Bool.not_eq_true', Bool.not_eq_false, List.nil_append, List.contains_iff_mem]
    at hconsumed
  exact hconsumed

/-- The parameter that an entry belongs to. -/
theorem exists_component {entries : List RawTensorEntry} {bits groupSize : Nat}
    {outs : List (List LogicalParameter × List String)} (hkeys : (entries.map (·.key)).Nodup)
    (houts : List.Forall₂ (fun entry (out : List LogicalParameter × List String) =>
      Decodes entries bits groupSize entry out.1 out.2) entries outs)
    (hconsumed : ∀ entry ∈ entries, isCompanion entry.key = true → entry.key ∈ outs.flatMap (·.2))
    {entry : RawTensorEntry} (hentry : entry ∈ entries) (hrotary : isRotaryCache entry.key = false) :
    ∃ parameter ∈ outs.flatMap (·.1), ∃ name, component name entry ∈ parameter.components := by
  by_cases hcompanion : isCompanion entry.key = true
  · obtain ⟨out, hout, hkey⟩ := List.mem_flatMap.mp (hconsumed entry hentry hcompanion)
    obtain ⟨weight, -, hdecodes⟩ := Fallible.exists_of_forall₂ houts.flip hout
    obtain ⟨parameters, consumed⟩ := out
    cases hdecodes with
    | skipped => cases hkey
    | plain => cases hkey
    | @affine base scales biases parameter _ _ _ _ _ hscales hbiases _ _ h =>
      refine ⟨parameter, List.mem_flatMap.mpr ⟨_, hout, List.mem_singleton.mpr rfl⟩, ?_⟩
      rw [h.components]
      simp only [List.mem_cons, List.not_mem_nil, or_false] at hkey
      rcases hkey with hkey | hkey
      · rw [List.inj_on_of_nodup_map hkeys hentry hscales hkey]
        exact ⟨"scales", by simp⟩
      · rw [List.inj_on_of_nodup_map hkeys hentry hbiases hkey]
        exact ⟨"biases", by simp⟩
  · obtain ⟨out, hout, hdecodes⟩ := Fallible.exists_of_forall₂ houts hentry
    obtain ⟨parameters, consumed⟩ := out
    cases hdecodes with
    | skipped h =>
      rw [hrotary] at h
      exact absurd h (by simpa using hcompanion)
    | @affine _ _ _ parameter _ _ _ _ _ _ _ _ _ h =>
      refine ⟨parameter, List.mem_flatMap.mpr ⟨_, hout, List.mem_singleton.mpr rfl⟩, "packed", ?_⟩
      rw [h.components]
      exact List.mem_cons_self
    | @plain parameter _ _ _ _ hcomponents =>
      refine ⟨parameter, List.mem_flatMap.mpr ⟨_, hout, List.mem_singleton.mpr rfl⟩, "data", ?_⟩
      rw [hcomponents]
      exact List.mem_cons_self

def mixedEntry (key : String) (shape : Shape) (ty : ScalarType) (offset : Nat) : RawTensorEntry where
  key
  sourceFileIndex := 0
  shape
  storageType := .scalar ty
  byteRanges := [⟨offset, shape.prod * ty.sizeBytes⟩]
  alignment := 1
  endianness := .little
  metadata := []

/-- A weight of packed words with its scales and biases, and a plain norm. -/
def mixedIndex : RawCheckpointIndex where
  container := { formatId := "safetensors", version := some 1, magic := none }
  sourceFiles := []
  metadata := [("format", .string "mlx"), ("mlx.quantization.bits", .ofNat 4), ("mlx.quantization.group_size", .ofNat 64)]
  entries := [mixedEntry "layer.weight" [2, 8] .u32 0, mixedEntry "layer.scales" [2, 1] .bf16 64,
    mixedEntry "layer.biases" [2, 1] .bf16 68, mixedEntry "layer_norm.weight" [64] .bf16 72]
  dataOffset := 0

/-- **MLX decoding partitions the tensors.** A catalog that is decoded from tensors with distinct keys and the bytes of
their shapes has every tensor but the rotary caches in exactly one parameter, and every quantised parameter is a
consistent group that the registry accepts. -/
theorem decode_partitions {load : String → MetadataMap} {index : RawCheckpointIndex} {catalog : ParameterCatalog}
    (hkeys : (index.entries.map (·.key)).Nodup) (hfills : ∀ entry ∈ index.entries, entry.Fills)
    (h : decode load index = .ok catalog) :
    Partitions index.entries catalog.parameters ∧
      ∀ parameter ∈ catalog.parameters, parameter.encoding.isPlain = false →
        ∃ q, parameter.encoding = .groupQuantized q ∧ Consistent index.entries parameter q := by
  obtain ⟨bits, groupSize, outs, hbits, hgroup, houts, hparameters, hconsumed⟩ := decode_ok h
  rw [hparameters]
  have hnames : ((outs.flatMap (·.1)).map (·.canonicalName)).Nodup := hkeys.sublist (names_sublist houts)
  have howner : ∀ parameter ∈ outs.flatMap (·.1), ∀ key ∈ parameter.components.map (·.key),
      owner key = parameter.canonicalName := by
    intro parameter hparameter
    obtain ⟨out, hout, hparameter⟩ := List.mem_flatMap.mp hparameter
    obtain ⟨entry, -, hdecodes⟩ := Fallible.exists_of_forall₂ houts.flip hout
    exact hdecodes.owner_eq parameter hparameter
  have hunique : ∀ entry : RawTensorEntry, ∀ parameter ∈ outs.flatMap (·.1), ∀ name,
      component name entry ∈ parameter.components → ∀ other ∈ outs.flatMap (·.1),
        entry.key ∈ other.components.map (·.key) → other = parameter := by
    intro entry parameter hparameter name hcomponent other hother hkey
    have hmem : entry.key ∈ parameter.components.map (·.key) := List.mem_map.mpr ⟨_, hcomponent, rfl⟩
    exact List.inj_on_of_nodup_map hnames hother hparameter
      ((howner other hother _ hkey).symm.trans (howner parameter hparameter _ hmem))
  refine ⟨⟨hnames, fun entry hentry hrotary => ?_⟩, fun parameter hparameter hplain => ?_⟩
  · obtain ⟨parameter, hparameter, name, hcomponent⟩ := exists_component hkeys houts hconsumed hentry hrotary
    exact ⟨parameter, hparameter, ⟨name, hcomponent⟩, hunique entry parameter hparameter name hcomponent⟩
  · obtain ⟨out, hout, hparameter⟩ := List.mem_flatMap.mp hparameter
    obtain ⟨entry, hentry, hdecodes⟩ := Fallible.exists_of_forall₂ houts.flip hout
    obtain ⟨parameters, consumed⟩ := out
    cases hdecodes with
    | skipped => cases hparameter
    | plain _ _ hencoding =>
      cases List.mem_singleton.mp hparameter
      rw [hencoding] at hplain
      cases hplain
    | @affine _ _ _ _ ty _ _ _ hkey hscales hbiases hscalesKey hbiasesKey h =>
      cases List.mem_singleton.mp hparameter
      exact ⟨affineGroup bits groupSize ty, h.encoding,
        h.consistent hbits hgroup hfills hentry hscales hbiases hkey hscalesKey hbiasesKey⟩

theorem decode_partitions_mixed : ∃ catalog, decode (fun _ => []) mixedIndex = .ok catalog ∧
    Partitions mixedIndex.entries catalog.parameters ∧
      ∀ parameter ∈ catalog.parameters, parameter.encoding.isPlain = false →
        ∃ q, parameter.encoding = .groupQuantized q ∧ Consistent mixedIndex.entries parameter q := by
  obtain ⟨catalog, hcatalog, -⟩ := Fallible.exists_ok (x := decode (fun _ => []) mixedIndex)
    (p := fun _ => true) (by decide +kernel)
  refine ⟨catalog, hcatalog, decode_partitions (by decide) (fun entry hentry => ?_) hcatalog⟩
  simp only [mixedIndex, List.mem_cons, List.not_mem_nil, or_false] at hentry
  rcases hentry with rfl | rfl | rfl | rfl
  · exact ⟨.u32, 16, rfl, by decide, by decide, by decide⟩
  · exact ⟨.bf16, 2, rfl, by decide, by decide, by decide⟩
  · exact ⟨.bf16, 2, rfl, by decide, by decide, by decide⟩
  · exact ⟨.bf16, 64, rfl, by decide, by decide, by decide⟩

end MlxConvention

end Dyninfer
