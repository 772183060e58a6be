/-
The parameter globals of a prepared model. Each declared parameter is read by an
operation of the graph, so it has a required slot, which the binder bound and
coverage validated: its globals load the components that were bound, under
their external keys. The shape of a plain one is the configuration's.
-/
import Dyninfer.Binding.PlanFacts
import Dyninfer.Lowering.ParameterFacts
import Dyninfer.Runtime.KeyFacts

namespace Dyninfer

/-! ## The tables of the configuration -/

namespace DenseDecoderConfig

section tables

variable {bound : BoundModel} {binding : ParameterBinding}

/-- A binding of a plan with distinct names, between others of other names. -/
theorem bindings_cut (hnodup : (bound.binding.bindings.map (·.canonicalName)).Nodup)
    (hbinding : binding ∈ bound.binding.bindings) :
    ∃ before after, bound.binding.bindings = before ++ binding :: after ∧
      ∀ other ∈ after, other.canonicalName ≠ binding.canonicalName := by
  obtain ⟨before, after, hsplit⟩ := List.append_of_mem hbinding
  refine ⟨before, after, hsplit, fun other hother heq => ?_⟩
  rw [hsplit, List.map_append, List.map_cons] at hnodup
  have htail := (List.nodup_append.mp hnodup).2.1
  exact (List.nodup_cons.mp htail).1 (heq ▸ List.mem_map_of_mem hother)

theorem paramBinding_of_mem (portableAttn : Bool) (hnodup : (bound.binding.bindings.map (·.canonicalName)).Nodup)
    (hbinding : binding ∈ bound.binding.bindings) :
    (fromBoundModel portableAttn bound).paramBinding binding.canonicalName = some binding := by
  obtain ⟨before, after, hsplit, hafter⟩ := bindings_cut hnodup hbinding
  change (AssocMap.insertAll [] (·.canonicalName) id bound.binding.bindings).get _ = _
  rw [hsplit]
  exact AssocMap.get_insertAll_append [] hafter

theorem paramKey_of_mem (portableAttn : Bool) (hnodup : (bound.binding.bindings.map (·.canonicalName)).Nodup)
    (hbinding : binding ∈ bound.binding.bindings) :
    (fromBoundModel portableAttn bound).paramKey binding.canonicalName =
      ((binding.components.head?).map (·.externalKey)).getD binding.canonicalName := by
  obtain ⟨before, after, hsplit, hafter⟩ := bindings_cut hnodup hbinding
  change ((AssocMap.insertAll [] _ _ bound.binding.bindings).get _).getD _ = _
  rw [hsplit, AssocMap.get_insertAll_append [] hafter, Option.getD_some]

theorem paramDtype_of_mem (portableAttn : Bool) (hnodup : (bound.binding.bindings.map (·.canonicalName)).Nodup)
    (hbinding : binding ∈ bound.binding.bindings) {ty : ScalarType} (hty : boundParamDtype binding = some ty) :
    (fromBoundModel portableAttn bound).paramDtype binding.canonicalName = ty := by
  obtain ⟨before, after, hsplit, hafter⟩ := bindings_cut hnodup hbinding
  change (AssocMap.get (List.foldl _ ([] : AssocMap String ScalarType) bound.binding.bindings) _).getD _ = ty
  rw [hsplit, List.foldl_append, List.foldl_cons, AssocMap.get_foldl_kept fun other hother m => ?_]
  · simp only [hty, AssocMap.get_insert_self, Option.getD_some]
  · split
    case h_1 => exact AssocMap.get_insert_ne _ _ (hafter other hother).symm
    case h_2 => rfl

end tables

end DenseDecoderConfig

/-! ## What the operations read -/

namespace DenseDecoderConfig

section declared

variable {c : DenseDecoderConfig} {hasQkNorm : Bool} {block : DecoderBlockSpec} {shortConv : ShortConvBlockSpec}

/-- Some signature reads the parameter, and nothing else. -/
def ReadBy (sigs : List OpSig) (ref : ParameterRef) : Prop := ∃ sig ∈ sigs, sig.parameters = [ref.canonical]

theorem ReadBy.mono {sigs sigs' : List OpSig} {ref : ParameterRef} (h : ∀ sig ∈ sigs, sig ∈ sigs')
    (hread : ReadBy sigs ref) : ReadBy sigs' ref := by
  obtain ⟨sig, hsig, hparams⟩ := hread
  exact ⟨sig, h sig hsig, hparams⟩

theorem readBy_qkNorms (hqk : c.hasQkNorm = true → hasQkNorm = true) (layer : Nat) :
    ∀ ref ∈ c.qkNorms layer, ReadBy (block.attentionSigs layer hasQkNorm) ref := by
  intro ref href
  unfold qkNorms at href
  split at href
  case isFalse => exact absurd href List.not_mem_nil
  case isTrue h =>
    rw [hqk h]
    simp only [List.mem_cons, List.not_mem_nil, or_false] at href
    simp only [ReadBy, DecoderBlockSpec.attentionSigs, DecoderBlockSpec.qkNormSigs, if_true, List.mem_cons,
      List.mem_append, or_and_right, exists_or, exists_eq_left]
    obtain rfl | rfl := href
    · exact .inr (.inr (.inr (.inr (.inl (.inl rfl)))))
    · exact .inr (.inr (.inr (.inr (.inl (.inr (.inl rfl))))))

theorem readBy_attention (hqk : c.hasQkNorm = true → hasQkNorm = true) (layer : Nat) :
    ∀ ref ∈ c.attnNorm layer :: (c.attnProjections layer ++ c.attnOutput layer :: c.qkNorms layer),
      ReadBy (block.attentionSigs layer hasQkNorm) ref := by
  intro ref href
  simp only [attnProjections, List.cons_append, List.nil_append, List.mem_cons] at href
  obtain rfl | rfl | rfl | rfl | rfl | href := href
  case inr.inr.inr.inr.inr => exact readBy_qkNorms hqk layer ref href
  all_goals
    simp only [ReadBy, DecoderBlockSpec.attentionSigs, List.mem_cons, List.mem_append, or_and_right, exists_or,
      exists_eq_left]
  · exact .inl rfl
  · exact .inr (.inl rfl)
  · exact .inr (.inr (.inl rfl))
  · exact .inr (.inr (.inr (.inl rfl)))
  · exact .inr (.inr (.inr (.inr (.inr (.inr (.inr (.inr (.inr (.inr (.inr (.inl rfl)))))))))))

theorem readBy_shortConv (layer : Nat) :
    ∀ ref ∈ [c.attnNorm layer, c.shortconvInProj layer, c.shortconvConv layer, c.shortconvOutProj layer],
      ReadBy (shortConv.shortConvSigs layer) ref := by
  intro ref href
  simp only [List.mem_cons, List.not_mem_nil, or_false] at href
  simp only [ReadBy, ShortConvBlockSpec.shortConvSigs, List.mem_cons, or_and_right, exists_or, exists_eq_left]
  obtain rfl | rfl | rfl | rfl := href
  · exact .inl rfl
  · exact .inr (.inl rfl)
  · exact .inr (.inr (.inl rfl))
  · exact .inr (.inr (.inr (.inl rfl)))

theorem readBy_feedForward (layer : Nat) : ∀ ref ∈ c.ffnWeights layer, ReadBy (block.feedForwardSigs layer) ref := by
  intro ref href
  simp only [ffnWeights, List.mem_cons, List.not_mem_nil, or_false] at href
  simp only [ReadBy, DecoderBlockSpec.feedForwardSigs, List.mem_cons, or_and_right, exists_or, exists_eq_left]
  obtain rfl | rfl | rfl | rfl := href
  · exact .inl rfl
  · exact .inr (.inl rfl)
  · exact .inr (.inr (.inl rfl))
  · exact .inr (.inr (.inr (.inr (.inr (.inl rfl)))))

theorem readBy_layer (hqk : c.hasQkNorm = true → hasQkNorm = true) (layer : Nat) :
    ∀ ref ∈ c.layerParameters layer, ReadBy (layerSigs hasQkNorm block shortConv (c.layerKind layer, layer)) ref := by
  intro ref href
  have hffn : ref ∈ c.ffnWeights layer →
      ReadBy (layerSigs hasQkNorm block shortConv (c.layerKind layer, layer)) ref := fun h =>
    (readBy_feedForward layer ref h).mono fun _ => List.mem_append_right _
  unfold layerParameters at href
  rw [← List.cons_append] at href
  obtain href | href := List.mem_append.mp href
  · refine ReadBy.mono (fun _ => List.mem_append_left _) ?_
    cases hkind : c.layerKind layer with
    | attention =>
      rw [hkind] at href
      exact readBy_attention hqk layer ref href
    | shortConv =>
      rw [hkind] at href
      exact readBy_shortConv layer ref href
  · exact hffn href

/-- Every parameter the program declares is read by an operation of the graph. -/
theorem readBy_declared {schedule : List LayerKind} (hlayers : (List.range c.numLayers).map c.layerKind = schedule)
    (hqk : c.hasQkNorm = true → hasQkNorm = true) (hidden vocab : Nat) (epsilon : Float) :
    ∀ ref ∈ c.declaredParameters,
      ReadBy (modelSigs hidden vocab epsilon (schedule.zipIdx.flatMap (layerSigs hasQkNorm block shortConv))) ref := by
  intro ref href
  simp only [declaredParameters, List.mem_cons, List.mem_append, List.not_mem_nil, or_false] at href
  obtain rfl | href | rfl | rfl := href
  · exact ⟨_, List.mem_cons_of_mem _ List.mem_cons_self, rfl⟩
  · obtain ⟨layer, hlayer, href⟩ := List.mem_flatMap.mp href
    have hread : ReadBy (layerSigs hasQkNorm block shortConv (c.layerKind layer, layer)) ref :=
      readBy_layer hqk layer ref href
    refine hread.mono fun sig hsig => ?_
    refine List.mem_cons_of_mem _ (List.mem_cons_of_mem _ (List.mem_append_left _ (List.mem_flatMap.mpr ⟨_, ?_, hsig⟩)))
    rw [List.mem_zipIdx_iff_getElem?, ← hlayers, List.getElem?_map,
      List.getElem?_range (List.mem_range.mp hlayer), Option.map_some]
  · exact ⟨rmsNormSig epsilon hidden "output_norm.weight", by simp [modelSigs], rfl⟩
  · exact ⟨⟨.outputProjection, some (.activations vocab), ["output.weight"]⟩, by simp [modelSigs], rfl⟩

/-- Without the norms in the graph's layers, the configuration has none. -/
theorem hasQkNorm_of_sigs {bound : BoundModel} {portableAttn : Bool} {schedule : List LayerKind} {hidden vocab : Nat}
    {epsilon : Float} (h : bound.architecture.HasSigs
      (modelSigs hidden vocab epsilon (schedule.zipIdx.flatMap (layerSigs hasQkNorm block shortConv))))
    (hqk : (fromBoundModel portableAttn bound).hasQkNorm = true) : hasQkNorm = true := by
  obtain ⟨operation, hop, hkind⟩ := List.any_eq_true.mp
    (show bound.architecture.operations.any (·.kind.isPerHeadRmsNorm) = true from hqk)
  obtain ⟨sig, hsig, hshows⟩ := h.sig_of_mem hop
  rw [hshows.1] at hkind
  cases hasQkNorm with
  | true => rfl
  | false =>
    have hlayer : ∀ entry, ∀ sig ∈ layerSigs false block shortConv entry, sig.kind.isPerHeadRmsNorm = false := by
      rintro ⟨kind, layer⟩
      cases kind <;> cases htheta : block.ropeTheta <;>
        simp [layerSigs, DecoderBlockSpec.attentionSigs, DecoderBlockSpec.qkRopeSigs, htheta,
          DecoderBlockSpec.feedForwardSigs, ShortConvBlockSpec.shortConvSigs, rmsNormSig, linearSig, residualSig,
          OperationKind.isPerHeadRmsNorm]
    simp only [modelSigs, List.mem_cons, List.mem_append, List.mem_flatMap, List.not_mem_nil, or_false] at hsig
    obtain rfl | rfl | ⟨entry, -, hsig⟩ | rfl | rfl := hsig
    case inr.inr.inl => rw [hlayer entry sig hsig] at hkind; cases hkind
    all_goals cases hkind

end declared

end DenseDecoderConfig

/-! ## What was bound -/

section prepared

variable {digests : ContentDigests} {request : CompileRequest} {prepared : PreparedRequest}
  {encodings : QuantizationRegistry} {kernels : KernelRegistry}

/-- A checkpoint whose names tell its parameters apart, whose plain tensors are stored in the type they are encoded
in, and whose configuration schedules the layers of the graph. -/
structure CompileRequest.Regular (request : CompileRequest) (prepared : PreparedRequest) : Prop where
  names : (prepared.catalog.parameters.map (·.canonicalName)).Nodup
  plain : ∀ param ∈ prepared.catalog.parameters, ∀ ty order, param.encoding = .plain ty order →
    ∀ component ∈ param.components, component.storageType = .scalar ty
  schedule : ∀ architecture, ArchitectureRegistry.get request.architectureId = some architecture →
    architecture.ScheduleLowered prepared.package.resolvedConfig

theorem Prepares.slotNames (hp : Prepares digests request prepared encodings kernels) :
    ∀ slot ∈ prepared.package.graph.parameterSlots, slot.canonicalName = slot.id ∧ slot.optional = false := by
  obtain ⟨architecture, -, hpackage⟩ := Fallible.bind_ok hp.package
  obtain ⟨config, -, hpackage⟩ := Fallible.bind_ok hpackage
  obtain ⟨-, numLayers, vocab, block, schedule, shortConv, -, -, -, hsigs⟩ := buildWithConfig_sigs hpackage
  exact hsigs.slots

theorem Prepares.bindingNames_nodup (hp : Prepares digests request prepared encodings kernels) :
    (prepared.plan.bindings.map (·.canonicalName)).Nodup := by
  have hslots := (verifyArchitectureConformance_ok (buildPackage_conforms hp.package)).slots
  have hnames : prepared.package.graph.parameterSlots.map (·.canonicalName) =
      prepared.package.graph.parameterSlots.map (·.id) :=
    List.map_congr_left fun slot hslot => (hp.slotNames slot hslot).1
  rw [Binder.bind_bindings hp.plan, List.map_map]
  have hsub := (resolved_slots_sublist prepared.package.graph.parameterSlots prepared.catalog.parameters).map
    (·.canonicalName)
  rw [List.map_map] at hsub
  exact hsub.nodup (hnames ▸ hslots)

/-- The parameter coverage looks up for a slot carries the slot's name. -/
theorem Prepares.covered_name (hp : Prepares digests request prepared encodings kernels) {name : String}
    {param : LogicalParameter}
    (h : (definitionsBySlot prepared.catalog.parameters prepared.plan).get name = some param) :
    param ∈ prepared.catalog.parameters ∧ param.canonicalName = name := by
  obtain ⟨-, hget⟩ | ⟨before, ⟨slotId, found⟩, after, hpairs, hkey, -, hget⟩ :=
    AssocMap.get_insertAll_cases [] Prod.fst Prod.snd (prepared.plan.bindings.filterMap fun bound =>
      (prepared.catalog.parameters.find? (·.canonicalName == bound.canonicalName)).map fun parameter =>
        (bound.slotId, parameter)) name
  · rw [definitionsBySlot, hget] at h
    cases h
  · rw [definitionsBySlot, hget] at h
    cases h
    have hmem : (slotId, found) ∈ prepared.plan.bindings.filterMap fun bound =>
        (prepared.catalog.parameters.find? (·.canonicalName == bound.canonicalName)).map fun parameter =>
          (bound.slotId, parameter) := hpairs ▸ List.mem_append_right _ List.mem_cons_self
    obtain ⟨binding, hbinding, hpair⟩ := List.mem_filterMap.mp hmem
    obtain ⟨param, hfind, heq⟩ := Option.map_eq_some_iff.mp hpair
    obtain ⟨rfl, rfl⟩ := Prod.mk.inj heq
    obtain ⟨slot, hslot, bound, -, rfl⟩ := (Binder.mem_bindings_iff hp.plan).mp hbinding
    refine ⟨List.mem_of_find?_eq_some hfind, ?_⟩
    have hname := beq_iff_eq.mp (List.find?_some (p := fun p : LogicalParameter => p.canonicalName == slot.canonicalName)
      hfind)
    exact hname.trans ((hp.slotNames slot hslot).1.trans hkey)

/-- The parameter an operation reads: the one that is bound to its slot passed the validation of its encoding. -/
theorem Prepares.validated (hp : Prepares digests request prepared encodings kernels)
    (hnames : (prepared.catalog.parameters.map (·.canonicalName)).Nodup) {operation : ArchitectureOperation}
    (hoperation : operation ∈ prepared.package.graph.operations) {name : String}
    (hreads : operation.parameters = [name]) :
    ∃ slot param definition, Binder.parameterBinding {} slot param ∈ prepared.plan.bindings ∧
      slot.canonicalName = name ∧ param ∈ prepared.catalog.parameters ∧
      encodings.resolve param.encoding = some definition ∧ definition.validate param = .ok () := by
  have hconforms := buildPackage_conforms hp.package
  obtain ⟨slot, hslot, rfl⟩ := List.mem_map.mp ((verifyArchitectureConformance_ok hconforms).parameters operation hoperation name
    (hreads ▸ List.mem_singleton_self _))
  obtain ⟨hname, hrequired⟩ := hp.slotNames slot hslot
  obtain ⟨param, hresolve⟩ := Binder.bind_resolves hp.plan hslot hrequired
  have hcovered := isCovered_of_complete hp.complete hoperation (prefill_mem_exportModes hconforms)
  obtain ⟨-, -, -, hvalidated⟩ := exists_selection prepared.catalog.parameters prepared.plan encodings kernels
    request.target {} operation .prefill
  have herror : parameterError encodings operation
      (firstParameter prepared.catalog.parameters prepared.plan operation) = none :=
    hvalidated.symm.trans (Option.isNone_iff_eq_none.mp ((Bool.and_eq_true _ _).mp hcovered).2)
  have hfirst : firstParameter prepared.catalog.parameters prepared.plan operation =
      (definitionsBySlot prepared.catalog.parameters prepared.plan).get slot.id := by
    rw [firstParameter, hreads]
    rfl
  rw [hfirst] at herror
  cases hget : (definitionsBySlot prepared.catalog.parameters prepared.plan).get slot.id with
  | none => simp [hget, parameterError, hreads] at herror
  | some found =>
    obtain ⟨hmem, hfound⟩ := hp.covered_name hget
    -- The binder resolves the name to a parameter that carries it, since there is one.
    have hsame : found = param := by
      have hcarries : param.canonicalName = slot.canonicalName := by
        obtain hfind | ⟨hnone, -⟩ := Option.or_eq_some_iff.mp hresolve
        · exact beq_iff_eq.mp (List.find?_some (p := fun p : LogicalParameter => p.canonicalName == slot.canonicalName)
            hfind)
        · have hno := List.find?_eq_none.mp hnone found (List.mem_reverse.mpr hmem)
          exact absurd (beq_iff_eq.mpr (hfound.trans hname.symm)) hno
      exact List.inj_on_of_nodup_map hnames hmem (mem_of_resolve hresolve) (hfound.trans (hcarries.trans hname).symm)
    subst hsame
    rw [hget] at herror
    unfold parameterError at herror
    cases hdefinition : encodings.resolve found.encoding with
    | none => simp [hdefinition] at herror
    | some definition =>
      cases hvalid : definition.validate found with
      | error e => simp [hdefinition, hvalid] at herror
      | ok _ =>
        exact ⟨slot, found, definition, (Binder.mem_bindings_iff hp.plan).mpr ⟨slot, hslot, found, hresolve, rfl⟩,
          hname, hmem, hdefinition, hvalid⟩

theorem plain_of_resolve_plain {ty : ScalarType} {order : TensorOrder} {definition : QuantizationDefinition}
    (h : encodings.resolve (.plain ty order) = some definition) : definition = .plain ty := by
  have hmatches := ParameterLowerings.kind_of_resolve h
  cases definition with
  | plain ty' => rw [beq_iff_eq.mp hmatches]
  | _ => cases hmatches

/-- What is bound to the parameter an operation reads. -/
theorem Prepares.stored (hp : Prepares digests request prepared encodings kernels) (hregular : request.Regular prepared)
    (portableAttn : Bool) {operation : ArchitectureOperation}
    (hoperation : operation ∈ prepared.package.graph.operations) {ref : ParameterRef}
    (hreads : operation.parameters = [ref.canonical]) :
    ∃ binding ∈ prepared.bound.binding.bindings, binding.canonicalName = ref.canonical ∧
      Stored encodings (.fromBoundModel portableAttn prepared.bound) ref binding := by
  obtain ⟨slot, param, definition, hmem, hname, hparam, hresolve, hvalid⟩ :=
    hp.validated hregular.names hoperation hreads
  have hplan : prepared.bound.binding = prepared.plan := by rw [buildBoundModel_ok hp.bound]
  have hnodup := hp.bindingNames_nodup
  rw [← hplan] at hmem hnodup
  have hbinding : (Binder.parameterBinding {} slot param).canonicalName = ref.canonical := hname
  refine ⟨_, hmem, hbinding, ?_, ?_, ?_⟩
  · rw [← hbinding]
    exact DenseDecoderConfig.paramBinding_of_mem portableAttn hnodup hmem
  · intro ty order hencoding
    have hencoding : param.encoding = .plain ty order := hencoding
    rw [hencoding] at hresolve
    obtain rfl := plain_of_resolve_plain hresolve
    obtain ⟨component, hcomponents, hbytes⟩ := PlainDefinition.validate_ok hvalid
    have hscalar : component.storageType = .scalar ty :=
      hregular.plain param hparam ty order hencoding component (hcomponents ▸ List.mem_singleton_self _)
    have hbound : (Binder.parameterBinding {} slot param).components =
        [Binder.componentBinding {} param component] := by
      simp only [Binder.parameterBinding, hcomponents, List.map_singleton]
    have hdtype : boundParamDtype (Binder.parameterBinding {} slot param) = some ty := by
      simp only [boundParamDtype, hbound, Binder.componentBinding, hscalar]
    refine ⟨_, hbound, ?_, ?_, hscalar, hbytes⟩
    · rw [← hbinding, DenseDecoderConfig.paramKey_of_mem portableAttn hnodup hmem, hbound]
      rfl
    · rw [← hbinding]
      exact DenseDecoderConfig.paramDtype_of_mem portableAttn hnodup hmem hdtype
  · intro bits hmlx component hcomponent
    have hmlx : encodings.resolve param.encoding = some (.mlxAffine bits) := hmlx
    rw [hresolve] at hmlx
    cases hmlx
    obtain ⟨stored, hstored, rfl⟩ := List.mem_map.mp hcomponent
    exact MlxAffineDefinition.validate_ok hvalid stored hstored

/-- Every parameter the program declares is read by an operation of the graph. -/
theorem Prepares.reads (hp : Prepares digests request prepared encodings kernels) (hregular : request.Regular prepared)
    (portableAttn : Bool) {ref : ParameterRef}
    (href : ref ∈ (DenseDecoderConfig.fromBoundModel portableAttn prepared.bound).declaredParameters) :
    ∃ operation ∈ prepared.package.graph.operations, operation.parameters = [ref.canonical] := by
  obtain ⟨architecture, harchitecture, hpackage⟩ := Fallible.bind_ok hp.package
  obtain ⟨config, -, hpackage⟩ := Fallible.bind_ok hpackage
  obtain ⟨hconfig, numLayers, vocab, block, schedule, shortConv, hreads, hschedule, -, hsigs⟩ :=
    buildWithConfig_sigs hpackage
  have hbound := buildBoundModel_ok hp.bound
  have hvalues : prepared.bound.resolvedConfig = config.values := by rw [hbound, hconfig]
  have hgraph : prepared.bound.architecture = prepared.package.graph := by rw [hbound]
  have hlowered := hregular.schedule architecture (ArchitectureRegistry.get_of_require harchitecture)
  rw [hconfig] at hlowered
  have hlayers := (layers_iff hreads.numLayers hschedule hvalues portableAttn).mpr hlowered
  rw [← (DenseDecoderConfig.sized_fromBoundModel hreads hvalues portableAttn).numLayers] at hlayers
  obtain ⟨sig, hsig, hparams⟩ := DenseDecoderConfig.readBy_declared hlayers
    (DenseDecoderConfig.hasQkNorm_of_sigs (hgraph ▸ hsigs)) block.hiddenSize vocab block.rmsNormEpsilon ref href
  obtain ⟨operation, hoperation, hshows⟩ := hsigs.op_of_mem hsig
  exact ⟨operation, hoperation, hshows.2.1.trans hparams⟩

end prepared

/-- Metadata of a Llama checkpoint of one layer, every size of which is a block. -/
def blockMeta : MetadataMap :=
  [("hidden_size", .ofNat 32), ("head_dim", .ofNat 32), ("num_heads", .ofNat 1), ("num_kv_heads", .ofNat 1),
    ("num_layers", .ofNat 1), ("intermediate_size", .ofNat 32), ("vocab_size", .ofNat 32)]

/-- A slot's parameter: a matrix in `Q4_0` blocks, or a vector in plain storage. -/
def blockParameter (slot : ParameterSlot) : LogicalParameter :=
  let shape := List.replicate (slot.expectedType.rank.getD 2) 32
  let isMatrix := slot.expectedType.rank == some 2
  { canonicalName := slot.canonicalName
    role := slot.role
    logicalType := { shape, elementType := if isMatrix then .f16 else .f32 }
    encoding := if isMatrix then
        .blockQuantized { codec := "gguf.q4_0", codecVersion := 1, logicalType := .f16, blockShape := [32]
                          bytesPerBlock := 18, components := ["scale_f16", "quants_u4"]
                          layout := [⟨"scale_f16", 0, 2, .scalar .f16⟩, ⟨"quants_u4", 2, 16, .packedBits 4 false⟩]
                          order := .rowMajor, endianness := .little }
      else .plain .f32
    components := [{ name := "data", key := slot.canonicalName, sourceFileIndex := 0, shape
                     storageType := if isMatrix then .opaqueCodec "gguf.q4_0" else .scalar .f32
                     byteRanges := [{ offset := 0, length := if isMatrix then 576 else 128 }], alignment := 1 }]
    aliases := [slot.canonicalName] }

/-- The checkpoint of a package's slots, its matrices in blocks. -/
def blockCatalog (package : ArchitecturePackage) : CheckpointCatalog where
  sourceFiles := [{ path := "model.gguf", sizeBytes := 8192 }]
  metadata := blockMeta
  parameters := package.graph.parameterSlots.map blockParameter
  schemaFingerprint := { digest := "", entryCount := package.graph.parameterSlots.length, totalBytes := 8192 }

/-- A printer of empty programs. -/
def blankPrinter : ProgramPrinter where
  static _ _ _ := .ok ""
  paged _ _ _ _ _ := .ok ""

/-- The global has the shape and the bytes of a bound tensor: of the parameter where it is plain, else of the component. -/
def HasTensorShape (bindings : List ParameterBinding) (g : ParameterGlobal) : Prop :=
  ∃ binding ∈ bindings, ∃ component ∈ binding.components, g.key = component.externalKey ∧
    g.type.shape = (if binding.encoding.isPlain then binding.logicalShape else component.shape) ∧
    g.type.byteSize = component.byteLength

instance (bindings : List ParameterBinding) (g : ParameterGlobal) : Decidable (HasTensorShape bindings g) :=
  inferInstanceAs (Decidable (∃ binding ∈ bindings, ∃ component ∈ binding.components, _))

/-- The plain parameters of a checkpoint are stored in the type they are encoded in. -/
def storedAsEncoded (parameters : List LogicalParameter) : Bool :=
  parameters.all fun param => match param.encoding with
    | .plain ty _ => param.components.all (·.storageType == .scalar ty)
    | _ => true

/-- The small checkpoint in blocks: whether it is regular, and whether its globals have the shapes of its tensors. -/
def blockGlobals : Except DynInferError (Bool × Bool) := do
  let package ← ArchitectureRegistry.buildPackage "llama.decoder" [] blockMeta
  let prepared ← ({ smokeRequest (blockCatalog package) with options := {} }).prepare blindDigests
  let _ ← lowerBoundModel blankPrinter.emitter false prepared.bound
  let globals ← emitGlobals (.fromBoundModel false prepared.bound)
  return (decide (prepared.catalog.parameters.map (·.canonicalName)).Nodup &&
      storedAsEncoded prepared.catalog.parameters && prepared.package.resolvedConfig.layerTypes.isNone,
    decide (∀ g ∈ globals, HasTensorShape prepared.bound.binding.bindings g))

/-- The small checkpoint in blocks is regular, and some global of it is not shaped as its tensor. -/
theorem blockGlobals_ok : ∃ (request : CompileRequest) (prepared : PreparedRequest) (lowering : LoweringOutput)
    (globals : List ParameterGlobal), request.prepare blindDigests = .ok prepared ∧
    request.Regular prepared ∧ lowerBoundModel blankPrinter.emitter false prepared.bound = .ok lowering ∧
    emitGlobals (.fromBoundModel false prepared.bound) = .ok globals ∧
    ¬ ∀ g ∈ globals, HasTensorShape prepared.bound.binding.bindings g := by
  have h : blockGlobals = .ok (true, false) := by decide +kernel
  obtain ⟨package, -, h⟩ := Fallible.bind_ok h
  obtain ⟨prepared, hprepared, h⟩ := Fallible.bind_ok h
  obtain ⟨lowering, hlowering, h⟩ := Fallible.bind_ok h
  obtain ⟨globals, hglobals, h⟩ := Fallible.bind_ok h
  obtain ⟨hregular, hshapes⟩ := Prod.mk.inj (Except.ok.inj h)
  simp only [Bool.and_eq_true, decide_eq_true_eq] at hregular
  obtain ⟨⟨hnames, hplain⟩, htypes⟩ := hregular
  refine ⟨_, prepared, lowering, globals, hprepared, ⟨hnames, ?_, ?_⟩, hlowering, hglobals,
    of_decide_eq_false hshapes⟩
  · intro param hparam ty order hencoding component hcomponent
    have hall := List.all_eq_true.mp hplain param hparam
    rw [hencoding] at hall
    exact eq_of_beq (List.all_eq_true.mp hall component hcomponent)
  · intro architecture harchitecture
    obtain rfl : architecture = .llama := (Option.some.inj harchitecture).symm
    intro numLayers entries _ hentries
    rw [hentries] at htypes
    cases htypes

/-- What is declared and loaded of the parameters of a plan. -/
structure GlobalsMatch (c : DenseDecoderConfig) (plan : BindingPlan) (globals : List ParameterGlobal)
    (loads : List GlobalLoad) : Prop where
  typed : ∀ g ∈ globals, ∃ ref ∈ c.declaredParameters, ∃ binding ∈ plan.bindings,
    binding.canonicalName = ref.canonical ∧ ∃ component ∈ binding.components,
      g.symbol = globalSymbol ref component binding.encoding ∧ g.key = component.externalKey ∧
        TypedAs ref binding component g.type binding.encoding
  loaded : ∀ load ∈ loads, ∃ g ∈ globals, load = g.load

/-- **The globals match the components that were bound.** A compilation of a regular checkpoint that lowers has declared
for each parameter globals of its symbol that load components of its binding, each under the component's key and in the
type its encoding gives it, and whatever a function loads was declared. -/
theorem globals_match_components {digests : ContentDigests} {request : CompileRequest} {prepared : PreparedRequest}
    (hprepare : request.prepare digests = .ok prepared) (hregular : request.Regular prepared)
    {printer : ProgramPrinter} {portableAttn : Bool} {lowering : LoweringOutput}
    (hlowering : lowerBoundModel printer.emitter portableAttn prepared.bound = .ok lowering) :
    ∃ globals loads, emitGlobals (.fromBoundModel portableAttn prepared.bound) = .ok globals ∧
      emitLoads (.fromBoundModel portableAttn prepared.bound) = .ok loads ∧
      GlobalsMatch (.fromBoundModel portableAttn prepared.bound) prepared.bound.binding globals loads := by
  obtain ⟨encodings, kernels, hp⟩ := prepare_ok hprepare
  obtain ⟨-, -, -, modules, hmodules, -⟩ := lowerBoundModel_ok_iff.mp hlowering
  obtain ⟨globals, loads, hglobals, hloads⟩ := emitModules_emits hmodules
  refine ⟨globals, loads, hglobals, hloads, fun g hg => ?_, loads_declared hglobals hloads⟩
  obtain ⟨ref, href, own, hown, hg⟩ := (mem_globals hp.definitions hglobals).mp hg
  obtain ⟨operation, hoperation, hreads⟩ := hp.reads hregular portableAttn href
  obtain ⟨binding, hbinding, hname, hstored⟩ := hp.stored hregular portableAttn hoperation hreads
  obtain ⟨component, hcomponent, hglobal⟩ := ParameterLowerings.emitGlobal_typed hstored hown g hg
  exact ⟨ref, href, binding, hbinding, hname, component, hcomponent, hglobal⟩

theorem globals_match_components_blocks : ∃ (request : CompileRequest) (prepared : PreparedRequest)
    (lowering : LoweringOutput) (globals : List ParameterGlobal) (loads : List GlobalLoad),
    request.prepare blindDigests = .ok prepared ∧
      lowerBoundModel blankPrinter.emitter false prepared.bound = .ok lowering ∧
      emitGlobals (.fromBoundModel false prepared.bound) = .ok globals ∧
      GlobalsMatch (.fromBoundModel false prepared.bound) prepared.bound.binding globals loads := by
  obtain ⟨request, prepared, lowering, -, hprepare, hregular, hlowering, -⟩ := blockGlobals_ok
  obtain ⟨globals, loads, hglobals, -, hmatch⟩ := globals_match_components hprepare hregular hlowering
  exact ⟨request, prepared, lowering, globals, loads, hprepare, hlowering, hglobals, hmatch⟩

/-- A global over blocks is a flat vector of their bytes, whatever the shape of the tensor. -/
theorem block_globals_flat :
    ¬ ∀ (digests : ContentDigests) (request : CompileRequest) (prepared : PreparedRequest) (printer : ProgramPrinter)
      (portableAttn : Bool) (lowering : LoweringOutput) (globals : List ParameterGlobal),
      request.prepare digests = .ok prepared →
      lowerBoundModel printer.emitter portableAttn prepared.bound = .ok lowering →
      emitGlobals (.fromBoundModel portableAttn prepared.bound) = .ok globals →
      ∀ g ∈ globals, HasTensorShape prepared.bound.binding.bindings g := by
  intro hall
  obtain ⟨request, prepared, lowering, globals, hprepare, -, hlowering, hglobals, hflat⟩ := blockGlobals_ok
  exact hflat (hall blindDigests request prepared blankPrinter false lowering globals hprepare hlowering hglobals)

end Dyninfer
