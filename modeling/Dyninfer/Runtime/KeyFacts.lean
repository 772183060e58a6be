/-
What the cache key determines. Requests with one key have one bound model: the
graph, the configuration, the plan, the shapes and the target are hashed, and
what kernel selection reads of the parameters is in the schema's entries. The
process and the host are not hashed.
-/
import Dyninfer.Lib.Sorting
import Dyninfer.Runtime.PreparedFacts

namespace Dyninfer

/-! ## Kernel selection and the schema -/

/-- The encoding of the first parameter of a name. -/
def firstEncoding (parameters : List LogicalParameter) (name : String) : Option PhysicalEncoding :=
  (parameters.find? (·.canonicalName == name)).map (·.encoding)

theorem firstEncoding_eq_entries (parameters : List LogicalParameter) (name : String) :
    firstEncoding parameters name =
      ((fingerprintEntries parameters).find? (·.canonicalName == name)).map (·.encoding) := by
  have hsorted : fingerprintEntries parameters =
      Sorting.sortByKey (·.canonicalName) (parameters.map (fingerprintEntry parameters)) := by
    unfold fingerprintEntries Sorting.sortByKey
    congr
  rw [hsorted, Sorting.find?_sortByKey, List.find?_map, Option.map_map]
  rfl

section selection

variable {parameters parameters' : List LogicalParameter}

theorem encodingBySlot (parameters : List LogicalParameter) (binding : BindingPlan) (slot : String) :
    ((definitionsBySlot parameters binding).get slot).map (·.encoding) =
      (AssocMap.insertAll [] Prod.fst Prod.snd (binding.bindings.filterMap fun bound =>
        (firstEncoding parameters bound.canonicalName).map fun encoding => (bound.slotId, encoding))).get slot := by
  have hpairs : (binding.bindings.filterMap fun bound =>
      (firstEncoding parameters bound.canonicalName).map fun encoding => (bound.slotId, encoding)) =
      (binding.bindings.filterMap fun bound => (parameters.find? (·.canonicalName == bound.canonicalName)).map
        fun parameter => (bound.slotId, parameter)).map fun e => (e.1, e.2.encoding) := by
    rw [List.map_filterMap]
    congr
    funext bound
    rw [firstEncoding, Option.map_map, Option.map_map]
    rfl
  rw [hpairs, definitionsBySlot, AssocMap.get_insertAll, AssocMap.get_insertAll, ← List.map_reverse, List.find?_map]
  simp only [Option.map_map, AssocMap.get, List.lookup_nil, Option.or_none]
  rfl

/-- Selection reads the encodings of the first parameters of each name, and nothing else of them. -/
theorem kernelRequest_congr (h : firstEncoding parameters = firstEncoding parameters') (binding : BindingPlan)
    (policy : PrecisionPolicy) (operation : ArchitectureOperation) (mode : ExecutionMode) :
    kernelRequest parameters binding policy operation mode = kernelRequest parameters' binding policy operation mode := by
  have hfirst : (firstParameter parameters binding operation).map (·.encoding) =
      (firstParameter parameters' binding operation).map (·.encoding) := by
    unfold firstParameter
    cases operation.parameters.head? with
    | none => rfl
    | some slot => rw [Option.bind_some, Option.bind_some, encodingBySlot, encodingBySlot, h]
  have hkey (p : List LogicalParameter) :
      (firstParameter p binding operation).map (fun parameter => physicalEncodingKey parameter.encoding) =
        ((firstParameter p binding operation).map (·.encoding)).map physicalEncodingKey := by
    rw [Option.map_map]; rfl
  unfold kernelRequest
  rw [hkey parameters, hkey parameters', hfirst]

theorem selectedKernels_congr (h : firstEncoding parameters = firstEncoding parameters') (binding : BindingPlan)
    (encodings : QuantizationRegistry) (kernels : KernelRegistry) (target : TargetProfile) (policy : PrecisionPolicy)
    (graph : ArchitectureGraph) :
    (dryRunCoverage parameters binding encodings kernels target policy graph).selectedKernels =
      (dryRunCoverage parameters' binding encodings kernels target policy graph).selectedKernels := by
  have hkernel (operation : ArchitectureOperation) (mode : ExecutionMode) :
      (operationCoverage parameters binding encodings kernels target policy operation mode).selected.map
          (operationCoverage parameters binding encodings kernels target policy operation mode).kernel =
        (operationCoverage parameters' binding encodings kernels target policy operation mode).selected.map
          (operationCoverage parameters' binding encodings kernels target policy operation mode).kernel := by
    simp only [operationCoverage, kernelRequest_congr h]
    rfl
  simp only [CoverageReport.selectedKernels, dryRunCoverage, List.filterMap_flatMap, List.filterMap_map]
  unfold Function.comp
  simp only [hkernel]

end selection

/-! ## The bound model of a key -/

/-- The digests do not collide on what two requests hash. -/
structure ContentDigests.Separate (digests : ContentDigests) (prepared prepared' : PreparedRequest)
    (options options' : CompileOptions) : Prop where
  schema : digests.schema (fingerprintEntries prepared.catalog.parameters) =
    digests.schema (fingerprintEntries prepared'.catalog.parameters) →
      fingerprintEntries prepared.catalog.parameters = fingerprintEntries prepared'.catalog.parameters
  architecture :
    digests.architecture (prepared.package.id, prepared.package.revision, prepared.package.graph) =
      digests.architecture (prepared'.package.id, prepared'.package.revision, prepared'.package.graph) →
    prepared.package.graph = prepared'.package.graph
  resolvedConfig : digests.resolvedConfig prepared.package.resolvedConfig =
    digests.resolvedConfig prepared'.package.resolvedConfig →
      prepared.package.resolvedConfig = prepared'.package.resolvedConfig
  options : digests.options options = digests.options options' → options = options'
  plan : digests.plan prepared.plan = digests.plan prepared'.plan → prepared.plan = prepared'.plan
  policy : digests.policy prepared.bound.precisionPolicy = digests.policy prepared'.bound.precisionPolicy →
    prepared.bound.precisionPolicy = prepared'.bound.precisionPolicy
  shape : digests.shape prepared.shape = digests.shape prepared'.shape → prepared.shape = prepared'.shape
  target : digests.target { prepared.bound.target with capabilityFingerprint := "" } =
    digests.target { prepared'.bound.target with capabilityFingerprint := "" } →
      { prepared.bound.target with capabilityFingerprint := "" } =
        ({ prepared'.bound.target with capabilityFingerprint := "" } : TargetProfile)

theorem target_eq_of_fingerprint {target target' : TargetProfile}
    (hfingerprint : target.capabilityFingerprint = target'.capabilityFingerprint)
    (hfields : { target with capabilityFingerprint := "" } =
      ({ target' with capabilityFingerprint := "" } : TargetProfile)) : target = target' := by
  cases target
  cases target'
  simp_all

/-- Two requests of one key compile from the same. -/
theorem input_eq_of_key {digests : ContentDigests} {request request' : CompileRequest}
    {prepared prepared' : PreparedRequest} (h : request.prepare digests = .ok prepared)
    (h' : request'.prepare digests = .ok prepared') (htarget : request.target.IsFingerprinted digests)
    (htarget' : request'.target.IsFingerprinted digests)
    (hseparate : digests.Separate prepared prepared' request.options request'.options)
    (hkey : cacheKeyFor digests prepared request.options = cacheKeyFor digests prepared' request'.options) :
    prepared.input = prepared'.input ∧ request.options = request'.options := by
  obtain ⟨encodings, kernels, hp⟩ := prepare_ok h
  obtain ⟨encodings', kernels', hp'⟩ := prepare_ok h'
  simp only [cacheKeyFor, CacheKey.mk.injEq] at hkey
  obtain ⟨-, hrevision, harchitecture, hconfig, hplan, hschema, hfingerprint, -, hshape, -, -, -, hoptions⟩ := hkey
  have hgraph := hseparate.architecture harchitecture
  have hconfig := hseparate.resolvedConfig hconfig
  have hplan := hseparate.plan hplan
  have hshape := hseparate.shape hshape
  have hbound := buildBoundModel_ok hp.bound
  have hbound' := buildBoundModel_ok hp'.bound
  have hrequestTarget : request.target = request'.target := by
    have ht : prepared.bound.target = request.target := by rw [hbound]
    have ht' : prepared'.bound.target = request'.target := by rw [hbound']
    have hsep := hseparate.target
    rw [ht, ht'] at hsep hfingerprint
    refine target_eq_of_fingerprint hfingerprint (hsep ?_)
    rw [← htarget, ← htarget', hfingerprint]
  have hencodings : firstEncoding prepared.catalog.parameters = firstEncoding prepared'.catalog.parameters := by
    have hdigest {digests : ContentDigests} {request : CompileRequest} {prepared : PreparedRequest}
        {encodings : QuantizationRegistry} {kernels : KernelRegistry} (hp : Prepares digests request prepared encodings kernels) :
        prepared.catalog.schemaFingerprint.digest =
          digests.schema (fingerprintEntries prepared.catalog.parameters) := by
      obtain ⟨architecture, -, hnaming⟩ := Fallible.bind_ok hp.naming
      injection hnaming with hcatalog
      rw [← hcatalog]
      rfl
    rw [hdigest hp, hdigest hp'] at hschema
    funext name
    rw [firstEncoding_eq_entries, firstEncoding_eq_entries, hseparate.schema hschema]
  have hregistries : encodings = encodings' ∧ kernels = kernels' := by
    have he := hp.definitions.symm.trans hp'.definitions
    cases he
    have hk := hp.candidates.symm.trans hp'.candidates
    cases hk
    exact ⟨rfl, rfl⟩
  obtain ⟨rfl, rfl⟩ := hregistries
  have hfingerprints : prepared.catalog.schemaFingerprint = prepared'.catalog.schemaFingerprint := by
    have hcheckpoint {digests : ContentDigests} {request : CompileRequest} {prepared : PreparedRequest}
        {encodings : QuantizationRegistry} {kernels : KernelRegistry} (hp : Prepares digests request prepared encodings kernels) :
        prepared.plan.checkpointSchema = prepared.catalog.schemaFingerprint := by
      obtain ⟨s, -, hplan⟩ := Fallible.bind_ok hp.plan
      injection hplan with hplan
      rw [← hplan]
    rw [← hcheckpoint hp, ← hcheckpoint hp', hplan]
  refine ⟨?_, hseparate.options hoptions⟩
  have hmodel : prepared.bound = prepared'.bound := by
    rw [hbound, hbound', hgraph, hconfig, hplan, hshape, hrequestTarget, selectedKernels_congr hencodings]
  rw [PreparedRequest.input, PreparedRequest.input, hmodel, hrevision, hfingerprints, hshape]

/-! ## What the key leaves out -/

/-- The compilation asks its process about flash attention: on HIP, over pages, with wide heads. -/
def PreparedRequest.AsksFlash (prepared : PreparedRequest) (options : CompileOptions) : Prop :=
  options.smokeOnly = false ∧ prepared.bound.target.driver = "hip" ∧ prepared.shape.paged = true ∧
    64 ≤ manifestU32 prepared.bound.resolvedConfig "head_dim" 64

theorem asksFlash_iff {digests : ContentDigests} {request : CompileRequest} {prepared : PreparedRequest}
    {encodings : QuantizationRegistry} {kernels : KernelRegistry}
    (hp : Prepares digests request prepared encodings kernels) {emitter : Emitter} {env : ProcessEnvironment}
    {options : CompileOptions} {lowering : LoweringOutput} (h : lowerFor emitter env options prepared.bound = .ok lowering) :
    options.smokeOnly = false ∧ prepared.bound.AsksFlash ↔ prepared.AsksFlash options := by
  unfold PreparedRequest.AsksFlash BoundModel.AsksFlash
  refine and_congr_right fun hsmoke => and_congr_right fun _ => ?_
  rw [lowerFor, hsmoke, if_neg Bool.false_ne_true] at h
  obtain ⟨-, -, hsupports, -⟩ := lowerBoundModel_ok_iff.mp h
  have hpaged : (DenseDecoderConfig.fromBoundModel false prepared.bound).pagedKv = prepared.shape.paged :=
    hp.pagedKv_eq_paged hsupports
  rw [hpaged, (hp.numbers false).headDim]

/-- **What the cache key covers.** Of two requests whose keys are equal and whose digests do not
collide, what one compiles in its process the other compiles in its own, exactly when the processes
agree on the flash attention it asks for and the hosts on the tools it takes from them. -/
theorem compile_of_key_iff {digests : ContentDigests} {request request' : CompileRequest}
    {prepared prepared' : PreparedRequest} (h : request.prepare digests = .ok prepared)
    (h' : request'.prepare digests = .ok prepared') (htarget : request.target.IsFingerprinted digests)
    (htarget' : request'.target.IsFingerprinted digests)
    (hseparate : digests.Separate prepared prepared' request.options request'.options)
    (hkey : cacheKeyFor digests prepared request.options = cacheKeyFor digests prepared' request'.options)
    {emitter : Emitter} {env : ProcessEnvironment} {product : CompileProduct}
    (hproduct : compile emitter env request.options prepared.input = .ok product) (env' : ProcessEnvironment) :
    compile emitter env' request'.options prepared'.input = .ok product ↔
      env.AgreeOn env' (prepared.AsksFlash request.options) request.target := by
  obtain ⟨hinput, hoptions⟩ := input_eq_of_key h h' htarget htarget' hseparate hkey
  obtain ⟨encodings, kernels, hp⟩ := prepare_ok h
  obtain ⟨lowering, -, hlowering, -⟩ := compile_ok_iff.mp hproduct
  have hrequest : prepared.input.bound.target = request.target := by
    rw [PreparedRequest.input, buildBoundModel_ok hp.bound]
  rw [← hinput, ← hoptions, compile_process hproduct, hrequest]
  have hasks := asksFlash_iff hp hlowering
  exact ⟨fun hagree => ⟨fun hflash => hagree.portableAttn (hasks.mpr hflash), hagree.rocmBcDir, hagree.rocmLinker⟩,
    fun hagree => ⟨fun hflash => hagree.portableAttn (hasks.mp hflash), hagree.rocmBcDir, hagree.rocmLinker⟩⟩

/-- Digests that tell nothing apart. -/
def blindDigests : ContentDigests where
  schema _ := ""
  architecture _ := ""
  resolvedConfig _ := ""
  options _ := ""
  plan _ := ""
  policy _ := ""
  shape _ := ""
  target _ := ""

theorem blindDigests_separate (prepared : PreparedRequest) (options : CompileOptions) :
    blindDigests.Separate prepared prepared options options :=
  ⟨fun _ => rfl, fun _ => rfl, fun _ => rfl, fun _ => rfl, fun _ => rfl, fun _ => rfl, fun _ => rfl, fun _ => rfl⟩

/-- An emitter of empty programs. -/
def blankEmitter : Emitter where
  static _ := .ok ""
  paged _ _ _ := .ok ""

/-- The profile of a `gfx1151` device. -/
def gfx1151 : TargetProfile where
  driver := "hip"
  deviceId := some 0
  architecture := some "gfx1151"
  executableTargetFlags := ["--iree-hal-target-device=hip", "--iree-rocm-target=gfx1151"]
  verified := true

/-- The smoke compilation of a checkpoint for `gfx1151`. -/
def smokeRequest (checkpoint : CheckpointCatalog) : CompileRequest where
  architectureId := "llama.decoder"
  checkpoint
  target := gfx1151
  options := { smokeOnly := true }
  overrides := []

/-- Whether the small checkpoint's smoke compilation has storage for every parameter. -/
def smokePrepares : Except DynInferError Bool := do
  let package ← ArchitectureRegistry.buildPackage "llama.decoder" [] smallMeta
  let prepared ← (smokeRequest (smallCatalog .f32 package)).prepare blindDigests
  return (validateBindingForCompile prepared.bound.binding).toOption.isSome

/-- The small checkpoint's smoke compilation, on every host. -/
theorem smokeRequest_compiles : ∃ checkpoint prepared, (smokeRequest checkpoint).prepare blindDigests = .ok prepared ∧
    ∀ env, ∃ product, compile blankEmitter env (smokeRequest checkpoint).options prepared.input = .ok product ∧
      product.flags = gfx1151.executableTargetFlags ++ hostFlags env gfx1151 := by
  have h : smokePrepares = .ok true := by decide +kernel
  obtain ⟨package, -, h⟩ := Fallible.bind_ok h
  obtain ⟨prepared, hprepared, h⟩ := Fallible.bind_ok h
  obtain ⟨encodings, kernels, hp⟩ := prepare_ok hprepared
  have htarget : prepared.input.bound.target = gfx1151 := by
    rw [PreparedRequest.input, buildBoundModel_ok hp.bound]; rfl
  have hvalid : validateBindingForCompile prepared.input.bound.binding = .ok () := by
    cases hv : validateBindingForCompile prepared.bound.binding with
    | ok _ => exact hv
    | error e => rw [hv] at h; cases h
  refine ⟨_, prepared, hprepared, fun env => ?_⟩
  have hflags : compileFlagsFor env prepared.input.bound.target =
      .ok (gfx1151.executableTargetFlags ++ hostFlags env gfx1151) := by
    rw [htarget]; rfl
  exact ⟨_, compile_ok_iff.mpr ⟨smokeLowering, _, rfl, hflags, hvalid, rfl⟩, rfl⟩

theorem compile_of_key_smoke : ∃ checkpoint prepared product,
    (smokeRequest checkpoint).prepare blindDigests = .ok prepared ∧
      (compile blankEmitter { portableAttn := true } (smokeRequest checkpoint).options prepared.input = .ok product ↔
        ({} : ProcessEnvironment).AgreeOn { portableAttn := true } (prepared.AsksFlash (smokeRequest checkpoint).options)
          (smokeRequest checkpoint).target) := by
  obtain ⟨checkpoint, prepared, hprepared, hcompiles⟩ := smokeRequest_compiles
  obtain ⟨product, hproduct, -⟩ := hcompiles {}
  exact ⟨checkpoint, prepared, product, hprepared,
    compile_of_key_iff hprepared hprepared rfl rfl (blindDigests_separate _ _) rfl hproduct _⟩

/-- A host with the ROCm device libraries and one without them compile one key with different flags. -/
theorem key_misses_host :
    ¬ ∀ (digests : ContentDigests) (emitter : Emitter) (request request' : CompileRequest)
      (prepared prepared' : PreparedRequest) (env env' : ProcessEnvironment) (product product' : CompileProduct),
      request.prepare digests = .ok prepared → request'.prepare digests = .ok prepared' →
      request.target.IsFingerprinted digests → request'.target.IsFingerprinted digests →
      digests.Separate prepared prepared' request.options request'.options →
      cacheKeyFor digests prepared request.options = cacheKeyFor digests prepared' request'.options →
      compile emitter env request.options prepared.input = .ok product →
      compile emitter env' request'.options prepared'.input = .ok product' →
      product = product' := by
  intro hall
  obtain ⟨checkpoint, prepared, hprepared, hcompiles⟩ := smokeRequest_compiles
  obtain ⟨product, hproduct, hflags⟩ := hcompiles { rocmBcDir := some "/opt/rocm/amdgcn/bitcode" }
  obtain ⟨product', hproduct', hflags'⟩ := hcompiles {}
  have hsame := hall blindDigests blankEmitter _ _ prepared prepared _ _ product product' hprepared hprepared rfl rfl
    (blindDigests_separate _ _) rfl hproduct hproduct'
  have hlength := congrArg (fun p : CompileProduct => p.flags.length) hsame
  rw [hflags, hflags'] at hlength
  exact absurd hlength (by decide)

end Dyninfer
