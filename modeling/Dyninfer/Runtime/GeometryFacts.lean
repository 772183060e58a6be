/-
The geometry a session runs with, against the one its modules were emitted
with. Layers, heads, pages and the cache come back through the manifest. The
vocabulary is read off the checkpoint again, without the overrides and under
one key more, so it comes back where both sides name one number.
-/
import Dyninfer.Architecture.Identity
import Dyninfer.Runtime.ChunkGuards
import Dyninfer.Runtime.KeyFacts
import Dyninfer.Runtime.LoadFacts
import Dyninfer.Runtime.ShimFacts

namespace Dyninfer

/-! ## The two geometries -/

/-- The configuration the modules of a compilation are emitted with; a smoke compilation emits no model. -/
def emittedConfig (portableAttn : Bool) (options : CompileOptions) (bound : BoundModel) : Option DenseDecoderConfig :=
  if options.smokeOnly then none else some (.fromBoundModel portableAttn bound)

/-- The pool the paged modules are emitted for. -/
def DenseDecoderConfig.pool (c : DenseDecoderConfig) : KvPoolConfig where
  layerCount := c.numLayers
  pageSize := c.pageSize
  kvHeadCount := c.numKvHeads
  headDim := c.headDim
  elementByteCount := c.pagedKvElementType.sizeBytes
  chunkSize := c.seq
  vocabSize := c.vocab

/-- The cache the modules are emitted for. -/
def DenseDecoderConfig.kvCache (c : DenseDecoderConfig) (maxBatchSize : Nat) : KvCacheDescriptor where
  layerCount := c.numLayers
  maxBatchSize
  maxSequenceLength := c.maxKv
  kvHeadCount := c.numKvHeads
  headDimension := c.headDim
  elementType := c.pagedKvElementType
  storage := if c.pagedKv then .paged c.pageSize c.seq else .staticGlobals

/-- A model, its session and the session's pool have the geometry of a configuration. -/
structure RunsAs (metadata : ModelMetadata) (session : IreeSession) (pool : KvPoolConfig) (c : DenseDecoderConfig) :
    Prop where
  vocab : metadata.vocabularySize = c.vocab ∧ session.vocabularySize = c.vocab
  numLayers : metadata.numLayers = c.numLayers ∧ session.kv.layerCount = c.numLayers
  numKvHeads : metadata.numKvHeads = c.numKvHeads ∧ session.kv.kvHeadCount = c.numKvHeads
  headDim : metadata.headDim = c.headDim ∧ session.kv.headDimension = c.headDim
  maxKv : metadata.contextLength = c.maxKv ∧ session.kv.maxSequenceLength = c.maxKv
  window : session.prefillWindow = c.seq
  elementType : session.kv.elementType = c.pagedKvElementType
  storage : session.kv.storage = if c.pagedKv then .paged c.pageSize c.seq else .staticGlobals
  pool : c.pagedKv = true → pool = c.pool

/-! ## The vocabulary -/

/-- The number a compilation takes where the metadata have none: the override's, or the architecture's. -/
def CompileRequest.vocabularyAsked (request : CompileRequest) : Option Nat :=
  match request.overrides.get "vocab_size" with
  | some v => v.asU64
  | none => (ArchitectureRegistry.get request.architectureId).map fun
    | .llama | .lfm2 => 32000
    | .qwen3 => 151936

/-- The vocabulary a checkpoint names: in its metadata, else by the rows of the embedding or the output, and
32000 without either. -/
inductive CheckpointCatalog.NamesVocabulary (catalog : CheckpointCatalog) : Nat → Prop where
  | key {v n} : catalog.vocabularyEntry = some v → v.asU64 = some n → NamesVocabulary catalog n
  | rows {param n dims} : (∀ v, catalog.vocabularyEntry = some v → v.asU64 = none) →
      catalog.parameters.find? isVocabularyTable = some param → param.logicalType.shape = n :: dims →
      NamesVocabulary catalog n
  | neither : (∀ v, catalog.vocabularyEntry = some v → v.asU64 = none) →
      (∀ param, catalog.parameters.find? isVocabularyTable = some param → param.logicalType.shape = []) →
      NamesVocabulary catalog 32000

/-- The compilation takes the checkpoint's own entry, or a number that is the checkpoint's as `u32`. -/
def CompileRequest.KeepsVocabulary (request : CompileRequest) (catalog : CheckpointCatalog) : Prop :=
  (request.overrides.get "vocab_size" = none ∧
      ((catalog.metadata.get "vocab_size").isSome ∨ (catalog.metadata.get "llama.vocab_size").isSome)) ∨
    ∃ n m, request.vocabularyAsked = some n ∧ catalog.NamesVocabulary m ∧ asU32 n = asU32 m

theorem CheckpointCatalog.NamesVocabulary.loaded {catalog : CheckpointCatalog} {m : Nat}
    (h : catalog.NamesVocabulary m) : loadedVocabulary catalog = asU32 m := by
  unfold loadedVocabulary
  cases h with
  | key hv hn => rw [hv, Option.bind_some, hn]; rfl
  | rows hnone hparam hshape => rw [Option.bind_eq_none_iff.mpr hnone, hparam, Option.bind_some, hshape]; rfl
  | neither hnone hrows =>
    rw [Option.bind_eq_none_iff.mpr hnone]
    cases hparam : catalog.parameters.find? isVocabularyTable with
    | none => rfl
    | some param => rw [Option.bind_some, hrows param hparam]; rfl

theorem exists_namesVocabulary (catalog : CheckpointCatalog) : ∃ m, catalog.NamesVocabulary m := by
  by_cases hkey : ∃ v n, catalog.vocabularyEntry = some v ∧ v.asU64 = some n
  · obtain ⟨v, n, hv, hn⟩ := hkey
    exact ⟨n, .key hv hn⟩
  · have hnone : ∀ v, catalog.vocabularyEntry = some v → v.asU64 = none := fun v hv =>
      Option.eq_none_iff_forall_not_mem.mpr fun n hn => hkey ⟨v, n, hv, hn⟩
    by_cases hrows : ∃ param n dims, catalog.parameters.find? isVocabularyTable = some param ∧
        param.logicalType.shape = n :: dims
    · obtain ⟨param, n, dims, hparam, hshape⟩ := hrows
      exact ⟨n, .rows hnone hparam hshape⟩
    · refine ⟨32000, .neither hnone fun param hparam => ?_⟩
      by_contra hne
      obtain ⟨n, dims, hshape⟩ := List.exists_cons_of_ne_nil hne
      exact hrows ⟨param, n, dims, hparam, hshape⟩

theorem firstPresent_of_or {metadata : MetadataMap} {first second : String} {rest : List String} {v : Json}
    (h : (metadata.get first).or (metadata.get second) = some v) :
    firstPresent metadata (first :: second :: rest) = some v := by
  unfold firstPresent
  rw [List.findSome?_cons]
  obtain h | ⟨hnone, h⟩ := Option.or_eq_some_iff.mp h
  · rw [h]
  · simp only [hnone, List.findSome?_cons, h]

/-- The value a configuration takes for the vocabulary. -/
theorem given_vocab (architecture : Architecture) (overrides checkpointMeta : MetadataMap) :
    architecture.configSchema.given overrides checkpointMeta "vocab_size" =
      (overrides.get "vocab_size").or ((checkpointMeta.get "vocab_size").or ((checkpointMeta.get "llama.vocab_size").or
        (some (.ofNat (match architecture with | .llama | .lfm2 => 32000 | .qwen3 => 151936))))) := by
  cases architecture <;> rfl

/-- The checkpoint's number is the configuration's where the request keeps it. -/
theorem loadedVocabulary_eq_iff {request : CompileRequest} {catalog : CheckpointCatalog} {architecture : Architecture}
    (harchitecture : ArchitectureRegistry.get request.architectureId = some architecture) {n : Nat}
    (hn : architecture.configSchema.denotes request.overrides catalog.metadata "vocab_size" = some n) :
    loadedVocabulary catalog = asU32 n ↔ request.KeepsVocabulary catalog := by
  obtain ⟨m, hm⟩ := exists_namesVocabulary catalog
  have hasked (h : request.vocabularyAsked = some n) : loadedVocabulary catalog = asU32 n ↔
      ∃ n m, request.vocabularyAsked = some n ∧ catalog.NamesVocabulary m ∧ asU32 n = asU32 m := by
    constructor
    · exact fun hloaded => ⟨n, m, h, hm, hloaded.symm.trans hm.loaded⟩
    · rintro ⟨n', m', h', hm', heq⟩
      rw [h, Option.some_inj] at h'
      rw [hm'.loaded, h', heq]
  rw [ConfigSchema.denotes, given_vocab] at hn
  unfold CompileRequest.KeepsVocabulary
  cases hoverride : request.overrides.get "vocab_size" with
  | some v =>
    rw [hoverride] at hn
    rw [hasked (by rw [CompileRequest.vocabularyAsked, hoverride]; exact hn)]
    exact ⟨.inr, fun h => h.resolve_left fun hnone => Option.some_ne_none v hnone.1⟩
  | none =>
    rw [hoverride, Option.none_or] at hn
    cases hkey : (catalog.metadata.get "vocab_size").or (catalog.metadata.get "llama.vocab_size") with
    | some v =>
      have hpresent : (catalog.metadata.get "vocab_size").isSome ∨ (catalog.metadata.get "llama.vocab_size").isSome := by
        rw [← Bool.or_eq_true, ← Option.isSome_or, hkey]; rfl
      refine ⟨fun _ => .inl ⟨rfl, hpresent⟩, fun _ => ?_⟩
      rw [← Option.or_assoc, hkey] at hn
      exact (CheckpointCatalog.NamesVocabulary.key (firstPresent_of_or hkey) hn).loaded
    | none =>
      obtain ⟨hnone, hnone'⟩ := Option.or_eq_none_iff.mp hkey
      rw [hnone, hnone'] at hn
      rw [hasked ?_]
      · exact ⟨.inr, fun h => h.resolve_left fun hpresent => by simp [hnone, hnone'] at hpresent⟩
      · rw [CompileRequest.vocabularyAsked, hoverride, harchitecture]
        cases architecture <;> exact hn

/-! ## Compiled and loaded -/

/-- What is compiled for a request: its own compilation, or one kept from an earlier request of its key. -/
structure CompiledUnderKey (digests : ContentDigests) (emitter : Emitter) (env : ProcessEnvironment)
    (request request' : CompileRequest) (prepared prepared' : PreparedRequest) (product : CompileProduct) : Prop where
  prepares : request.prepare digests = .ok prepared
  prepares' : request'.prepare digests = .ok prepared'
  target : request.target.IsFingerprinted digests
  target' : request'.target.IsFingerprinted digests
  separate : digests.Separate prepared prepared' request.options request'.options
  key : cacheKeyFor digests prepared request.options = cacheKeyFor digests prepared' request'.options
  compiles : compile emitter env request'.options prepared'.input = .ok product

/-- A session of a loaded model, and its pool. -/
theorem createSession_ok {Row ρ : Type} {metadata : ModelMetadata} {m : ExecutableManifest} {config : SessionConfig}
    {opened : Shim Row ρ} {session : IreeSession} {t : SessionState (Shim Row ρ)}
    (h : createSession metadata m config opened = .ok (session, t)) :
    session = IreeSession.new metadata config m.kvCache m.prefillWindow ∧
      ∀ pageSize chunkSize, m.kvCache.storage = .paged pageSize chunkSize →
        t.context.config = sessionPoolConfig m metadata.vocabularySize pageSize chunkSize := by
  cases hs : m.kvCache.storage with
  | staticGlobals =>
    unfold createSession at h
    simp only [hs] at h
    cases h
    exact ⟨rfl, nofun⟩
  | paged pageSize chunkSize =>
    obtain ⟨rfl, -, d, rfl, hrun⟩ := createSession_paged hs h
    obtain ⟨-, -, rfl⟩ := Shim.configurePagedKv_ok hrun
    refine ⟨rfl, fun pageSize' chunkSize' heq => ?_⟩
    cases heq
    rfl

theorem seq_pos {c : DenseDecoderConfig} (h : c.supportsDenseEmit = true) : 1 ≤ c.seq := by
  simp only [DenseDecoderConfig.supportsDenseEmit, decide_eq_true_eq] at h
  omega

/-- The storage a manifest names for a lowering whose pages are filled by chunks. -/
theorem storage_output {c : DenseDecoderConfig} (hchunk : c.pagedKv = true → c.seq = pagedPrefillChunkSize)
    (modules : String × Option String) :
    (if (c.output modules).pagedKv then KvCacheStorage.paged (c.output modules).pageSize pagedPrefillChunkSize
      else .staticGlobals) = if c.pagedKv then .paged c.pageSize c.seq else .staticGlobals := by
  change (if c.pagedKv = true then KvCacheStorage.paged c.pageSize pagedPrefillChunkSize else .staticGlobals) = _
  by_cases hpaged : c.pagedKv = true
  · rw [if_pos hpaged, if_pos hpaged, hchunk hpaged]
  · rw [if_neg hpaged, if_neg hpaged]

section prepared

variable {digests : ContentDigests} {request : CompileRequest} {prepared : PreparedRequest}
  {encodings : QuantizationRegistry} {kernels : KernelRegistry}

theorem Prepares.architectureId (hp : Prepares digests request prepared encodings kernels) :
    prepared.bound.architecture.architectureId = request.architectureId := by
  rw [buildBoundModel_ok hp.bound]
  exact buildPackage_architectureId hp.package

/-- The configuration's vocabulary is a number the metadata denote. -/
theorem Prepares.vocabulary (hp : Prepares digests request prepared encodings kernels) (portableAttn : Bool) :
    loadedVocabulary prepared.catalog = (DenseDecoderConfig.fromBoundModel portableAttn prepared.bound).vocab ↔
      request.KeepsVocabulary prepared.catalog := by
  obtain ⟨architecture, hrequire, hpackage⟩ := Fallible.bind_ok hp.package
  obtain ⟨config, hresolve, hpackage⟩ := Fallible.bind_ok hpackage
  have hvocab := (hp.numbers portableAttn).vocab
  rw [(buildWithConfig_sigs hpackage).1] at hvocab
  obtain ⟨n, hn, hvocab⟩ := denotes_of_getU32 hresolve (by decide) hvocab
  rw [← hvocab]
  exact loadedVocabulary_eq_iff (ArchitectureRegistry.get_of_require hrequire) hn

/-- The manifest of a model describes the cache its modules are emitted for. -/
theorem Prepares.kvCache (hp : Prepares digests request prepared encodings kernels) {portableAttn : Bool}
    (hsupports : (DenseDecoderConfig.fromBoundModel portableAttn prepared.bound).supportsDenseEmit = true)
    (revision : String) (schema : SchemaFingerprint) (options : CompileOptions) (modules : String × Option String) :
    let c := DenseDecoderConfig.fromBoundModel portableAttn prepared.bound
    (executableManifest prepared.bound revision schema prepared.shape options (c.output modules)).kvCache =
      c.kvCache (prepared.shape.batchSizes.headD 1) := by
  have hnumbers := hp.numbers portableAttn
  have hchunk : (DenseDecoderConfig.fromBoundModel portableAttn prepared.bound).pagedKv = true →
      (DenseDecoderConfig.fromBoundModel portableAttn prepared.bound).seq = pagedPrefillChunkSize := by
    intro hpaged
    have hshape : prepared.shape.paged = true := (hp.pagedKv_eq_paged hsupports).symm.trans hpaged
    rw [buildBoundModel_ok hp.bound]
    simp [DenseDecoderConfig.fromBoundModel, ShapeProfile.executionShapes, ShapeProfile.prefill, hshape]
  simp only [executableManifest, hnumbers.numLayers, hnumbers.numKvHeads, hnumbers.headDim, storage_output hchunk]
  rfl

end prepared

/-- A session of a manifest that describes a configuration's cache runs with the configuration's geometry
where the checkpoint has its vocabulary. -/
theorem runsAs_iff {m : ExecutableManifest} {c : DenseDecoderConfig} {maxBatchSize : Nat}
    (hcache : m.kvCache = c.kvCache maxBatchSize) (hwindow : m.prefillWindow = c.seq) (hseq : 1 ≤ c.seq)
    {catalog : CheckpointCatalog} {Row ρ : Type} {config : SessionConfig} {opened : Shim Row ρ} {session : IreeSession}
    {t : SessionState (Shim Row ρ)}
    (hsession : createSession (loadedMetadata m catalog) m config opened = .ok (session, t)) :
    RunsAs (loadedMetadata m catalog) session t.context.config c ↔ loadedVocabulary catalog = c.vocab := by
  obtain ⟨rfl, hpool⟩ := createSession_ok hsession
  constructor
  · exact fun hruns => hruns.vocab.1
  · intro hvocab
    constructor
    case vocab => exact ⟨hvocab, hvocab⟩
    case numLayers => exact ⟨congrArg KvCacheDescriptor.layerCount hcache, congrArg KvCacheDescriptor.layerCount hcache⟩
    case numKvHeads => exact ⟨congrArg KvCacheDescriptor.kvHeadCount hcache, congrArg KvCacheDescriptor.kvHeadCount hcache⟩
    case headDim => exact ⟨congrArg KvCacheDescriptor.headDimension hcache, congrArg KvCacheDescriptor.headDimension hcache⟩
    case maxKv =>
      exact ⟨congrArg KvCacheDescriptor.maxSequenceLength hcache, congrArg KvCacheDescriptor.maxSequenceLength hcache⟩
    case window => exact (congrArg (max · 1) hwindow).trans (Nat.max_eq_left hseq)
    case elementType => exact congrArg KvCacheDescriptor.elementType hcache
    case storage => exact congrArg KvCacheDescriptor.storage hcache
    case pool =>
      intro hpaged
      have hstorage : m.kvCache.storage = .paged c.pageSize c.seq :=
        (congrArg KvCacheDescriptor.storage hcache).trans (if_pos hpaged)
      rw [hpool _ _ hstorage, sessionPoolConfig, hcache,
        show (loadedMetadata m catalog).vocabularySize = c.vocab from hvocab]
      rfl

theorem CompiledUnderKey.compiled {digests : ContentDigests} {emitter : Emitter} {env : ProcessEnvironment}
    {request request' : CompileRequest} {prepared prepared' : PreparedRequest} {product : CompileProduct}
    (h : CompiledUnderKey digests emitter env request request' prepared prepared' product) :
    prepared'.bound = prepared.bound ∧ request'.options = request.options ∧
      compile emitter env request.options prepared.input = .ok product := by
  obtain ⟨hinput, hoptions⟩ := input_eq_of_key h.prepares h.prepares' h.target h.target' h.separate h.key
  refine ⟨(congrArg CompileInput.bound hinput).symm, hoptions.symm, ?_⟩
  rw [hinput, hoptions]
  exact h.compiles

/-- **The geometry of a loaded model.** A session of a bundle that was compiled under a request's key, written
and loaded again with the checkpoint of that request runs with the geometry its modules were emitted with,
exactly when the bundle has no model or the request keeps the checkpoint's vocabulary. -/
theorem loaded_geometry_iff {digests : ContentDigests} {emitter : Emitter} {env : ProcessEnvironment}
    {request request' : CompileRequest} {prepared prepared' : PreparedRequest} {product : CompileProduct}
    (hcompiled : CompiledUnderKey digests emitter env request request' prepared prepared' product)
    {host : RuntimeHost} {codec : BundleCodec} {bundle : BundleArtifacts} (hbundle : bundle.manifest = product.manifest)
    {loaded : LoadedModel} (hloaded : LoadsWritten digests host codec request.checkpoint bundle loaded)
    {Row ρ : Type} {config : SessionConfig} {opened : Shim Row ρ} {session : IreeSession} {t : SessionState (Shim Row ρ)}
    (hsession : createSession loaded.metadata loaded.manifest config opened = .ok (session, t)) :
    (∀ c, emittedConfig env.portableAttn request'.options prepared'.bound = some c →
        RunsAs loaded.metadata session t.context.config c) ↔
      request.options.smokeOnly = true ∨ request.KeepsVocabulary prepared.catalog := by
  obtain ⟨hbound, hoptions, hproduct⟩ := hcompiled.compiled
  rw [hbound, hoptions, emittedConfig]
  cases hsmoke : request.options.smokeOnly with
  | true => simp
  | false =>
    obtain ⟨encodings, kernels, hp⟩ := prepare_ok hcompiled.prepares
    obtain ⟨lowering, flags, hlowering, -, -, rfl⟩ := compile_ok_iff.mp hproduct
    rw [lowerFor, hsmoke, if_neg Bool.false_ne_true] at hlowering
    obtain ⟨-, -, hsupports, modules, -, rfl⟩ := lowerBoundModel_ok_iff.mp hlowering
    obtain ⟨catalog, hnaming, hmanifest, hmetadata⟩ := hloaded.naming
    have hcatalog : catalog = prepared.catalog := by
      rw [hbundle, show ExecutableManifest.architectureId _ = _ from hp.architectureId, hp.naming] at hnaming
      exact (Except.ok.inj hnaming).symm
    subst hcatalog
    rw [hmetadata, hmanifest, hbundle] at hsession
    rw [hmetadata, hbundle, ← hp.vocabulary env.portableAttn]
    simp only [Bool.false_eq_true, if_false, Option.some.injEq, forall_eq', false_or]
    exact runsAs_iff (hp.kvCache hsupports _ _ _ modules) rfl (seq_pos hsupports) hsession

/-- The compilation of a checkpoint for `gfx1151`. -/
def plainRequest (checkpoint : CheckpointCatalog) (overrides : MetadataMap) : CompileRequest where
  architectureId := "llama.decoder"
  checkpoint
  target := gfx1151
  options := {}
  overrides

/-- Rendering and parsing of one manifest and one plan. -/
def codecOf (manifest : ExecutableManifest) (plan : BindingPlan) : BundleCodec where
  renderManifest _ := [123]
  parseManifest _ := .ok manifest
  renderPlan _ := [91]
  parsePlan _ := .ok plan
  renderSchema _ := [34]

/-- A host with the device on which everything opens. -/
def openHost : RuntimeHost where
  resolveTarget _ := .ok gfx1151
  openExecutable _ _ := .ok ()

/-- Whether the metadata of the small checkpoint, compiled and checked by a load, have the compiled vocabulary. -/
def smallVocabulary (overrides : MetadataMap) : Except DynInferError Bool := do
  let package ← ArchitectureRegistry.buildPackage "llama.decoder" [] smallMeta
  let prepared ← (plainRequest (smallCatalog .f32 package) overrides).prepare blindDigests
  let product ← compile blankEmitter {} {} prepared.input
  let _ ← writeBundle (codecOf product.manifest prepared.plan) .empty [7] none product.manifest prepared.plan
    prepared.catalog.schemaFingerprint
  validateExecutableAbi product.manifest "bundle"
  let _ ← buildRuntimeProviderPlan prepared.catalog prepared.plan
  let (session, _) ← createSession (loadedMetadata product.manifest prepared.catalog) product.manifest {}
    (Shim.opened () ([] : List (Fault Unit Unit)))
  return session.vocabularySize == (DenseDecoderConfig.fromBoundModel false prepared.bound).vocab

/-- A prepared and compiled request of the device, written into an empty directory and checked by a load. -/
theorem loadsWritten_fresh {request : CompileRequest} {env : ProcessEnvironment} {prepared : PreparedRequest}
    {product : CompileProduct} {dir : OutputDir} {providerPlan : RuntimeProviderPlan}
    (htarget : request.target = gfx1151) (hprepared : request.prepare blindDigests = .ok prepared)
    (hproduct : compile blankEmitter env request.options prepared.input = .ok product)
    (hdir : writeBundle (codecOf product.manifest prepared.plan) .empty [7] none product.manifest prepared.plan
      prepared.catalog.schemaFingerprint = .ok dir)
    (habi : validateExecutableAbi product.manifest "bundle" = .ok ())
    (hprovider : buildRuntimeProviderPlan prepared.catalog prepared.plan = .ok providerPlan) :
    LoadsWritten blindDigests openHost (codecOf product.manifest prepared.plan) request.checkpoint
      ⟨[7], none, product.manifest, prepared.plan⟩
      ⟨loadedMetadata product.manifest prepared.catalog, product.manifest, prepared.plan, prepared.catalog⟩ := by
  have hwrites := Writes.fresh hdir
  refine ⟨⟨_, dir, "bundle", hwrites, ?_⟩, rfl, rfl⟩
  obtain ⟨encodings, kernels, hp⟩ := prepare_ok hprepared
  obtain ⟨lowering, flags, -, -, -, rfl⟩ := compile_ok_iff.mp hproduct
  rw [loadModel, loadBundle_eq hwrites.holds rfl rfl, habi]
  have hnaming := hp.naming
  rw [← hp.architectureId] at hnaming
  have hfingerprint : gfx1151.capabilityFingerprint = prepared.bound.target.capabilityFingerprint := by
    rw [buildBoundModel_ok hp.bound, htarget]
  have hplan : prepared.bound.binding = prepared.plan := by rw [buildBoundModel_ok hp.bound]
  exact openModel_of hnaming rfl rfl hfingerprint rfl hprovider
    (components_match hp.plan hprovider (congrArg manifestComponents hplan)) rfl

theorem smallVocabulary_ok {overrides : MetadataMap} {same : Bool} (h : smallVocabulary overrides = .ok same) :
    ∃ checkpoint prepared product codec bundle loaded session t,
      CompiledUnderKey blindDigests blankEmitter {} (plainRequest checkpoint overrides) (plainRequest checkpoint overrides)
        prepared prepared product ∧
      bundle.manifest = product.manifest ∧ LoadsWritten blindDigests openHost codec checkpoint bundle loaded ∧
      createSession loaded.metadata loaded.manifest {} (Shim.opened () ([] : List (Fault Unit Unit))) = .ok (session, t) ∧
      (session.vocabularySize == (DenseDecoderConfig.fromBoundModel false prepared.bound).vocab) = same := by
  obtain ⟨package, -, h⟩ := Fallible.bind_ok h
  obtain ⟨prepared, hprepared, h⟩ := Fallible.bind_ok h
  obtain ⟨product, hproduct, h⟩ := Fallible.bind_ok h
  obtain ⟨dir, hdir, h⟩ := Fallible.bind_ok h
  obtain ⟨_, habi, h⟩ := Fallible.bind_ok h
  obtain ⟨providerPlan, hprovider, h⟩ := Fallible.bind_ok h
  obtain ⟨⟨session, t⟩, hsession, h⟩ := Fallible.bind_ok h
  refine ⟨smallCatalog .f32 package, prepared, product, codecOf product.manifest prepared.plan,
    ⟨[7], none, product.manifest, prepared.plan⟩,
    ⟨loadedMetadata product.manifest prepared.catalog, product.manifest, prepared.plan, prepared.catalog⟩, session, t,
    ?_, rfl, ?_, hsession, Except.ok.inj h⟩
  · exact ⟨hprepared, hprepared, rfl, rfl, blindDigests_separate _ _, rfl, hproduct⟩
  · exact loadsWritten_fresh rfl hprepared hproduct hdir habi hprovider

theorem loaded_geometry_small : ∃ (checkpoint : CheckpointCatalog) (prepared : PreparedRequest) (metadata : ModelMetadata)
      (session : IreeSession) (pool : KvPoolConfig),
    (∀ c, emittedConfig false (plainRequest checkpoint []).options prepared.bound = some c →
        RunsAs metadata session pool c) ↔
      (plainRequest checkpoint []).options.smokeOnly = true ∨ (plainRequest checkpoint []).KeepsVocabulary prepared.catalog := by
  obtain ⟨checkpoint, prepared, product, codec, bundle, loaded, session, t, hcompiled, hbundle, hloaded, hsession, -⟩ :=
    smallVocabulary_ok (show smallVocabulary [] = .ok true by decide +kernel)
  exact ⟨checkpoint, prepared, _, session, _, loaded_geometry_iff hcompiled hbundle hloaded hsession⟩

/-- With its vocabulary overridden, a checkpoint is compiled for one vocabulary and run with another. -/
theorem override_loses_vocabulary :
    ¬ ∀ (digests : ContentDigests) (emitter : Emitter) (env : ProcessEnvironment) (request : CompileRequest)
      (prepared : PreparedRequest) (product : CompileProduct) (host : RuntimeHost) (codec : BundleCodec)
      (bundle : BundleArtifacts) (loaded : LoadedModel) (config : SessionConfig) (opened : Shim Unit Unit)
      (session : IreeSession) (t : SessionState (Shim Unit Unit)),
      CompiledUnderKey digests emitter env request request prepared prepared product →
      bundle.manifest = product.manifest → LoadsWritten digests host codec request.checkpoint bundle loaded →
      createSession loaded.metadata loaded.manifest config opened = .ok (session, t) →
      ∀ c, emittedConfig env.portableAttn request.options prepared.bound = some c →
        RunsAs loaded.metadata session t.context.config c := by
  intro hall
  obtain ⟨checkpoint, prepared, product, codec, bundle, loaded, session, t, hcompiled, hbundle, hloaded, hsession, hvocab⟩ :=
    smallVocabulary_ok (show smallVocabulary [("vocab_size", .ofNat 3)] = .ok false by decide +kernel)
  have hruns := hall _ _ _ _ _ _ _ _ _ _ _ _ _ _ hcompiled hbundle hloaded hsession _ rfl
  rw [hruns.vocab.2, beq_self_eq_true] at hvocab
  cases hvocab

end Dyninfer
