/-
The `generate` command (`dyninfer-cli/src/main.rs`): it counts the tokens of
its prompt, compiles the model with a cache for them and for the new tokens,
loads it and generates. The prefill window is not among what it sizes. So a
model whose cache is static prefills no more than the window of its size, and
the command refuses a longer prompt after it has compiled for it.
-/
import Dyninfer.Runtime.GeometryFacts
import Dyninfer.Runtime.GreedyBudget

namespace Dyninfer

/-- The arguments that the command is run with, but for the model's. -/
structure GenerateArgs (F : Type) where
  prompt : String
  maxNewTokens : Nat
  repetitionPenalty : F
  rawPrompt : Bool := false
  noThinking : Bool := false
  prefillWindow : Option Nat := none
  maxKv : Option Nat := none

/-- The tokens to provide for, as a `u32`; their sum is one of `usize`. -/
def neededKv (promptTokens maxNewTokens : Nat) : Nat :=
  max (min ((promptTokens + maxNewTokens) % 2 ^ 64) (2 ^ 32 - 1)) 1

namespace GenerateArgs

variable {F : Type} (args : GenerateArgs F)

def applyChatTemplate : Bool := !args.rawPrompt

def enableThinking : Bool := !args.noThinking

/-- The number of the prompt's tokens; none when the encoding does not return. -/
def promptTokens (tokenizer : BpeTokenizer) (template : Option (String → Bool → Except String String)) :
    Option (Except DynInferError Nat) :=
  let modelPrompt : Except DynInferError String :=
    if args.applyChatTemplate then
      (tokenizer.applyChatTemplate template args.prompt args.enableThinking).map (·.getD args.prompt)
    else .ok args.prompt
  match modelPrompt with
  | .error e => some (.error e)
  | .ok modelPrompt =>
    let addSpecial := !tokenizer.isByteLevel && !args.applyChatTemplate
    (tokenizer.encode modelPrompt addSpecial).map fun ids => .ok ids.length

/-- The cache that is asked for. -/
def effectiveMaxKv (promptTokens : Nat) : Except String Nat :=
  let needed := neededKv promptTokens args.maxNewTokens
  match args.maxKv with
  | some k =>
    if k < needed then
      .error (s!"--max-kv {k} cannot fit prompt ({promptTokens} tokens) + --max-new-tokens {args.maxNewTokens} " ++
        s!"(need >= {needed})")
    else .ok k
  | none => .ok needed

def overrides (effectiveMaxKv : Nat) : MetadataMap :=
  let overrides : MetadataMap := match args.prefillWindow with
    | some w => [("prefill_window", .ofNat w)]
    | none => []
  overrides.insert "max_kv" (.ofNat effectiveMaxKv)

/-- What is compiled. -/
def request (architectureId : String) (checkpoint : CheckpointCatalog) (target : TargetProfile) (effectiveMaxKv : Nat) :
    CompileRequest where
  architectureId
  checkpoint
  target
  options := { mode := "local-jit" }
  overrides := args.overrides effectiveMaxKv

/-- What is generated with. -/
def config (eos : Option TokenId) : GenerateConfig F where
  maxNewTokens := args.maxNewTokens
  eosTokenId := eos
  repetitionPenalty := args.repetitionPenalty
  applyChatTemplate := args.applyChatTemplate
  enableThinking := args.enableThinking

end GenerateArgs

def generateSessionConfig (effectiveMaxKv : Nat) : SessionConfig where
  maxSequenceLength := effectiveMaxKv

/-- The command up to its session: counted, compiled, written, loaded and opened. -/
structure GenerateOpens {F : Type} (digests : ContentDigests) (emitter : Emitter) (env : ProcessEnvironment)
    (host : RuntimeHost) (codec : BundleCodec) (args : GenerateArgs F) (tokenizer : BpeTokenizer)
    (template : Option (String → Bool → Except String String)) (promptTokens effectiveMaxKv : Nat)
    (request : CompileRequest) (prepared : PreparedRequest) (product : CompileProduct) (bundle : BundleArtifacts)
    (loaded : LoadedModel) (session : IreeSession) : Prop where
  counts : args.promptTokens tokenizer template = some (.ok promptTokens)
  sizes : args.effectiveMaxKv promptTokens = .ok effectiveMaxKv
  asks : request = args.request request.architectureId request.checkpoint request.target effectiveMaxKv
  prepares : request.prepare digests = .ok prepared
  compiles : compile emitter env request.options prepared.input = .ok product
  writes : bundle.manifest = product.manifest
  loads : LoadsWritten digests host codec request.checkpoint bundle loaded
  opens : ∃ (Row ρ : Type) (opened : Shim Row ρ) (t : SessionState (Shim Row ρ)),
    createSession loaded.metadata loaded.manifest (generateSessionConfig effectiveMaxKv) opened = .ok (session, t)

/-! ## The count -/

/-- The tokens that are counted are the ones that generation prefills. -/
theorem promptTokens_ok {F : Type} {args : GenerateArgs F} {tokenizer : BpeTokenizer}
    {template : Option (String → Bool → Except String String)} {promptTokens : Nat}
    (h : args.promptTokens tokenizer template = some (.ok promptTokens)) (eos : Option TokenId) :
    ∃ text ids, modelPrompt tokenizer template args.prompt (args.config eos).applyChatTemplate
        (args.config eos).enableThinking = .ok text ∧
      promptIds tokenizer text (args.config eos).applyChatTemplate = some ids ∧ ids.length = promptTokens := by
  have hprompt : modelPrompt tokenizer template args.prompt args.applyChatTemplate args.enableThinking =
      if args.applyChatTemplate then
        (tokenizer.applyChatTemplate template args.prompt args.enableThinking).map (·.getD args.prompt)
      else .ok args.prompt := by
    unfold modelPrompt
    split
    · cases tokenizer.applyChatTemplate template args.prompt args.enableThinking <;> rfl
    · rfl
  unfold GenerateArgs.promptTokens at h
  simp only at h
  rw [← hprompt] at h
  cases htext : modelPrompt tokenizer template args.prompt args.applyChatTemplate args.enableThinking with
  | error e =>
    rw [htext] at h
    cases h
  | ok text =>
    rw [htext, Option.map_eq_some_iff] at h
    obtain ⟨ids, hids, hcount⟩ := h
    refine ⟨text, ids.map UInt32.ofNat, htext, ?_, ?_⟩
    · show (tokenizer.encode text (!tokenizer.isByteLevel && !args.applyChatTemplate)).map _ = _
      rw [hids]
      rfl
    · rw [List.length_map]
      exact Except.ok.inj hcount

/-! ## The window -/

namespace ResolvedModelConfig

variable (config : ResolvedModelConfig)

/-- The prefill window of a configuration that names none. -/
def sizeWindow : Nat :=
  let number := manifestU32 config.values
  if number "vocab_size" 32 = 32 ∧ number "hidden_size" 64 = 64 ∧ number "num_heads" 4 = 4 then tinyPrefillWindow
  else if 50000 < number "vocab_size" 32 ∨ 16 < number "num_layers" 1 ∨ 1024 ≤ number "hidden_size" 64 then
    largePrefillWindow
  else prefillWindow

/-- The prefill window of a configuration: its own, or its size's. -/
def promptWindow : Nat := max (manifestU32 config.values "prefill_window" config.sizeWindow) 1

end ResolvedModelConfig

theorem requestedPrefill_eq (package : ArchitecturePackage) :
    (defaultShapeProfile package).requestedPrefill = package.resolvedConfig.promptWindow := by
  unfold ShapeProfile.requestedPrefill defaultShapeProfile ResolvedModelConfig.promptWindow ResolvedModelConfig.sizeWindow
    manifestU32
  simp [and_assoc]

/-- The cache of a package whose configuration names one. -/
theorem shape_maxKv {package : ArchitecturePackage} {n : Nat}
    (h : package.resolvedConfig.values.get "max_kv" = some (.ofNat n)) (hn : n < 2 ^ 32) :
    (defaultShapeProfile package).maxKv = max n package.resolvedConfig.promptWindow := by
  have hlength : (defaultShapeProfile package).maxSequenceLength =
      max n (max (manifestU32 package.resolvedConfig.values "prefill_window" package.resolvedConfig.sizeWindow) 1) := by
    unfold defaultShapeProfile ResolvedModelConfig.sizeWindow manifestU32
    simp only [h, Option.bind_some, Json.asU64_ofNat (show n < 2 ^ 64 by omega), Option.map_some, Option.getD_some]
    rw [show asU32 n = n from Nat.mod_eq_of_lt hn]
    simp [and_assoc]
  rw [ShapeProfile.maxKv, requestedPrefill_eq, hlength, ResolvedModelConfig.promptWindow, max_assoc, max_self]

/-! ## The session -/

theorem neededKv_pos (promptTokens maxNewTokens : Nat) : 1 ≤ neededKv promptTokens maxNewTokens := Nat.le_max_right _ _

theorem neededKv_lt (promptTokens maxNewTokens : Nat) : neededKv promptTokens maxNewTokens < 2 ^ 32 := by
  unfold neededKv
  omega

/-- What the guards of a prefill read of a session that was compiled for `maxKv` tokens. -/
structure SizedFor (session : IreeSession) (maxKv window : Nat) : Prop where
  batchSize : session.config.batchSize = 1
  maxSeq : session.maxSeq = maxKv
  paged : session.pagedGeometry.isSome = true ↔ pagedPrefillChunkSize < max maxKv window
  static : session.pagedGeometry = none → session.prefillWindow = window
  chunks : ∀ pageSize chunkSize, session.kv.storage = .paged pageSize chunkSize → 0 < chunkSize
  limit : maxKv ≤ 2 ^ 20

section opens

variable {F : Type} {digests : ContentDigests} {emitter : Emitter} {env : ProcessEnvironment} {host : RuntimeHost}
  {codec : BundleCodec} {args : GenerateArgs F} {tokenizer : BpeTokenizer}
  {template : Option (String → Bool → Except String String)} {promptTokens effectiveMaxKv : Nat}
  {request : CompileRequest} {prepared : PreparedRequest} {product : CompileProduct} {bundle : BundleArtifacts}
  {loaded : LoadedModel} {session : IreeSession}

/-- The cache that is asked for is the configuration's. -/
theorem GenerateOpens.shape_maxKv (h : GenerateOpens digests emitter env host codec args tokenizer template promptTokens
    effectiveMaxKv request prepared product bundle loaded session) (hlt : effectiveMaxKv < 2 ^ 32) :
    prepared.shape.maxKv = max effectiveMaxKv prepared.package.resolvedConfig.promptWindow := by
  obtain ⟨encodings, kernels, hp⟩ := prepare_ok h.prepares
  obtain ⟨architecture, -, hpackage⟩ := Fallible.bind_ok hp.package
  obtain ⟨config, hresolve, hpackage⟩ := Fallible.bind_ok hpackage
  have hget := (ConfigSchema.resolve_ok (configSchema_names architecture).1 hresolve).1 "max_kv" (by decide)
  have hoverride : request.overrides.get "max_kv" = some (.ofNat effectiveMaxKv) := by
    rw [h.asks]
    exact AssocMap.get_insert_self _ _ _
  have hfield : ∃ field, architecture.configSchema.fields.find? (·.name == "max_kv") = some field ∧ field.name = "max_kv" := by
    cases architecture <;> exact ⟨_, rfl, rfl⟩
  obtain ⟨field, hfind, hname⟩ := hfield
  have hvalue : prepared.package.resolvedConfig.values.get "max_kv" = some (.ofNat effectiveMaxKv) := by
    rw [(buildWithConfig_sigs hpackage).1, hget, ConfigSchema.given, hfind, Option.bind_some, ConfigField.lookup, hname,
      hoverride]
    rfl
  rw [hp.shape]
  exact Dyninfer.shape_maxKv hvalue hlt

/-- The shapes that a model is lowered for. -/
theorem Prepares.shapes {encodings : QuantizationRegistry} {kernels : KernelRegistry}
    (hp : Prepares digests request prepared encodings kernels) (portableAttn : Bool) :
    (DenseDecoderConfig.fromBoundModel portableAttn prepared.bound).seq = prepared.shape.prefill ∧
      (DenseDecoderConfig.fromBoundModel portableAttn prepared.bound).maxKv =
        max prepared.shape.maxKv prepared.shape.prefill := by
  rw [buildBoundModel_ok hp.bound]
  unfold DenseDecoderConfig.fromBoundModel ShapeProfile.executionShapes
  constructor <;> simp [List.max?]

/-- The session has the cache and the window that the model was lowered with. -/
theorem GenerateOpens.session_eq (h : GenerateOpens digests emitter env host codec args tokenizer template promptTokens
    effectiveMaxKv request prepared product bundle loaded session) :
    ∃ c, c = DenseDecoderConfig.fromBoundModel env.portableAttn prepared.bound ∧ c.supportsDenseEmit = true ∧
      session = IreeSession.new loaded.metadata (generateSessionConfig effectiveMaxKv)
        (c.kvCache (prepared.shape.batchSizes.headD 1)) c.seq := by
  obtain ⟨encodings, kernels, hp⟩ := prepare_ok h.prepares
  obtain ⟨lowering, flags, hlowering, -, -, hproduct⟩ := compile_ok_iff.mp h.compiles
  have hsmoke : request.options.smokeOnly = false := by rw [h.asks]; rfl
  rw [lowerFor, hsmoke, if_neg Bool.false_ne_true] at hlowering
  obtain ⟨-, -, hsupports, modules, -, hlowered⟩ := lowerBoundModel_ok_iff.mp hlowering
  obtain ⟨catalog, -, hmanifest, -⟩ := h.loads.naming
  obtain ⟨Row, ρ, opened, t, hopen⟩ := h.opens
  obtain ⟨hsession, -⟩ := createSession_ok hopen
  have hcache := hp.kvCache hsupports prepared.package.revision prepared.catalog.schemaFingerprint request.options modules
  rw [hmanifest, h.writes, hproduct, hlowered] at hsession
  refine ⟨_, rfl, hsupports, ?_⟩
  rw [hsession]
  exact congrArg (IreeSession.new loaded.metadata (generateSessionConfig effectiveMaxKv) · _) hcache

theorem GenerateOpens.effectiveMaxKv_eq (h : GenerateOpens digests emitter env host codec args tokenizer template
    promptTokens effectiveMaxKv request prepared product bundle loaded session) (hmaxKv : args.maxKv = none) :
    effectiveMaxKv = neededKv promptTokens args.maxNewTokens := by
  have hsizes := h.sizes
  rw [GenerateArgs.effectiveMaxKv, hmaxKv] at hsizes
  exact (Except.ok.inj hsizes).symm

theorem GenerateOpens.sized (h : GenerateOpens digests emitter env host codec args tokenizer template promptTokens
    effectiveMaxKv request prepared product bundle loaded session) (hmaxKv : args.maxKv = none) :
    SizedFor session effectiveMaxKv prepared.package.resolvedConfig.promptWindow := by
  have hneeded := h.effectiveMaxKv_eq hmaxKv
  have hpos : 1 ≤ effectiveMaxKv := hneeded ▸ neededKv_pos _ _
  have hmax := h.shape_maxKv (hneeded ▸ neededKv_lt _ _)
  obtain ⟨encodings, kernels, hp⟩ := prepare_ok h.prepares
  have hprefill : prepared.shape.requestedPrefill = prepared.package.resolvedConfig.promptWindow := by
    rw [hp.shape, requestedPrefill_eq]
  obtain ⟨c, hc, hsupports, hsession⟩ := h.session_eq
  obtain ⟨hseq, hlength⟩ := hp.shapes env.portableAttn
  have hpaged := hp.pagedKv_eq_paged (hc ▸ hsupports)
  rw [← hc] at hseq hlength hpaged
  have hgeometry : session.pagedGeometry.isSome = prepared.shape.paged := by
    rw [hsession, ← hpaged]
    unfold IreeSession.pagedGeometry IreeSession.new DenseDecoderConfig.kvCache
    cases c.pagedKv <;> rfl
  constructor
  case batchSize =>
    rw [hsession]
    rfl
  case maxSeq =>
    have hconfig : session.config.maxSequenceLength = effectiveMaxKv := by
      rw [hsession]
      rfl
    have hcapacity : session.kv.maxSequenceLength = c.maxKv := by
      rw [hsession]
      rfl
    rw [IreeSession.maxSeq, hconfig, hcapacity, hlength, hmax]
    omega
  case paged =>
    rw [hgeometry, ShapeProfile.paged, decide_eq_true_eq, hmax]
  case static =>
    intro hnone
    rw [hnone] at hgeometry
    have hwindow : session.prefillWindow = max c.seq 1 := by
      rw [hsession]
      rfl
    rw [hwindow, hseq, ShapeProfile.prefill, ← hgeometry, hprefill, ResolvedModelConfig.promptWindow]
    simp
  case chunks =>
    intro pageSize chunkSize hstorage
    rw [hsession] at hstorage
    unfold IreeSession.new DenseDecoderConfig.kvCache at hstorage
    simp only at hstorage
    split at hstorage
    · cases hstorage
      exact seq_pos hsupports
    · cases hstorage
  case limit =>
    simp only [DenseDecoderConfig.supportsDenseEmit, decide_eq_true_eq] at hsupports
    have hle : c.maxKv ≤ 2 ^ 20 := by
      obtain ⟨-, -, -, -, -, -, -, -, -, -, -, -, -, -, -, -, -, -, hle, -⟩ := hsupports
      split at hle <;> omega
    omega

/-! ## The prompt -/

/-- The guards of a prefill, in numbers. -/
theorem admitsPrompt_iff {ids : List TokenId} {maxKv window : Nat} (h : SizedFor session maxKv window) (hne : ids ≠ []) :
    session.AdmitsPrompt ids ↔
      (pagedPrefillChunkSize < max maxKv window ∨ ids.length ≤ window) ∧ ids.length ≤ maxKv := by
  unfold IreeSession.AdmitsPrompt
  rw [h.maxSeq, ← h.paged]
  cases hgeometry : session.pagedGeometry with
  | none =>
    rw [h.static hgeometry]
    simp [h.batchSize, hne]
  | some geometry => simp [h.batchSize, hne]

/-- A sum that stays in `usize` provides for the prompt; one that wraps only for a prompt of one token. -/
theorem provided_iff {promptTokens maxNewTokens window : Nat} (hwindow : 1 ≤ window) (hprompt : promptTokens < 2 ^ 64)
    (hnew : maxNewTokens < 2 ^ 64) (hlimit : neededKv promptTokens maxNewTokens ≤ 2 ^ 20) :
    (pagedPrefillChunkSize < max (neededKv promptTokens maxNewTokens) window ∨ promptTokens ≤ window) ∧
        promptTokens ≤ neededKv promptTokens maxNewTokens ↔
      promptTokens ≤ 1 ∨ promptTokens + maxNewTokens < 2 ^ 64 ∧
        (pagedPrefillChunkSize < promptTokens + maxNewTokens ∨ pagedPrefillChunkSize < window ∨
          promptTokens ≤ window) := by
  unfold neededKv pagedPrefillChunkSize at *
  omega

theorem prefill_ok_iff {D : Type} {ctx : Context F D} {pagedKvMetrics : EStateM DynInferError D (Nat × Nat)}
    (hctx : NeverFails ctx pagedKvMetrics session.vocabularySize)
    (hchunks : ∀ pageSize chunkSize, session.kv.storage = .paged pageSize chunkSize → 0 < chunkSize) (ids : List TokenId)
    (t : SessionState D) : (∃ logits t', (prefill ctx session ids).run t = .ok logits t') ↔ session.AdmitsPrompt ids := by
  have hserved := prefill_serves hctx hchunks ids t.context t rfl
  cases hrun : (prefill ctx session ids).run t with
  | ok logits t' =>
    rw [hrun] at hserved
    exact iff_of_true ⟨logits, t', rfl⟩ hserved.1
  | error e t' =>
    rw [hrun] at hserved
    refine iff_of_false (fun hok => ?_) hserved
    obtain ⟨logits, t'', hok⟩ := hok
    cases hok

theorem promptWindow_pos (config : ResolvedModelConfig) : 1 ≤ config.promptWindow := Nat.le_max_right _ _

/-- **Sizing.** The tokens that the command counts are the ones that generation prefills. Compiled without a cache of
its own, on a device whose calls do not fail, the model prefills them just when there is one at most, or when their sum
with the new tokens is one of `usize`, and that sum or the model's window is longer than a chunk, or the window is as
long as the prompt. -/
theorem generate_fits_iff {D : Type} {ctx : Context F D} {pagedKvMetrics : EStateM DynInferError D (Nat × Nat)}
    (h : GenerateOpens digests emitter env host codec args tokenizer template promptTokens
      effectiveMaxKv request prepared product bundle loaded session)
    (hmaxKv : args.maxKv = none) (hprompt : promptTokens < 2 ^ 64) (hnew : args.maxNewTokens < 2 ^ 64)
    (hctx : NeverFails ctx pagedKvMetrics session.vocabularySize) (eos : Option TokenId) (t : SessionState D) :
    ∃ text ids, modelPrompt tokenizer template args.prompt (args.config eos).applyChatTemplate
        (args.config eos).enableThinking = .ok text ∧
      promptIds tokenizer text (args.config eos).applyChatTemplate = some ids ∧ ids.length = promptTokens ∧
      ((ids ≠ [] → ∃ logits t', (prefill ctx session ids).run t = .ok logits t') ↔
        promptTokens ≤ 1 ∨ promptTokens + args.maxNewTokens < 2 ^ 64 ∧
          (pagedPrefillChunkSize < promptTokens + args.maxNewTokens ∨
            pagedPrefillChunkSize < prepared.package.resolvedConfig.promptWindow ∨
            promptTokens ≤ prepared.package.resolvedConfig.promptWindow)) := by
  obtain ⟨text, ids, htext, hids, hlength⟩ := promptTokens_ok h.counts eos
  refine ⟨text, ids, htext, hids, hlength, ?_⟩
  have hsized := h.sized hmaxKv
  have hneeded := h.effectiveMaxKv_eq hmaxKv
  rw [prefill_ok_iff hctx hsized.chunks]
  rw [hneeded] at hsized
  by_cases hne : ids = []
  · subst hne
    rw [← hlength]
    simp
  · rw [← provided_iff (promptWindow_pos _) hprompt hnew hsized.limit, admitsPrompt_iff hsized hne, hlength]
    exact ⟨fun h => h hne, fun h _ => h⟩

end opens

section small

/-- A context that answers every call with equal logits. -/
def levelContext (vocabularySize : Nat) : Context Nat Unit where
  resetPagedKv := pure ()
  ensureKvPages _ := pure ()
  invokePagedChunkEx _ _ _ wantLogits := pure (if wantLogits then some (List.replicate vocabularySize 0) else none, 0)
  invokePrefill _ _ := pure (List.replicate vocabularySize 0)
  invokeDecode _ _ _ := pure (List.replicate vocabularySize 0)

theorem levelContext_neverFails (vocabularySize : Nat) :
    NeverFails (levelContext vocabularySize) (pure (0, 0)) vocabularySize where
  reset _ := ⟨_, rfl⟩
  ensure _ _ := ⟨_, rfl⟩
  chunk _ _ _ wantLogits _ := ⟨_, _, rfl, fun h => ⟨List.replicate vocabularySize 0, by rw [h]; rfl, List.length_replicate⟩⟩
  prefill _ _ _ := ⟨_, _, rfl, List.length_replicate⟩
  decode _ _ _ _ := ⟨_, _, rfl, List.length_replicate⟩
  metrics _ := ⟨_, _, rfl⟩

/-- A raw prompt. -/
def rawArgs (prompt : String) (maxNewTokens : Nat) : GenerateArgs Nat where
  prompt
  maxNewTokens
  repetitionPenalty := 1
  rawPrompt := true

/-- The prefill window of the small checkpoint, compiled for 66 tokens, written and opened. -/
def smallGenerate : Except DynInferError Nat := do
  let package ← ArchitectureRegistry.buildPackage "llama.decoder" [] smallMeta
  let request := (rawArgs "" 0).request "llama.decoder" (smallCatalog .f32 package) gfx1151 66
  let prepared ← request.prepare blindDigests
  let product ← compile blankEmitter {} request.options prepared.input
  let _ ← writeBundle (codecOf product.manifest prepared.plan) .empty [7] none product.manifest prepared.plan
    prepared.catalog.schemaFingerprint
  validateExecutableAbi product.manifest "bundle"
  let _ ← buildRuntimeProviderPlan prepared.catalog prepared.plan
  let _ ← createSession (loadedMetadata product.manifest prepared.catalog) product.manifest (generateSessionConfig 66)
    (Shim.opened () ([] : List (Fault Unit Unit)))
  return prepared.package.resolvedConfig.promptWindow

/-- Every raw prompt that needs 66 tokens is generated from in one session. -/
theorem smallGenerate_opens : ∃ request prepared product bundle loaded session,
    prepared.package.resolvedConfig.promptWindow = 64 ∧
      ∀ prompt maxNewTokens promptTokens,
        (rawArgs prompt maxNewTokens).promptTokens wordTokenizer none = some (.ok promptTokens) →
        neededKv promptTokens maxNewTokens = 66 →
        GenerateOpens blindDigests blankEmitter {} openHost (codecOf product.manifest prepared.plan)
          (rawArgs prompt maxNewTokens) wordTokenizer none promptTokens 66 request prepared product bundle loaded session := by
  have h : smallGenerate = .ok 64 := by decide +kernel
  obtain ⟨package, -, h⟩ := Fallible.bind_ok h
  obtain ⟨prepared, hprepared, h⟩ := Fallible.bind_ok h
  obtain ⟨product, hproduct, h⟩ := Fallible.bind_ok h
  obtain ⟨dir, hdir, h⟩ := Fallible.bind_ok h
  obtain ⟨_, habi, h⟩ := Fallible.bind_ok h
  obtain ⟨providerPlan, hprovider, h⟩ := Fallible.bind_ok h
  obtain ⟨⟨session, t⟩, hsession, h⟩ := Fallible.bind_ok h
  refine ⟨(rawArgs "" 0).request "llama.decoder" (smallCatalog .f32 package) gfx1151 66, prepared, product,
    ⟨[7], none, product.manifest, prepared.plan⟩,
    ⟨loadedMetadata product.manifest prepared.catalog, product.manifest, prepared.plan, prepared.catalog⟩, session,
    Except.ok.inj h, fun prompt maxNewTokens promptTokens hcounts hneeded => ?_⟩
  exact
    { counts := hcounts
      sizes := congrArg Except.ok hneeded
      asks := rfl
      prepares := hprepared
      compiles := hproduct
      writes := rfl
      loads := loadsWritten_fresh rfl hprepared hproduct hdir habi hprovider
      opens := ⟨Unit, Unit, _, t, hsession⟩ }

theorem generate_fits_iff_letter : ∃ session : IreeSession, ∃ text ids,
    modelPrompt wordTokenizer none "a" false true = .ok text ∧ promptIds wordTokenizer text false = some ids ∧
      ids.length = 2 ∧ (ids ≠ [] →
        ∃ logits t', (prefill (levelContext session.vocabularySize) session ids).run (.new ()) = .ok logits t') := by
  obtain ⟨request, prepared, product, bundle, loaded, session, hwindow, hopens⟩ := smallGenerate_opens
  have hcounts : (rawArgs "a" 64).promptTokens wordTokenizer none = some (.ok 2) := by decide +kernel
  obtain ⟨text, ids, htext, hids, hlength, hiff⟩ := generate_fits_iff (hopens "a" 64 2 hcounts (by decide)) rfl
    (by decide) (by decide) (levelContext_neverFails session.vocabularySize) none (.new ())
  refine ⟨session, text, ids, htext, hids, hlength, hiff.mpr (.inr ⟨by decide, .inr (.inr ?_)⟩)⟩
  rw [hwindow]
  decide

/-- A prompt of 65 tokens is refused by the model that was compiled for it and one token more. -/
theorem generate_refused : ∃ (request : CompileRequest) (prepared : PreparedRequest) (product : CompileProduct)
    (codec : BundleCodec) (bundle : BundleArtifacts) (loaded : LoadedModel) (session : IreeSession) (ids : List TokenId),
    GenerateOpens blindDigests blankEmitter {} openHost codec (rawArgs (String.ofList (List.replicate 64 'a')) 1)
      wordTokenizer none 65 66 request prepared product bundle loaded session ∧
    promptIds wordTokenizer (String.ofList (List.replicate 64 'a')) false = some ids ∧ ids ≠ [] ∧
    ¬ ∃ logits t', (prefill (levelContext session.vocabularySize) session ids).run (.new ()) = .ok logits t' := by
  obtain ⟨request, prepared, product, bundle, loaded, session, hwindow, hopens⟩ := smallGenerate_opens
  have hcounts : (rawArgs (String.ofList (List.replicate 64 'a')) 1).promptTokens wordTokenizer none = some (.ok 65) := by
    decide +kernel
  have hopen := hopens _ 1 65 hcounts (by decide)
  obtain ⟨text, ids, htext, hids, hlength⟩ := promptTokens_ok hcounts none
  cases htext
  have hne : ids ≠ [] := List.ne_nil_of_length_pos (by omega)
  have hsized := hopen.sized rfl
  refine ⟨request, prepared, product, _, bundle, loaded, session, ids, hopen, hids, hne, ?_⟩
  rw [prefill_ok_iff (levelContext_neverFails _) hsized.chunks, admitsPrompt_iff hsized hne, hwindow, hlength]
  decide

end small

end Dyninfer
