/-
The graph of an accepted configuration. Whatever configuration an
architecture's builder accepts, the operations of the package follow the
configuration's own numbers: the embedding, one operator sublayer and one
feed-forward sublayer for each layer of the schedule, the final norm and the
output projection.
-/
import Dyninfer.Architecture.GraphChecks
import Dyninfer.Architecture.Signature

namespace Dyninfer

open Effect ModelBuilder

/-! ## The graph -/

/-- The graph's operations have these signatures, its slots are required and named after their ids,
and it passed the checks. -/
structure ArchitectureGraph.HasSigs (graph : ArchitectureGraph) (sigs : List OpSig) : Prop where
  operations : List.Forall₂ (ArchitectureOperation.Shows graph.values) graph.operations sigs
  slots : ∀ slot ∈ graph.parameterSlots, slot.canonicalName = slot.id ∧ slot.optional = false
  conforms : verifyArchitectureConformance graph = .ok ()

namespace ArchitectureGraph

variable {graph : ArchitectureGraph} {sigs : List OpSig}

theorem valueType_eq (h : (graph.values.map (·.id)).Nodup) {v : GraphValue} (hv : v ∈ graph.values) :
    graph.valueType v.id = some v.tensorType := by
  unfold valueType
  have hfind : graph.values.find? (·.id == v.id) = some v := by
    refine List.find?_eq_some_iff_append.mpr ⟨by simp, ?_⟩
    obtain ⟨before, after, hsplit⟩ := List.append_of_mem hv
    refine ⟨before, after, hsplit, fun u hu => ?_⟩
    rw [hsplit, List.map_append, List.map_cons] at h
    have hne : u.id ≠ v.id := by
      intro heq
      refine (List.nodup_append.mp h).2.2 u.id (List.mem_map_of_mem hu) v.id List.mem_cons_self heq
    simpa using hne
  rw [hfind]; rfl

/-- An operation of the graph, with its signature. -/
theorem HasSigs.sig_of_mem (h : graph.HasSigs sigs) {operation : ArchitectureOperation}
    (hop : operation ∈ graph.operations) : ∃ sig ∈ sigs, operation.Shows graph.values sig := by
  obtain ⟨i, hi, rfl⟩ := List.mem_iff_getElem.mp hop
  have hi' : i < sigs.length := h.operations.length_eq ▸ hi
  exact ⟨sigs[i], List.getElem_mem hi', h.operations.get hi hi'⟩

/-- A signature of the graph, with its operation. -/
theorem HasSigs.op_of_mem (h : graph.HasSigs sigs) {sig : OpSig} (hsig : sig ∈ sigs) :
    ∃ operation ∈ graph.operations, operation.Shows graph.values sig := by
  obtain ⟨i, hi, rfl⟩ := List.mem_iff_getElem.mp hsig
  have hi' : i < graph.operations.length := h.operations.length_eq.symm ▸ hi
  exact ⟨graph.operations[i], List.getElem_mem hi', h.operations.get hi' hi⟩

theorem HasSigs.map_kind (h : graph.HasSigs sigs) : graph.operations.map (·.kind) = sigs.map (·.kind) := by
  have hkinds : List.Forall₂ (fun operation sig => operation.kind = sig.kind) graph.operations sigs :=
    h.operations.imp fun _ _ hs => hs.1
  rw [← List.forall₂_eq_eq_eq, List.forall₂_map_left_iff, List.forall₂_map_right_iff]
  exact hkinds

/-- The types of an operation's outputs are those of its signature. -/
theorem HasSigs.outputs_eq (h : graph.HasSigs sigs) {operation : ArchitectureOperation} {sig : OpSig}
    (hs : operation.Shows graph.values sig) :
    operation.outputs.map graph.valueType = sig.output.toList.map some := by
  obtain ⟨_, _, hout⟩ := hs
  cases hty : sig.output with
  | some tensorType =>
    rw [hty] at hout
    obtain ⟨id, hid, hmem⟩ := hout
    rw [hid, List.map_singleton, valueType_eq (verifyArchitectureConformance_ok h.conforms).values hmem]
    rfl
  | none =>
    rw [hty] at hout
    rw [hout]
    rfl

/-- What holds of every signature holds of every operation. -/
theorem HasSigs.forall_operations (h : graph.HasSigs sigs)
    {P : List (Option SemanticTensorType) → OperationKind → Prop}
    (hsigs : ∀ sig ∈ sigs, P (sig.output.toList.map some) sig.kind) :
    ∀ operation ∈ graph.operations, P (operation.outputs.map graph.valueType) operation.kind := by
  intro operation hop
  obtain ⟨sig, hsig, hs⟩ := h.sig_of_mem hop
  rw [h.outputs_eq hs, hs.1]
  exact hsigs sig hsig

end ArchitectureGraph

/-! ## The builder's end -/

namespace ModelBuilder

theorem triple_finish (sigs : List OpSig) :
    Triple (Built sigs) finish (fun module _ => module.graph.HasSigs sigs) fun _ => True := by
  intro b hb
  unfold finish
  simp only [EStateM.run_bind, EStateM.run_get]
  cases hid : b.architectureId with
  | none => trivial
  | some architectureId =>
    simp only [EStateM.run_bind, EStateM.run_get, EStateM.run_set]
    cases hv : verifyArchitectureConformance (ArchitectureGraph.mk 1 architectureId b.values b.operations b.slots
      b.exports) with
    | error e => trivial
    | ok _ => exact ⟨hb.operations, hb.slots, hv⟩

theorem run_lift_bind_ok {α β : Type} {x : Except DynInferError α} {f : α → BuilderM β} {b b' : ModelBuilder}
    {r : β} (h : (lift x >>= f).run b = .ok r b') : ∃ a, x = .ok a ∧ (f a).run b = .ok r b' := by
  cases x with
  | ok a => exact ⟨a, rfl, h⟩
  | error e => cases h

theorem emits_exportPrefillAndDecode (logits : Value) :
    Emits (exportPrefillAndDecode logits) [] fun _ => True := by
  intro done b hb
  unfold exportPrefillAndDecode
  simp only [EStateM.run_bind, EStateM.run_get]
  cases b.primaryInput with
  | none => trivial
  | some input => exact ⟨trivial, by rw [List.append_nil]; exact hb.mono rfl rfl fun _ hv => hv⟩

end ModelBuilder

/-! ## The signature of a model -/

/-- The layers' operations, between the embedding and the output projection. -/
def modelSigs (hidden vocab : Nat) (epsilon : Float) (layers : List OpSig) : List OpSig :=
  ⟨.input, some .tokens, []⟩ ::
  ⟨.embedding, some (.activations hidden), ["token_embd.weight"]⟩ ::
  (layers ++
    [rmsNormSig epsilon hidden "output_norm.weight",
      ⟨.outputProjection, some (.activations vocab), ["output.weight"]⟩])

def layerSigs (hasQkNorm : Bool) (block : DecoderBlockSpec) (shortConv : ShortConvBlockSpec)
    (entry : LayerKind × Nat) : List OpSig :=
  (match entry.1 with
    | .attention => block.attentionSigs entry.2 hasQkNorm
    | .shortConv => shortConv.shortConvSigs entry.2) ++ block.feedForwardSigs entry.2

/-- Whether the attention layers of an architecture normalise their queries and keys. -/
def Architecture.hasQkNorm : Architecture → Bool
  | .llama => false
  | .qwen3 | .lfm2 => true

/-- The numbers of a configuration a builder accepted. -/
structure ResolvedModelConfig.Reads (config : ResolvedModelConfig) (numLayers vocab : Nat)
    (block : DecoderBlockSpec) : Prop where
  numLayers : config.numLayers = .ok numLayers
  vocab : config.getU32 "vocab_size" = .ok vocab
  hiddenSize : config.getU32 "hidden_size" = .ok block.hiddenSize
  intermediateSize : config.getU32 "intermediate_size" = .ok block.intermediateSize
  numHeads : config.getU32 "num_heads" = .ok block.numHeads
  numKvHeads : config.getU32 "num_kv_heads" = .ok block.numKvHeads
  headDim : config.getU32 "head_dim" = .ok block.headDim
  ropeTheta : (config.values.get "rope_theta").bind Json.asF64 = block.ropeTheta

/-- The short-convolution numbers of a hybrid's configuration. -/
structure ResolvedModelConfig.ReadsShortConv (config : ResolvedModelConfig) (spec : ShortConvBlockSpec) : Prop where
  channels : (config.getU32 "conv_dim").toOption.getD spec.hiddenSize = spec.channels
  kernelSize : config.getU32 "conv_kernel" = .ok spec.kernelSize

/-- The schedule an architecture follows: its own, or attention throughout. -/
def Architecture.Schedules (config : ResolvedModelConfig) (numLayers : Nat) :
    Architecture → List LayerKind → Prop
  | .llama, schedule | .qwen3, schedule => schedule = List.replicate numLayers .attention
  | .lfm2, schedule => Lfm2Architecture.layerSchedule config numLayers = .ok schedule

theorem getU32_lt {config : ResolvedModelConfig} {key : String} {n : Nat}
    (h : config.getU32 key = .ok n) : n < 2 ^ 32 := by
  unfold ResolvedModelConfig.getU32 at h
  split at h
  · injection h with h; rw [← h]; exact Nat.mod_lt _ (by decide)
  · cases h

theorem numLayers_lt {config : ResolvedModelConfig} {n : Nat} (h : config.numLayers = .ok n) : n < 2 ^ 32 := by
  unfold ResolvedModelConfig.numLayers ResolvedModelConfig.orElse at h
  split at h
  case h_1 a ha =>
    cases h
    split at ha
    case h_1 b hb => cases ha; exact getU32_lt hb
    case h_2 => exact getU32_lt ha
  case h_2 => exact getU32_lt h

/-! ## Llama and Qwen3 -/

theorem range_flatMap_replicate {α : Type} (n : Nat) (f : LayerKind × Nat → List α) :
    ((List.range n).flatMap fun layer => f (.attention, layer)) =
      (List.replicate n LayerKind.attention).zipIdx.flatMap f := by
  have hz : (List.replicate n LayerKind.attention).zipIdx =
      (List.range n).map fun layer => (LayerKind.attention, layer) := by
    apply List.ext_getElem <;> simp
  rw [hz, List.flatMap_map]

/-- The end of every model: the final norm, the output projection, the exports. -/
theorem triple_output {x : Value} {hidden vocab : Nat} {epsilon : Float} {layers : List OpSig}
    (hx : x.tensorType = .activations hidden) :
    Triple (Built ([⟨.input, some .tokens, []⟩,
        ⟨.embedding, some (.activations hidden), ["token_embd.weight"]⟩] ++ layers))
      (do let x ← finalRmsNorm "output_norm" x "output_norm.weight" epsilon
          let logits ← outputProjection "output_projection" x "output.weight" vocab
          exportPrefillAndDecode logits
          finish)
      (fun module _ => module.graph.HasSigs (modelSigs hidden vocab epsilon layers)) fun _ => True := by
  refine (emits_rmsNorm hx).andThen fun x _ => ?_
  refine (emits_slotted _ _ _ _ _ _ _).andThen fun logits _ => ?_
  refine (emits_exportPrefillAndDecode logits).andThen fun _ _ => ?_
  refine (triple_finish _).conseq (fun b hb => ?_) (fun _ _ h => h) fun _ h => h
  simpa [modelSigs] using hb

/-- The start of every model: the tokens and their embedding. -/
theorem triple_input {α : Type} {hidden : Nat} {f : Value → BuilderM α} {Q : α → ModelBuilder → Prop}
    (hf : ∀ x : Value, x.tensorType = .activations hidden →
      Triple (Built [⟨.input, some .tokens, []⟩,
        ⟨.embedding, some (.activations hidden), ["token_embd.weight"]⟩]) (f x) Q fun _ => True) :
    Triple (Built []) (do let tokens ← inputTokens "tokens"
                          let x ← embedding "token_embedding" tokens "token_embd.weight" hidden
                          f x) Q fun _ => True :=
  (emits_inputTokens _).andThen fun _ _ => (emits_slotted _ _ _ _ _ _ _).andThen hf

theorem buildDecoder_sigs {hasQkNorm : Bool} {config : ResolvedModelConfig} {b b' : ModelBuilder}
    {module : ModelModule} (hb : Built [] b) (h : (buildDecoder hasQkNorm config).run b = .ok module b') :
    ∃ numLayers vocab block, config.Reads numLayers vocab block ∧
      ∀ shortConv, module.graph.HasSigs (modelSigs block.hiddenSize vocab block.rmsNormEpsilon
        ((List.replicate numLayers .attention).zipIdx.flatMap (layerSigs hasQkNorm block shortConv))) := by
  obtain ⟨numLayers, hlayers, h⟩ := run_lift_bind_ok h
  obtain ⟨hidden, hhidden, h⟩ := run_lift_bind_ok h
  obtain ⟨vocab, hvocab, h⟩ := run_lift_bind_ok h
  obtain ⟨intermediate, hintermediate, h⟩ := run_lift_bind_ok h
  obtain ⟨heads, hheads, h⟩ := run_lift_bind_ok h
  obtain ⟨kvHeads, hkvHeads, h⟩ := run_lift_bind_ok h
  obtain ⟨headDim, hheadDim, h⟩ := run_lift_bind_ok h
  obtain ⟨epsilon, hepsilon, h⟩ := run_lift_bind_ok h
  refine ⟨numLayers, vocab, ⟨hidden, intermediate, heads, kvHeads, headDim, epsilon,
    (config.values.get "rope_theta").bind Json.asF64⟩,
    ⟨hlayers, hvocab, hhidden, hintermediate, hheads, hkvHeads, hheadDim, rfl⟩, fun shortConv => ?_⟩
  rw [← range_flatMap_replicate]
  refine Triple.ok (Q := fun (module : ModelModule) _ => module.graph.HasSigs _) (E := fun _ => True) ?_ hb h
  refine triple_input fun x hx => ?_
  exact (Emits.foldlM (fun x layer hx => emits_decoderBlock layer hasQkNorm hx) _ hx).andThen fun x hx =>
    triple_output hx

/-! ## LFM2 -/

theorem zipIdx_flatMap_congr {α β : Type} {xs : List α} {f g : α × Nat → List β} (hlen : xs.length < 2 ^ 32)
    (h : ∀ x i, i < 2 ^ 32 → f (x, i) = g (x, i)) : xs.zipIdx.flatMap f = xs.zipIdx.flatMap g := by
  refine List.flatMap_congr fun (x, i) hx => h x i ?_
  have := (List.mem_zipIdx hx).2.1
  omega

theorem emits_buildLayer {block : DecoderBlockSpec} {shortConv : ShortConvBlockSpec}
    (hwidth : shortConv.hiddenSize = block.hiddenSize) {x : Value} (entry : LayerKind × Nat)
    (hx : x.tensorType = .activations block.hiddenSize) :
    Emits (Lfm2Architecture.buildLayer block shortConv x entry)
      (layerSigs true block shortConv (entry.1, asU32 entry.2)) (·.tensorType = .activations block.hiddenSize) := by
  obtain ⟨kind, layer⟩ := entry
  refine Emits.bind (p := (·.tensorType = .activations block.hiddenSize)) ?_ fun x hx =>
    emits_feedForwardSublayer _ hx
  cases kind with
  | attention => exact emits_attentionSublayer _ true hx
  | shortConv =>
    rw [← hwidth] at hx ⊢
    exact emits_shortConvSublayer _ hx

/-- An accepted schedule is read off the configuration's `layer_types`, one entry a layer. -/
theorem layerSchedule_ok {config : ResolvedModelConfig} {numLayers : Nat} {schedule : List LayerKind}
    (h : Lfm2Architecture.layerSchedule config numLayers = .ok schedule) :
    ∃ entries, (config.values.get "layer_types").bind Json.asArray = some entries ∧
      entries.length = numLayers ∧
      List.Forall₂ (fun entry kind => Lfm2Architecture.scheduleEntry entry = .ok kind) entries.zipIdx schedule := by
  unfold Lfm2Architecture.layerSchedule at h
  split at h
  case h_1 => cases h
  case h_2 entries hentries =>
    split at h
    case isTrue => cases h
    case isFalse hlen => exact ⟨entries, hentries, not_not.mp hlen, Fallible.mapM_ok h⟩

theorem layerSchedule_length {config : ResolvedModelConfig} {numLayers : Nat} {schedule : List LayerKind}
    (h : Lfm2Architecture.layerSchedule config numLayers = .ok schedule) : schedule.length = numLayers := by
  obtain ⟨entries, _, hlen, hall⟩ := layerSchedule_ok h
  rw [← hall.length_eq, List.length_zipIdx, hlen]

theorem buildLfm2_sigs {config : ResolvedModelConfig} {b b' : ModelBuilder} {module : ModelModule}
    (hb : Built [] b) (h : (Lfm2Architecture.build config).run b = .ok module b') :
    ∃ numLayers vocab block schedule shortConv, config.Reads numLayers vocab block ∧
      config.ReadsShortConv shortConv ∧ shortConv.hiddenSize = block.hiddenSize ∧
      Lfm2Architecture.layerSchedule config numLayers = .ok schedule ∧
      module.graph.HasSigs (modelSigs block.hiddenSize vocab block.rmsNormEpsilon
        (schedule.zipIdx.flatMap (layerSigs true block shortConv))) := by
  obtain ⟨numLayers, hlayers, h⟩ := run_lift_bind_ok h
  obtain ⟨hidden, hhidden, h⟩ := run_lift_bind_ok h
  obtain ⟨vocab, hvocab, h⟩ := run_lift_bind_ok h
  obtain ⟨epsilon, hepsilon, h⟩ := run_lift_bind_ok h
  obtain ⟨schedule, hschedule, h⟩ := run_lift_bind_ok h
  obtain ⟨intermediate, hintermediate, h⟩ := run_lift_bind_ok h
  obtain ⟨heads, hheads, h⟩ := run_lift_bind_ok h
  obtain ⟨kvHeads, hkvHeads, h⟩ := run_lift_bind_ok h
  obtain ⟨headDim, hheadDim, h⟩ := run_lift_bind_ok h
  obtain ⟨kernelSize, hkernel, h⟩ := run_lift_bind_ok h
  refine ⟨numLayers, vocab, ⟨hidden, intermediate, heads, kvHeads, headDim, epsilon,
    (config.values.get "rope_theta").bind Json.asF64⟩, schedule,
    ⟨hidden, (config.getU32 "conv_dim").toOption.getD hidden, kernelSize, epsilon⟩,
    ⟨hlayers, hvocab, hhidden, hintermediate, hheads, hkvHeads, hheadDim, rfl⟩, ⟨rfl, hkernel⟩, rfl,
    hschedule, ?_⟩
  have hlen : schedule.length < 2 ^ 32 := by
    rw [layerSchedule_length hschedule]; exact numLayers_lt hlayers
  rw [zipIdx_flatMap_congr hlen (g := fun entry => layerSigs true _ _ (entry.1, asU32 entry.2)) fun kind i hi => by
    rw [show asU32 i = i from Nat.mod_eq_of_lt hi]]
  refine Triple.ok (Q := fun (module : ModelModule) _ => module.graph.HasSigs _) (E := fun _ => True) ?_ hb h
  refine triple_input fun x hx => ?_
  exact (Emits.foldlM (fun x entry hx => emits_buildLayer rfl entry hx) _ hx).andThen fun x hx =>
    triple_output hx

/-! ## Every architecture -/

theorem built_start (architectureId : String) : Built [] { architectureId := some architectureId } :=
  ⟨.nil, fun _ h => absurd h List.not_mem_nil⟩

/-- **The graph an accepted configuration builds.** -/
theorem buildWithConfig_sigs {architecture : Architecture} {config : ResolvedModelConfig}
    {package : ArchitecturePackage} (h : ArchitectureRegistry.buildWithConfig architecture config = .ok package) :
    package.resolvedConfig = config ∧
      ∃ numLayers vocab block schedule shortConv, config.Reads numLayers vocab block ∧
        architecture.Schedules config numLayers schedule ∧
        (architecture = .lfm2 → config.ReadsShortConv shortConv ∧ shortConv.hiddenSize = block.hiddenSize) ∧
        package.graph.HasSigs (modelSigs block.hiddenSize vocab block.rmsNormEpsilon
          (schedule.zipIdx.flatMap (layerSigs architecture.hasQkNorm block shortConv))) := by
  unfold ArchitectureRegistry.buildWithConfig at h
  split at h
  case h_2 => cases h
  case h_1 module b' hrun =>
    cases h
    refine ⟨rfl, ?_⟩
    cases architecture with
    | lfm2 =>
      obtain ⟨numLayers, vocab, block, schedule, shortConv, hreads, hconv, hwidth, hschedule, hsigs⟩ :=
        buildLfm2_sigs (built_start _) hrun
      exact ⟨numLayers, vocab, block, schedule, shortConv, hreads, hschedule, fun _ => ⟨hconv, hwidth⟩, hsigs⟩
    | llama | qwen3 =>
      obtain ⟨numLayers, vocab, block, hreads, hsigs⟩ := buildDecoder_sigs (built_start _) hrun
      exact ⟨numLayers, vocab, block, _, ⟨0, 0, 0, 0⟩, hreads, rfl, (fun h => nomatch h), hsigs _⟩

theorem ArchitectureRegistry.get_of_require {id : String} {architecture : Architecture}
    (h : ArchitectureRegistry.require id = .ok architecture) : ArchitectureRegistry.get id = some architecture := by
  unfold ArchitectureRegistry.require at h
  split at h
  case h_1 found hfound =>
    cases h
    exact hfound
  case h_2 => cases h

/-- A registered architecture's graph passed the checks. -/
theorem buildPackage_conforms {id : String} {overrides checkpointMeta : MetadataMap} {package : ArchitecturePackage}
    (h : ArchitectureRegistry.buildPackage id overrides checkpointMeta = .ok package) :
    verifyArchitectureConformance package.graph = .ok () := by
  obtain ⟨architecture, -, h⟩ := Fallible.bind_ok h
  obtain ⟨config, -, h⟩ := Fallible.bind_ok h
  obtain ⟨-, numLayers, vocab, block, schedule, shortConv, -, -, -, hsigs⟩ := buildWithConfig_sigs h
  exact hsigs.conforms

end Dyninfer
