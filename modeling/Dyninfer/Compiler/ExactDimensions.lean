/-
The dimensions of a model against the integers its metadata denote. Every
number passes through `as u32` and the projection widths are `u32` products,
so an accepted model carries the exact integers precisely when all of them,
and the products the graph uses, are below `2^32`.
-/
import Dyninfer.Architecture.ConfigFacts
import Dyninfer.Compiler.ConfigAgreement

namespace Dyninfer

/-- The integers a model's metadata denote, unbounded. -/
structure Dimensions where
  numLayers : Nat
  vocab : Nat
  hidden : Nat
  intermediate : Nat
  numHeads : Nat
  numKvHeads : Nat
  headDim : Nat
  convDim : Nat

namespace Dimensions

variable (d : Dimensions)

def qDim : Nat := d.numHeads * d.headDim

def kvDim : Nat := d.numKvHeads * d.headDim

def convWidth : Nat := 3 * d.convDim

/-- The sizes an operation carries are these integers and their products. -/
def Carries (outputs : List (Option SemanticTensorType)) : OperationKind → Prop
  | .embedding | .residual | .linear .attentionO | .linear .ffnDown => outputs = [some (.activations d.hidden)]
  | .linear .attentionQ => outputs = [some (.activations d.qDim)]
  | .linear .attentionK | .linear .attentionV => outputs = [some (.activations d.kvDim)]
  | .linear .ffnGate | .linear .ffnUp => outputs = [some (.activations d.intermediate)]
  | .linear (.other name) =>
    outputs = [some (.activations (if name = "shortconv.in" then d.convWidth else d.hidden))]
  | .outputProjection => outputs = [some (.activations d.vocab)]
  | .attention numHeads numKvHeads headDim _ =>
    numHeads = d.numHeads ∧ numKvHeads = d.numKvHeads ∧ headDim = d.headDim
  | .rope _ headDim _ | .perHeadRmsNorm _ _ headDim => headDim = d.headDim
  | .shortConv _ channels _ => channels = d.convDim
  | _ => True

/-- The lowering and the graph carry exactly these integers. -/
structure Exact (c : DenseDecoderConfig) (graph : ArchitectureGraph) : Prop where
  numLayers : c.numLayers = d.numLayers
  vocab : c.vocab = d.vocab
  hidden : c.hidden = d.hidden
  intermediate : c.intermediate = d.intermediate
  numHeads : c.numHeads = d.numHeads
  numKvHeads : c.numKvHeads = d.numKvHeads
  headDim : c.headDim = d.headDim
  convDim : c.convDim = d.convDim
  qDim : c.qDim = d.qDim
  kvDim : c.kvDim = d.kvDim
  graph : ∀ operation ∈ graph.operations, d.Carries (operation.outputs.map graph.valueType) operation.kind

/-- Every integer, and every product the model uses, is a `u32`. -/
structure Fits (convolves : Prop) : Prop where
  numLayers : d.numLayers < 2 ^ 32
  vocab : d.vocab < 2 ^ 32
  hidden : d.hidden < 2 ^ 32
  intermediate : d.intermediate < 2 ^ 32
  numHeads : d.numHeads < 2 ^ 32
  numKvHeads : d.numKvHeads < 2 ^ 32
  headDim : d.headDim < 2 ^ 32
  convDim : d.convDim < 2 ^ 32
  qDim : d.qDim < 2 ^ 32
  kvDim : d.kvDim < 2 ^ 32
  convWidth : convolves → d.convWidth < 2 ^ 32

end Dimensions

namespace Architecture

/-- The integers the metadata denote for an architecture, when they give all of them. -/
def denotes (architecture : Architecture) (overrides checkpointMeta : MetadataMap) : Option Dimensions := do
  let field := architecture.configSchema.denotes overrides checkpointMeta
  let hidden ← field "hidden_size"
  return {
    numLayers := ← field "num_layers"
    vocab := ← field "vocab_size"
    hidden
    intermediate := ← field "intermediate_size"
    numHeads := ← field "num_heads"
    numKvHeads := ← field "num_kv_heads"
    headDim := ← architecture.configSchema.denotesHeadDim overrides checkpointMeta
    convDim := (field "conv_dim").getD hidden }

/-- Some layer of the schedule is a short convolution. -/
def Convolves (config : ResolvedModelConfig) : Architecture → Prop
  | .llama | .qwen3 => False
  | .lfm2 => ∃ entries, config.layerTypes = some entries ∧ ∃ entry ∈ entries, entry.asStr = some "conv"

end Architecture

/-! ## Resolved values -/

theorem getU32_ok_iff {config : ResolvedModelConfig} {key : String} {n : Nat} :
    config.getU32 key = .ok n ↔ ∃ m, (config.values.get key).bind Json.asU64 = some m ∧ asU32 m = n := by
  unfold ResolvedModelConfig.getU32
  cases (config.values.get key).bind Json.asU64 <;> simp

/-- The names of a registered schema are distinct, and none is an alias of `num_layers`. -/
theorem configSchema_names (architecture : Architecture) :
    (architecture.configSchema.fields.map (·.name)).Nodup ∧
      (architecture.configSchema.fields.find? (·.name == "n_layer")).isNone ∧
      (architecture.configSchema.fields.find? (·.name == "block_count")).isNone := by
  cases architecture <;> decide

/-- The configuration's value of a field, as the integer its metadata denote. -/
theorem denotes_of_getU32 {architecture : Architecture} {overrides checkpointMeta : MetadataMap}
    {config : ResolvedModelConfig} (h : architecture.configSchema.resolve overrides checkpointMeta [] = .ok config)
    {key : String} (hkey : key ≠ "head_dim") {n : Nat} (hn : config.getU32 key = .ok n) :
    ∃ m, architecture.configSchema.denotes overrides checkpointMeta key = some m ∧ asU32 m = n := by
  obtain ⟨m, hm, hmn⟩ := getU32_ok_iff.mp hn
  rw [(ConfigSchema.resolve_ok (configSchema_names architecture).1 h).1 key hkey] at hm
  exact ⟨m, hm, hmn⟩

theorem numLayers_eq_getU32 {architecture : Architecture} {overrides checkpointMeta : MetadataMap}
    {config : ResolvedModelConfig} (h : architecture.configSchema.resolve overrides checkpointMeta [] = .ok config)
    {n : Nat} (hn : config.numLayers = .ok n) : config.getU32 "num_layers" = .ok n := by
  obtain ⟨hnodup, hlayer, hblock⟩ := configSchema_names architecture
  have hget := (ConfigSchema.resolve_ok hnodup h).1
  have hnone : ∀ key, key ≠ "head_dim" → (architecture.configSchema.fields.find? (·.name == key)).isNone →
      ∀ m, config.getU32 key ≠ .ok m := by
    intro key hkey hfind m hm
    obtain ⟨v, hv, _⟩ := getU32_ok_iff.mp hm
    rw [hget key hkey, ConfigSchema.given, Option.isNone_iff_eq_none.mp hfind] at hv
    cases hv
  unfold ResolvedModelConfig.numLayers ResolvedModelConfig.orElse at hn
  cases hl : config.getU32 "num_layers" with
  | ok a => simp only [hl] at hn; exact hn
  | error e =>
    cases hn' : config.getU32 "n_layer" with
    | ok a => exact absurd hn' (hnone _ (by decide) hlayer a)
    | error e' =>
      simp only [hl, hn'] at hn
      exact absurd hn (hnone _ (by decide) hblock n)

/-- The lowering's `conv_dim`, with the width as its default. -/
theorem convDim_denotes {architecture : Architecture} {overrides checkpointMeta : MetadataMap}
    {config : ResolvedModelConfig} (h : architecture.configSchema.resolve overrides checkpointMeta [] = .ok config)
    (hidden : Nat) :
    readU32 config.values ["conv_dim"] (asU32 hidden) =
        asU32 ((architecture.configSchema.denotes overrides checkpointMeta "conv_dim").getD hidden) ∧
      (config.getU32 "conv_dim").toOption.getD (asU32 hidden) =
        asU32 ((architecture.configSchema.denotes overrides checkpointMeta "conv_dim").getD hidden) := by
  have hget := (ConfigSchema.resolve_ok (configSchema_names architecture).1 h).1 "conv_dim" (by decide)
  unfold readU32 ResolvedModelConfig.getU32 ConfigSchema.denotes
  rw [List.findSome?_cons, List.findSome?_nil, hget]
  cases (architecture.configSchema.given overrides checkpointMeta "conv_dim").bind Json.asU64 <;> exact ⟨rfl, rfl⟩

/-- The numbers of a configuration are those its metadata denote, each cut to a `u32`. -/
structure Dimensions.Cut (d : Dimensions) (numLayers vocab : Nat) (block : DecoderBlockSpec) : Prop where
  numLayers : asU32 d.numLayers = numLayers
  vocab : asU32 d.vocab = vocab
  hidden : asU32 d.hidden = block.hiddenSize
  intermediate : asU32 d.intermediate = block.intermediateSize
  numHeads : asU32 d.numHeads = block.numHeads
  numKvHeads : asU32 d.numKvHeads = block.numKvHeads
  headDim : asU32 d.headDim = block.headDim

theorem denotes_ok {architecture : Architecture} {overrides checkpointMeta : MetadataMap}
    {config : ResolvedModelConfig} (h : architecture.configSchema.resolve overrides checkpointMeta [] = .ok config)
    {numLayers vocab : Nat} {block : DecoderBlockSpec} (hreads : config.Reads numLayers vocab block) :
    ∃ d, architecture.denotes overrides checkpointMeta = some d ∧ d.Cut numLayers vocab block ∧
      readU32 config.values ["conv_dim"] block.hiddenSize = asU32 d.convDim ∧
      (config.getU32 "conv_dim").toOption.getD block.hiddenSize = asU32 d.convDim := by
  obtain ⟨layers, hlayers, hlayers'⟩ := denotes_of_getU32 h (by decide) (numLayers_eq_getU32 h hreads.numLayers)
  obtain ⟨vocab', hvocab, hvocab'⟩ := denotes_of_getU32 h (by decide) hreads.vocab
  obtain ⟨hidden, hhidden, hhidden'⟩ := denotes_of_getU32 h (by decide) hreads.hiddenSize
  obtain ⟨inter, hinter, hinter'⟩ := denotes_of_getU32 h (by decide) hreads.intermediateSize
  obtain ⟨heads, hheads, hheads'⟩ := denotes_of_getU32 h (by decide) hreads.numHeads
  obtain ⟨kvHeads, hkvHeads, hkvHeads'⟩ := denotes_of_getU32 h (by decide) hreads.numKvHeads
  obtain ⟨headDim, hheadDim, hheadDim'⟩ := getU32_ok_iff.mp hreads.headDim
  rw [(ConfigSchema.resolve_ok (configSchema_names architecture).1 h).2] at hheadDim
  refine ⟨⟨layers, vocab', hidden, inter, heads, kvHeads, headDim,
    (architecture.configSchema.denotes overrides checkpointMeta "conv_dim").getD hidden⟩, ?_,
    ⟨hlayers', hvocab', hhidden', hinter', hheads', hkvHeads', hheadDim'⟩, ?_⟩
  · simp only [Architecture.denotes, hlayers, hvocab, hhidden, hinter, hheads, hkvHeads, hheadDim]
    rfl
  · rw [← hhidden']
    exact convDim_denotes h hidden

/-! ## When they are exact -/

theorem asU32_eq_iff {n : Nat} : asU32 n = n ↔ n < 2 ^ 32 :=
  ⟨fun h => h ▸ Nat.mod_lt _ (by decide), Nat.mod_eq_of_lt⟩

theorem convolves_iff {architecture : Architecture} {config : ResolvedModelConfig} {numLayers : Nat}
    {schedule : List LayerKind} (h : architecture.Schedules config numLayers schedule) :
    architecture.Convolves config ↔ .shortConv ∈ schedule := by
  cases architecture with
  | llama | qwen3 =>
    rw [show schedule = List.replicate numLayers .attention from h, List.mem_replicate]
    exact ⟨False.elim, fun h => nomatch h.2⟩
  | lfm2 => exact mem_layerSchedule_iff h .shortConv

namespace Dimensions

variable {d : Dimensions} {block : DecoderBlockSpec} {shortConv : ShortConvBlockSpec}

/-- The sizes a signature shows are these integers. -/
def CarriesSig (d : Dimensions) (sig : OpSig) : Prop := d.Carries (sig.output.toList.map some) sig.kind

/-- The block's own sizes are these integers. -/
structure OfBlock (d : Dimensions) (block : DecoderBlockSpec) : Prop where
  hidden : block.hiddenSize = d.hidden
  intermediate : block.intermediateSize = d.intermediate
  numHeads : block.numHeads = d.numHeads
  numKvHeads : block.numKvHeads = d.numKvHeads
  headDim : block.headDim = d.headDim
  qDim : block.qDim = d.qDim
  kvDim : block.kvDim = d.kvDim

theorem carries_attentionSigs (h : d.OfBlock block) (layer : Nat) (hasQkNorm : Bool) :
    ∀ sig ∈ block.attentionSigs layer hasQkNorm, d.CarriesSig sig := by
  cases hasQkNorm <;> cases htheta : block.ropeTheta <;>
    simp [DecoderBlockSpec.attentionSigs, DecoderBlockSpec.qkNormSigs, DecoderBlockSpec.qkRopeSigs, htheta,
      CarriesSig, Carries, rmsNormSig, linearSig, residualSig, h.hidden, h.numHeads, h.numKvHeads, h.headDim,
      h.qDim, h.kvDim]

theorem carries_feedForwardSigs (h : d.OfBlock block) (layer : Nat) :
    ∀ sig ∈ block.feedForwardSigs layer, d.CarriesSig sig := by
  simp [DecoderBlockSpec.feedForwardSigs, CarriesSig, Carries, rmsNormSig, linearSig, residualSig, h.hidden,
    h.intermediate]

theorem carries_shortConvSigs (hhidden : shortConv.hiddenSize = d.hidden) (hchannels : shortConv.channels = d.convDim)
    (hwidth : d.convWidth < 2 ^ 32) (layer : Nat) :
    ∀ sig ∈ shortConv.shortConvSigs layer, d.CarriesSig sig := by
  have hmul : u32Mul 3 d.convDim = d.convWidth := Nat.mod_eq_of_lt hwidth
  simp [ShortConvBlockSpec.shortConvSigs, CarriesSig, Carries, rmsNormSig, linearSig, residualSig, hhidden, hchannels,
    hmul]

theorem carries_modelSigs {vocab : Nat} (hhidden : block.hiddenSize = d.hidden) (hvocab : vocab = d.vocab)
    {epsilon : Float} {layers : List OpSig} (hlayers : ∀ sig ∈ layers, d.CarriesSig sig) :
    ∀ sig ∈ modelSigs block.hiddenSize vocab epsilon layers, d.CarriesSig sig := by
  simp only [modelSigs, List.mem_cons, List.mem_append, List.not_mem_nil, or_false]
  rintro sig (rfl | rfl | hsig | rfl | rfl)
  · trivial
  · simp [CarriesSig, Carries, hhidden]
  · exact hlayers sig hsig
  · trivial
  · simp [CarriesSig, Carries, hvocab]

end Dimensions

/-- The gates' projection of a scheduled convolution. -/
theorem convWidth_mem (hidden vocab : Nat) (epsilon : Float) {schedule : List LayerKind} (hasQkNorm : Bool)
    (block : DecoderBlockSpec) (shortConv : ShortConvBlockSpec) (h : .shortConv ∈ schedule) :
    ∃ weight, linearSig (.other "shortconv.in") (u32Mul 3 shortConv.channels) weight ∈
      modelSigs hidden vocab epsilon (schedule.zipIdx.flatMap (layerSigs hasQkNorm block shortConv)) := by
  obtain ⟨layer, hlayer⟩ := List.mem_iff_getElem?.mp h
  obtain ⟨weight, hmem⟩ : ∃ weight, linearSig (.other "shortconv.in") (u32Mul 3 shortConv.channels) weight ∈
      layerSigs hasQkNorm block shortConv (.shortConv, layer) :=
    ⟨_, List.mem_append_left _ (List.mem_cons_of_mem _ List.mem_cons_self)⟩
  have hlayers := List.mem_flatMap.mpr ⟨(LayerKind.shortConv, layer), List.mem_zipIdx_iff_getElem?.mpr hlayer, hmem⟩
  exact ⟨weight, List.mem_cons_of_mem _ (List.mem_cons_of_mem _ (List.mem_append_left _ hlayers))⟩

/-- **When the dimensions are exact.** For every metadata and overrides from which an architecture
builds, the lowering and the graph carry the integers the metadata denote exactly when all of them and
their products are below `2^32`. -/
theorem dimensions_exact_iff {id : String} {architecture : Architecture} {overrides checkpointMeta : MetadataMap}
    {package : ArchitecturePackage} (harchitecture : ArchitectureRegistry.get id = some architecture)
    (h : ArchitectureRegistry.buildPackage id overrides checkpointMeta = .ok package) {bound : BoundModel}
    (hconfig : bound.resolvedConfig = package.resolvedConfig.values) (portableAttn : Bool) :
    ∃ d, architecture.denotes overrides checkpointMeta = some d ∧
      (d.Exact (DenseDecoderConfig.fromBoundModel portableAttn bound) package.graph ↔
        d.Fits (architecture.Convolves package.resolvedConfig)) := by
  obtain ⟨architecture', hrequire, h⟩ := Fallible.bind_ok h
  obtain rfl : architecture' = architecture :=
    Option.some.inj ((ArchitectureRegistry.get_of_require hrequire).symm.trans harchitecture)
  obtain ⟨config, hresolve, h⟩ := Fallible.bind_ok h
  obtain ⟨rfl, numLayers, vocab, block, schedule, shortConv, hreads, hschedule, hconv, hsigs⟩ :=
    buildWithConfig_sigs h
  obtain ⟨d, hd, hcut, hconvDim, hchannels⟩ := denotes_ok hresolve hreads
  refine ⟨d, hd, ?_⟩
  have hsized := DenseDecoderConfig.sized_fromBoundModel hreads hconfig portableAttn
  have hcConv : (DenseDecoderConfig.fromBoundModel portableAttn bound).convDim = asU32 d.convDim := by
    rw [← hconvDim, ← hsized.hidden, ← hconfig]; rfl
  rw [convolves_iff hschedule]
  obtain ⟨c, hc⟩ : ∃ c, c = DenseDecoderConfig.fromBoundModel portableAttn bound := ⟨_, rfl⟩
  rw [← hc] at hsized hcConv ⊢
  have hcut' : c.numLayers = asU32 d.numLayers ∧ c.vocab = asU32 d.vocab ∧ c.hidden = asU32 d.hidden ∧
      c.intermediate = asU32 d.intermediate ∧ c.numHeads = asU32 d.numHeads ∧ c.numKvHeads = asU32 d.numKvHeads ∧
      c.headDim = asU32 d.headDim :=
    ⟨hsized.numLayers.trans hcut.numLayers.symm, hsized.vocab.trans hcut.vocab.symm,
      hsized.hidden.trans hcut.hidden.symm, hsized.intermediate.trans hcut.intermediate.symm,
      hsized.numHeads.trans hcut.numHeads.symm, hsized.numKvHeads.trans hcut.numKvHeads.symm,
      hsized.headDim.trans hcut.headDim.symm⟩
  obtain ⟨hlayers, hvocab, hhidden, hinter, hheads, hkvHeads, hheadDim⟩ := hcut'
  have hchannels' : .shortConv ∈ schedule →
      shortConv.hiddenSize = block.hiddenSize ∧ shortConv.channels = asU32 d.convDim := by
    intro hmem
    cases architecture' with
    | lfm2 =>
      obtain ⟨hspec, hwidth⟩ := hconv rfl
      exact ⟨hwidth, by rw [← hspec.channels, hwidth, hchannels]⟩
    | llama | qwen3 => exact ((convolves_iff hschedule).mpr hmem).elim
  constructor
  · intro hexact
    have fits {n m : Nat} (h : m = asU32 n) (hm : m = n) : n < 2 ^ 32 := asU32_eq_iff.mp (h.symm.trans hm)
    have hq : c.qDim = asU32 d.qDim := by
      rw [DenseDecoderConfig.qDim, u32Mul, hexact.numHeads, hexact.headDim]; rfl
    have hkv : c.kvDim = asU32 d.kvDim := by
      rw [DenseDecoderConfig.kvDim, u32Mul, hexact.numKvHeads, hexact.headDim]; rfl
    refine ⟨fits hlayers hexact.numLayers, fits hvocab hexact.vocab, fits hhidden hexact.hidden,
      fits hinter hexact.intermediate, fits hheads hexact.numHeads, fits hkvHeads hexact.numKvHeads,
      fits hheadDim hexact.headDim, fits hcConv hexact.convDim, fits hq hexact.qDim, fits hkv hexact.kvDim, ?_⟩
    intro hmem
    obtain ⟨weight, hsig⟩ := convWidth_mem block.hiddenSize vocab block.rmsNormEpsilon architecture'.hasQkNorm block
      shortConv hmem
    obtain ⟨operation, hop, hshows⟩ := hsigs.op_of_mem hsig
    have hcarries := hexact.graph operation hop
    rw [hsigs.outputs_eq hshows, hshows.1] at hcarries
    have hwidth : u32Mul 3 shortConv.channels = d.convWidth := by
      simpa [Dimensions.Carries, linearSig, SemanticTensorType.activations] using hcarries
    rw [← hwidth]
    exact Nat.mod_lt _ (by decide)
  · intro hfits
    have hblock : d.OfBlock block := by
      refine ⟨?_, ?_, ?_, ?_, ?_, ?_, ?_⟩
      · rw [← hcut.hidden, asU32_eq_iff.mpr hfits.hidden]
      · rw [← hcut.intermediate, asU32_eq_iff.mpr hfits.intermediate]
      · rw [← hcut.numHeads, asU32_eq_iff.mpr hfits.numHeads]
      · rw [← hcut.numKvHeads, asU32_eq_iff.mpr hfits.numKvHeads]
      · rw [← hcut.headDim, asU32_eq_iff.mpr hfits.headDim]
      · rw [DecoderBlockSpec.qDim, u32Mul, ← hcut.numHeads, ← hcut.headDim, asU32_eq_iff.mpr hfits.numHeads,
          asU32_eq_iff.mpr hfits.headDim]
        exact asU32_eq_iff.mpr hfits.qDim
      · rw [DecoderBlockSpec.kvDim, u32Mul, ← hcut.numKvHeads, ← hcut.headDim, asU32_eq_iff.mpr hfits.numKvHeads,
          asU32_eq_iff.mpr hfits.headDim]
        exact asU32_eq_iff.mpr hfits.kvDim
    refine ⟨hlayers.trans (asU32_eq_iff.mpr hfits.numLayers), hvocab.trans (asU32_eq_iff.mpr hfits.vocab),
      hsized.hidden.trans hblock.hidden, hsized.intermediate.trans hblock.intermediate,
      hsized.numHeads.trans hblock.numHeads, hsized.numKvHeads.trans hblock.numKvHeads,
      hsized.headDim.trans hblock.headDim, hcConv.trans (asU32_eq_iff.mpr hfits.convDim), ?_, ?_, ?_⟩
    · rw [← hblock.qDim, DenseDecoderConfig.qDim, DecoderBlockSpec.qDim, hsized.numHeads, hsized.headDim]
    · rw [← hblock.kvDim, DenseDecoderConfig.kvDim, DecoderBlockSpec.kvDim, hsized.numKvHeads, hsized.headDim]
    · have hvocab' : vocab = d.vocab := by rw [← hcut.vocab, asU32_eq_iff.mpr hfits.vocab]
      refine hsigs.forall_operations (Dimensions.carries_modelSigs hblock.hidden hvocab' ?_)
      intro sig hsig
      obtain ⟨⟨kind, layer⟩, hentry, hsig⟩ := List.mem_flatMap.mp hsig
      obtain hsig | hsig := List.mem_append.mp hsig
      · cases kind with
        | attention => exact Dimensions.carries_attentionSigs hblock layer _ sig hsig
        | shortConv =>
          have hmem : .shortConv ∈ schedule := List.fst_mem_of_mem_zipIdx hentry
          obtain ⟨hwidth, hchan⟩ := hchannels' hmem
          exact Dimensions.carries_shortConvSigs (hwidth.trans hblock.hidden)
            (hchan.trans (asU32_eq_iff.mpr hfits.convDim)) (hfits.convWidth hmem) layer sig hsig
      · exact Dimensions.carries_feedForwardSigs hblock layer sig hsig

/-- Metadata of a Llama checkpoint of one layer and the given width. -/
def narrowMeta (hidden : Nat) : MetadataMap :=
  [("hidden_size", .ofNat hidden), ("head_dim", .ofNat 64), ("num_heads", .ofNat 4), ("num_kv_heads", .ofNat 4),
    ("num_layers", .ofNat 1), ("intermediate_size", .ofNat 512), ("vocab_size", .ofNat 32000)]

theorem dimensions_exact_iff_llama :
    ∃ package, ArchitectureRegistry.buildPackage "llama.decoder" [] (narrowMeta 256) = .ok package ∧
      ∃ d, Architecture.llama.denotes [] (narrowMeta 256) = some d ∧
        (d.Exact (DenseDecoderConfig.fromBoundModel false package.unbound) package.graph ↔
          d.Fits (Architecture.llama.Convolves package.resolvedConfig)) := by
  obtain ⟨package, hbuild, _⟩ := Fallible.exists_ok
    (x := ArchitectureRegistry.buildPackage "llama.decoder" [] (narrowMeta 256)) (p := fun _ => true) (by decide +kernel)
  exact ⟨package, hbuild, dimensions_exact_iff rfl hbuild rfl false⟩

/-- A width of `2^32 + 256` is accepted and carried as 256. -/
theorem width_truncated :
    ¬ ∀ (id : String) (architecture : Architecture) (overrides checkpointMeta : MetadataMap)
      (package : ArchitecturePackage) (bound : BoundModel) (portableAttn : Bool),
      ArchitectureRegistry.get id = some architecture →
      ArchitectureRegistry.buildPackage id overrides checkpointMeta = .ok package →
      bound.resolvedConfig = package.resolvedConfig.values →
      ∃ d, architecture.denotes overrides checkpointMeta = some d ∧
        d.Exact (DenseDecoderConfig.fromBoundModel portableAttn bound) package.graph := by
  intro hall
  obtain ⟨package, hbuild, hwidth⟩ := Fallible.exists_ok
    (x := ArchitectureRegistry.buildPackage "llama.decoder" [] (narrowMeta (2 ^ 32 + 256)))
    (p := fun package => (DenseDecoderConfig.fromBoundModel false package.unbound).hidden == 256) (by decide +kernel)
  obtain ⟨d, hd, hexact⟩ := hall "llama.decoder" .llama _ _ package package.unbound false rfl hbuild rfl
  have hdenotes : (Architecture.llama.denotes [] (narrowMeta (2 ^ 32 + 256))).map (·.hidden) =
      some (2 ^ 32 + 256) := by decide +kernel
  rw [hd, Option.map_some, Option.some_inj] at hdenotes
  rw [beq_iff_eq, hexact.hidden, hdenotes] at hwidth
  exact absurd hwidth (by decide)

end Dyninfer
