/-
The lowering's configuration against the graph it lowers. The numbers are read
from the same configuration the graph was built from, so they agree; RoPE is
decided anew, with exceptions and a default of its own, and the layer kinds
come from `layer_types` even for an architecture whose builder does not read
it.
-/
import Dyninfer.Architecture.ModelFacts
import Dyninfer.Compiler.DenseDecoderConfig

namespace Dyninfer

/-- The layer an operation stands for. -/
def OperationKind.layerKind : OperationKind → Option LayerKind
  | .attention .. => some .attention
  | .shortConv .. => some .shortConv
  | _ => none

/-- The operators of the graph's layers, in order. -/
def ArchitectureGraph.layerKinds (graph : ArchitectureGraph) : List LayerKind :=
  graph.operations.filterMap (·.kind.layerKind)

namespace DenseDecoderConfig

/-- The sizes an operation carries, in its attributes or in the type of its output, are the
configuration's. -/
def Carries (c : DenseDecoderConfig) (outputs : List (Option SemanticTensorType)) : OperationKind → Prop
  | .embedding | .residual | .linear .attentionO | .linear .ffnDown => outputs = [some (.activations c.hidden)]
  | .linear .attentionQ => outputs = [some (.activations c.qDim)]
  | .linear .attentionK | .linear .attentionV => outputs = [some (.activations c.kvDim)]
  | .linear .ffnGate | .linear .ffnUp => outputs = [some (.activations c.intermediate)]
  | .outputProjection => outputs = [some (.activations c.vocab)]
  | .attention numHeads numKvHeads headDim _ =>
    numHeads = c.numHeads ∧ numKvHeads = c.numKvHeads ∧ headDim = c.headDim
  | .rope _ headDim _ | .perHeadRmsNorm _ _ headDim => headDim = c.headDim
  | _ => True

/-- The lowering's configuration says what the graph says. -/
structure AgreesWith (c : DenseDecoderConfig) (graph : ArchitectureGraph) : Prop where
  rope : c.ropeTheta.isSome ↔ ∃ operation ∈ graph.operations, operation.kind.ropeTheta.isSome
  theta : ∀ operation ∈ graph.operations, ∀ theta, operation.kind.ropeTheta = some theta →
    c.ropeTheta = some theta.toFloat32
  qkNorm : c.hasQkNorm ↔ ∃ operation ∈ graph.operations, operation.kind.isPerHeadRmsNorm
  layers : (List.range c.numLayers).map c.layerKind = graph.layerKinds
  sizes : ∀ operation ∈ graph.operations, c.Carries (operation.outputs.map graph.valueType) operation.kind

end DenseDecoderConfig

/-! ## The condition -/

namespace ResolvedModelConfig

def ropeTheta (config : ResolvedModelConfig) : Option Float := (config.values.get "rope_theta").bind Json.asF64

def layerTypes (config : ResolvedModelConfig) : Option (List Json) :=
  (config.values.get "layer_types").bind Json.asArray

/-- The vocabulary, width and head count by which the lowering recognises its fixture. -/
def FixtureSized (config : ResolvedModelConfig) : Prop :=
  config.getU32 "vocab_size" = .ok 32 ∧ config.getU32 "hidden_size" = .ok 64 ∧ config.getU32 "num_heads" = .ok 4

end ResolvedModelConfig

/-- The last entry of `layer_types` for this layer, its index taken as a `u32`, is `conv`. -/
def NamesConv (entries : List Json) (layer : Nat) : Prop :=
  ∃ i entry, entries[i]? = some entry ∧ entry.asStr = some "conv" ∧ asU32 i = layer ∧
    ∀ j, i < j → j < entries.length → asU32 j ≠ layer

namespace Architecture

/-- Some layer of the schedule is an attention layer. -/
def Attends (config : ResolvedModelConfig) : Architecture → Prop
  | .llama | .qwen3 => config.numLayers ≠ .ok 0
  | .lfm2 => ∃ entries, config.layerTypes = some entries ∧ ∃ entry ∈ entries, entry.asStr = some "full_attention"

/-- Where the graph rotates, the dimensions are not the fixture's and theta is positive as an `f32`;
where it does not, they are the fixture's. -/
def RopeLowered (architecture : Architecture) (config : ResolvedModelConfig) : Prop :=
  (∃ theta, architecture.Attends config ∧ config.ropeTheta = some theta ∧
      ¬ config.FixtureSized ∧ ¬ theta.toFloat32 ≤ 0.0) ∨
    (¬ (architecture.Attends config ∧ config.ropeTheta.isSome) ∧ config.FixtureSized)

/-- The configuration of an architecture without a schedule of its own names no `conv` layer. -/
def ScheduleLowered (config : ResolvedModelConfig) : Architecture → Prop
  | .llama | .qwen3 => ∀ numLayers entries, config.numLayers = .ok numLayers → config.layerTypes = some entries →
    ∀ layer < numLayers, ¬ NamesConv entries layer
  | .lfm2 => True

end Architecture

/-! ## The numbers -/

theorem readU32_of_getU32 {config : ResolvedModelConfig} {key : String} {n : Nat}
    (h : config.getU32 key = .ok n) (keys : List String) (default : Nat) :
    readU32 config.values (key :: keys) default = n := by
  unfold ResolvedModelConfig.getU32 at h
  unfold readU32
  rw [List.findSome?_cons]
  split at h
  case h_1 m hm => rw [hm]; cases h; rfl
  case h_2 => cases h

theorem readU32_of_not {config : ResolvedModelConfig} {key : String} {e : DynInferError}
    (h : config.getU32 key = .error e) (keys : List String) (default : Nat) :
    readU32 config.values (key :: keys) default = readU32 config.values keys default := by
  unfold ResolvedModelConfig.getU32 at h
  unfold readU32
  rw [List.findSome?_cons]
  split at h
  case h_1 => cases h
  case h_2 hnone => rw [hnone]

theorem readU32_numLayers {config : ResolvedModelConfig} {n : Nat} (h : config.numLayers = .ok n) :
    readU32 config.values ["num_layers", "n_layer", "block_count", "llama.block_count"] 1 = n := by
  unfold ResolvedModelConfig.numLayers ResolvedModelConfig.orElse at h
  cases h₁ : config.getU32 "num_layers" with
  | ok a => simp only [h₁] at h; cases h; exact readU32_of_getU32 h₁ _ _
  | error e₁ =>
    rw [readU32_of_not h₁]
    cases h₂ : config.getU32 "n_layer" with
    | ok a => simp only [h₁, h₂] at h; cases h; exact readU32_of_getU32 h₂ _ _
    | error e₂ =>
      rw [readU32_of_not h₂]
      simp only [h₁, h₂] at h
      exact readU32_of_getU32 h _ _

/-! ## What the signatures show -/

/-- The values a function finds in the kinds of some operations. -/
def collect {α : Type} (f : OperationKind → Option α) (sigs : List OpSig) : List α :=
  sigs.filterMap fun sig => f sig.kind

section collect

variable {α : Type} {f : OperationKind → Option α} {hasQkNorm : Bool} {block : DecoderBlockSpec}
  {shortConv : ShortConvBlockSpec} {graph : ArchitectureGraph} {sigs : List OpSig}

theorem collect_operations (h : graph.HasSigs sigs) :
    graph.operations.filterMap (fun operation => f operation.kind) = collect f sigs := by
  have hk := congrArg (List.filterMap f) h.map_kind
  rwa [List.filterMap_map, List.filterMap_map] at hk

/-- Only the layers show what the ends of the model do not. -/
theorem collect_modelSigs {hidden vocab : Nat} {epsilon : Float} {layers : List OpSig} (hinput : f .input = none)
    (hembedding : f .embedding = none) (hnorm : f (.rmsNorm epsilon) = none)
    (hprojection : f .outputProjection = none) :
    collect f (modelSigs hidden vocab epsilon layers) = collect f layers := by
  simp [collect, modelSigs, rmsNormSig, hinput, hembedding, hnorm, hprojection]

theorem collect_flatMap {β : Type} (xs : List β) (g : β → List OpSig) :
    collect f (xs.flatMap g) = xs.flatMap fun x => collect f (g x) := List.filterMap_flatMap

theorem collect_layerKind (entry : LayerKind × Nat) :
    collect OperationKind.layerKind (layerSigs hasQkNorm block shortConv entry) = [entry.1] := by
  obtain ⟨kind, layer⟩ := entry
  cases kind with
  | attention =>
    cases hasQkNorm <;> cases htheta : block.ropeTheta <;>
      simp [collect, layerSigs, DecoderBlockSpec.attentionSigs, DecoderBlockSpec.feedForwardSigs,
        DecoderBlockSpec.qkNormSigs, DecoderBlockSpec.qkRopeSigs, htheta, rmsNormSig, linearSig, residualSig,
        OperationKind.layerKind]
  | shortConv =>
    simp [collect, layerSigs, ShortConvBlockSpec.shortConvSigs, DecoderBlockSpec.feedForwardSigs, rmsNormSig,
      linearSig, residualSig, OperationKind.layerKind]

/-- An attention layer with a theta shows it twice, for the queries and for the keys. -/
theorem collect_ropeTheta (entry : LayerKind × Nat) :
    collect OperationKind.ropeTheta (layerSigs hasQkNorm block shortConv entry) =
      if entry.1 = .attention then block.ropeTheta.toList ++ block.ropeTheta.toList else [] := by
  obtain ⟨kind, layer⟩ := entry
  cases kind with
  | attention =>
    cases hasQkNorm <;> cases htheta : block.ropeTheta <;>
      simp [collect, layerSigs, DecoderBlockSpec.attentionSigs, DecoderBlockSpec.feedForwardSigs,
        DecoderBlockSpec.qkNormSigs, DecoderBlockSpec.qkRopeSigs, htheta, rmsNormSig, linearSig, residualSig,
        OperationKind.ropeTheta]
  | shortConv =>
    simp [collect, layerSigs, ShortConvBlockSpec.shortConvSigs, DecoderBlockSpec.feedForwardSigs, rmsNormSig,
      linearSig, residualSig, OperationKind.ropeTheta]

end collect

section scan

variable {graph : ArchitectureGraph} {hidden vocab : Nat} {epsilon : Float} {schedule : List LayerKind}
  {hasQkNorm : Bool} {block : DecoderBlockSpec} {shortConv : ShortConvBlockSpec}

/-- The graph has the layers of the schedule. -/
theorem layerKinds_eq (h : graph.HasSigs (modelSigs hidden vocab epsilon
    (schedule.zipIdx.flatMap (layerSigs hasQkNorm block shortConv)))) : graph.layerKinds = schedule := by
  have hc := collect_operations (f := OperationKind.layerKind) h
  rw [collect_modelSigs rfl rfl rfl rfl, collect_flatMap] at hc
  simp only [collect_layerKind] at hc
  rw [show graph.layerKinds = _ from hc, ← List.map_eq_flatMap, List.zipIdx_map_fst]

/-- The Rope operations of the graph carry the configuration's theta, and there are some exactly when
there is an attention layer and a theta. -/
theorem mem_ropeTheta_iff (h : graph.HasSigs (modelSigs hidden vocab epsilon
    (schedule.zipIdx.flatMap (layerSigs hasQkNorm block shortConv)))) (theta : Float) :
    (∃ operation ∈ graph.operations, operation.kind.ropeTheta = some theta) ↔
      .attention ∈ schedule ∧ block.ropeTheta = some theta := by
  have hc := collect_operations (f := OperationKind.ropeTheta) h
  rw [collect_modelSigs rfl rfl rfl rfl, collect_flatMap] at hc
  rw [← List.mem_filterMap, hc]
  simp only [collect_ropeTheta, List.mem_flatMap]
  constructor
  · rintro ⟨⟨kind, layer⟩, hmem, htheta⟩
    split at htheta
    case isTrue hkind =>
      subst hkind
      exact ⟨List.fst_mem_of_mem_zipIdx hmem, by simpa using htheta⟩
    case isFalse => exact absurd htheta List.not_mem_nil
  · rintro ⟨hmem, htheta⟩
    obtain ⟨layer, hlayer⟩ := List.mem_iff_getElem?.mp hmem
    exact ⟨(_, layer), List.mem_zipIdx_iff_getElem?.mpr hlayer, by simp [htheta]⟩

/-- The theta a scan of the graph finds. -/
theorem findSome?_ropeTheta (h : graph.HasSigs (modelSigs hidden vocab epsilon
    (schedule.zipIdx.flatMap (layerSigs hasQkNorm block shortConv)))) (theta : Float) :
    graph.operations.findSome? (·.kind.ropeTheta) = some theta ↔
      .attention ∈ schedule ∧ block.ropeTheta = some theta := by
  rw [← mem_ropeTheta_iff h]
  constructor
  · exact fun hfind => List.exists_of_findSome?_eq_some hfind
  · rintro hex
    obtain ⟨hmem, htheta⟩ := (mem_ropeTheta_iff h theta).mp hex
    cases hfind : graph.operations.findSome? (·.kind.ropeTheta) with
    | none =>
      obtain ⟨operation, hop, hkind⟩ := hex
      rw [List.findSome?_eq_none_iff.mp hfind operation hop] at hkind
      cases hkind
    | some theta' =>
      have := (mem_ropeTheta_iff h theta').mp (List.exists_of_findSome?_eq_some hfind)
      rw [← this.2, htheta]

end scan

/-! ## Sizes -/

namespace DenseDecoderConfig

/-- The numbers of the lowering are those the builder read. -/
structure Sized (c : DenseDecoderConfig) (numLayers vocab : Nat) (block : DecoderBlockSpec) : Prop where
  numLayers : c.numLayers = numLayers
  vocab : c.vocab = vocab
  hidden : c.hidden = block.hiddenSize
  intermediate : c.intermediate = block.intermediateSize
  numHeads : c.numHeads = block.numHeads
  numKvHeads : c.numKvHeads = block.numKvHeads
  headDim : c.headDim = block.headDim

theorem sized_fromBoundModel {config : ResolvedModelConfig} {numLayers vocab : Nat} {block : DecoderBlockSpec}
    (h : config.Reads numLayers vocab block) {bound : BoundModel} (hconfig : bound.resolvedConfig = config.values)
    (portableAttn : Bool) : (fromBoundModel portableAttn bound).Sized numLayers vocab block := by
  constructor
  case numLayers => rw [← readU32_numLayers h.numLayers, ← hconfig]; rfl
  case vocab => rw [← readU32_of_getU32 h.vocab, ← hconfig]; rfl
  case hidden => rw [← readU32_of_getU32 h.hiddenSize, ← hconfig]; rfl
  case intermediate => rw [← readU32_of_getU32 h.intermediateSize, ← hconfig]; rfl
  case numHeads => rw [← readU32_of_getU32 h.numHeads, ← hconfig]; rfl
  case numKvHeads => rw [← readU32_of_getU32 h.numKvHeads, ← hconfig]; rfl
  case headDim => rw [← readU32_of_getU32 h.headDim, ← hconfig]; rfl

section carries

variable {c : DenseDecoderConfig} {numLayers vocab : Nat} {block : DecoderBlockSpec}

/-- The sizes a signature shows are the configuration's. -/
def CarriesSig (c : DenseDecoderConfig) (sig : OpSig) : Prop := c.Carries (sig.output.toList.map some) sig.kind

theorem carries_attentionSigs (h : c.Sized numLayers vocab block) (layer : Nat) (hasQkNorm : Bool) :
    ∀ sig ∈ block.attentionSigs layer hasQkNorm, c.CarriesSig sig := by
  have hq : c.qDim = block.qDim := by rw [qDim, DecoderBlockSpec.qDim, h.numHeads, h.headDim]
  have hkv : c.kvDim = block.kvDim := by rw [kvDim, DecoderBlockSpec.kvDim, h.numKvHeads, h.headDim]
  cases hasQkNorm <;> cases htheta : block.ropeTheta <;>
    simp [DecoderBlockSpec.attentionSigs, DecoderBlockSpec.qkNormSigs, DecoderBlockSpec.qkRopeSigs, htheta,
      CarriesSig, Carries, rmsNormSig, linearSig, residualSig, hq, hkv, h.hidden, h.numHeads, h.numKvHeads, h.headDim]

theorem carries_feedForwardSigs (h : c.Sized numLayers vocab block) (layer : Nat) :
    ∀ sig ∈ block.feedForwardSigs layer, c.CarriesSig sig := by
  simp [DecoderBlockSpec.feedForwardSigs, CarriesSig, Carries, rmsNormSig, linearSig, residualSig, h.hidden,
    h.intermediate]

theorem carries_shortConvSigs (h : c.Sized numLayers vocab block) {shortConv : ShortConvBlockSpec}
    (hwidth : shortConv.hiddenSize = block.hiddenSize) (layer : Nat) :
    ∀ sig ∈ shortConv.shortConvSigs layer, c.CarriesSig sig := by
  simp [ShortConvBlockSpec.shortConvSigs, CarriesSig, Carries, rmsNormSig, linearSig, residualSig, h.hidden, hwidth]

theorem carries_modelSigs (h : c.Sized numLayers vocab block) {epsilon : Float} {layers : List OpSig}
    (hlayers : ∀ sig ∈ layers, c.CarriesSig sig) :
    ∀ sig ∈ modelSigs block.hiddenSize vocab epsilon layers, c.CarriesSig sig := by
  simp only [modelSigs, List.mem_cons, List.mem_append, List.not_mem_nil, or_false]
  rintro sig (rfl | rfl | hsig | rfl | rfl)
  · trivial
  · simp [CarriesSig, Carries, h.hidden]
  · exact hlayers sig hsig
  · trivial
  · simp [CarriesSig, Carries, h.vocab]

end carries

end DenseDecoderConfig

/-! ## Layer kinds -/

theorem layerTypeKind_eq_shortConv_iff (entry : Json) :
    layerTypeKind entry = .shortConv ↔ entry.asStr = some "conv" := by
  unfold layerTypeKind
  split
  case h_1 h => simp [h]
  case h_2 h => simp [h]
  case h_3 _ h => exact ⟨fun h => (nomatch h), fun hc => absurd hc h⟩

/-- Where an indexed list is cut at an item, the item stands at its index and what follows has the
larger ones. -/
theorem zipIdx_cut {α : Type} {xs : List α} {before after : List (α × Nat)} {x : α} {i : Nat}
    (h : xs.zipIdx = before ++ (x, i) :: after) :
    xs[i]? = some x ∧ ∀ j y, i < j → xs[j]? = some y → (y, j) ∈ after := by
  have hget : ∀ j : Nat, (xs.zipIdx)[j]? = (xs[j]?).map fun y => (y, j) := fun j => by
    simp [List.getElem?_zipIdx]
  have hi : xs[before.length]? = some x ∧ before.length = i := by
    have hat := hget before.length
    rw [h, List.getElem?_append_right (Nat.le_refl _), Nat.sub_self, List.getElem?_cons_zero] at hat
    obtain ⟨y, hy, hxy⟩ := Option.map_eq_some_iff.mp hat.symm
    cases hxy
    exact ⟨hy, rfl⟩
  obtain ⟨hx, rfl⟩ := hi
  refine ⟨hx, fun j y hj hy => ?_⟩
  have hat := hget j
  rw [hy, h, List.getElem?_append_right (Nat.le_of_lt hj),
    show j - before.length = (j - before.length - 1) + 1 by omega, List.getElem?_cons_succ] at hat
  exact List.mem_of_getElem? hat

/-- The lowering takes a layer for a short convolution exactly when `layer_types` names it so. -/
theorem layerKind_eq_shortConv_iff {config : ResolvedModelConfig} {bound : BoundModel}
    (hconfig : bound.resolvedConfig = config.values) (portableAttn : Bool) (layer : Nat) :
    (DenseDecoderConfig.fromBoundModel portableAttn bound).layerKind layer = .shortConv ↔
      ∃ entries, config.layerTypes = some entries ∧ NamesConv entries layer := by
  change ((resolveLayerTypes bound.resolvedConfig).get layer).getD .attention = .shortConv ↔ _
  unfold resolveLayerTypes
  rw [hconfig]
  cases htypes : config.layerTypes with
  | none =>
    rw [show (config.values.get "layer_types").bind Json.asArray = none from htypes]
    simp [AssocMap.get]
  | some entries =>
    rw [show (config.values.get "layer_types").bind Json.asArray = some entries from htypes]
    simp only [Option.some.injEq, exists_eq_left']
    obtain ⟨hno, hget⟩ | ⟨before, ⟨entry, i⟩, after, hsplit, hkey, hafter, hget⟩ :=
      AssocMap.get_insertAll_cases [] (fun e : Json × Nat => asU32 e.2) (fun e => layerTypeKind e.1)
        entries.zipIdx layer
    · rw [hget]
      refine ⟨fun h => LayerKind.noConfusion h, ?_⟩
      rintro ⟨i, entry, hi, _, hlayer, _⟩
      exact absurd hlayer (hno (entry, i) (List.mem_zipIdx_iff_getElem?.mpr hi))
    · rw [hget, Option.getD_some, layerTypeKind_eq_shortConv_iff]
      obtain ⟨hi, hlater⟩ := zipIdx_cut hsplit
      constructor
      · intro hconv
        refine ⟨i, entry, hi, hconv, hkey, fun j hj hlt => ?_⟩
        exact hafter _ (hlater j entries[j] hj (List.getElem?_eq_getElem hlt))
      · rintro ⟨i', entry', hi', hconv, hlayer, hlast⟩
        obtain hlt | rfl | hgt := Nat.lt_trichotomy i i'
        · exact absurd hlayer (hafter _ (hlater i' entry' hlt hi'))
        · rw [hi] at hi'; cases hi'; exact hconv
        · exact absurd hkey (hlast i hgt (List.getElem?_eq_some_iff.mp hi).1)

/-! ## Schedules -/

/-- What `layer_types` calls a layer. -/
def LayerKind.token : LayerKind → String
  | .attention => "full_attention"
  | .shortConv => "conv"

theorem scheduleEntry_ok {entry : Json × Nat} {kind : LayerKind}
    (h : Lfm2Architecture.scheduleEntry entry = .ok kind) (kind' : LayerKind) :
    kind = kind' ↔ entry.1.asStr = some kind'.token := by
  unfold Lfm2Architecture.scheduleEntry at h
  split at h
  case h_1 hs => cases h; cases kind' <;> simp [hs, LayerKind.token]
  case h_2 hs => cases h; cases kind' <;> simp [hs, LayerKind.token]
  case h_3 => cases h

/-- The entry of `layer_types` behind a layer of an accepted schedule. -/
theorem layerSchedule_getElem {config : ResolvedModelConfig} {numLayers : Nat} {schedule : List LayerKind}
    (h : Lfm2Architecture.layerSchedule config numLayers = .ok schedule) :
    ∃ entries, config.layerTypes = some entries ∧ entries.length = numLayers ∧
      ∀ (i : Nat) (kind : LayerKind), schedule[i]? = some kind →
        ∃ entry : Json, entries[i]? = some entry ∧ ∀ kind', kind = kind' ↔ entry.asStr = some kind'.token := by
  obtain ⟨entries, htypes, hlen, hall⟩ := layerSchedule_ok h
  refine ⟨entries, htypes, hlen, fun i kind hkind => ?_⟩
  obtain ⟨hi, rfl⟩ := List.getElem?_eq_some_iff.mp hkind
  have hi' : i < entries.zipIdx.length := hall.length_eq ▸ hi
  have hlt : i < entries.length := by simpa using hi'
  refine ⟨entries[i], List.getElem?_eq_getElem hlt, fun kind' => ?_⟩
  simpa using scheduleEntry_ok (hall.get hi' hi) kind'

/-- A kind is in an accepted schedule exactly when `layer_types` has its token. -/
theorem mem_layerSchedule_iff {config : ResolvedModelConfig} {numLayers : Nat} {schedule : List LayerKind}
    (h : Lfm2Architecture.layerSchedule config numLayers = .ok schedule) (kind : LayerKind) :
    (∃ entries, config.layerTypes = some entries ∧ ∃ entry ∈ entries, entry.asStr = some kind.token) ↔
      kind ∈ schedule := by
  obtain ⟨entries, htypes, hlen, hentry⟩ := layerSchedule_getElem h
  have hlength := layerSchedule_length h
  constructor
  · rintro ⟨entries', htypes', entry, hmem, htoken⟩
    rw [htypes] at htypes'
    cases htypes'
    obtain ⟨i, hi, rfl⟩ := List.mem_iff_getElem.mp hmem
    have hi' : i < schedule.length := by omega
    obtain ⟨entry', hget, hkind⟩ := hentry i _ (List.getElem?_eq_getElem hi')
    rw [List.getElem?_eq_getElem hi] at hget
    cases hget
    rw [← (hkind kind).mpr htoken]
    exact List.getElem_mem hi'
  · intro hmem
    obtain ⟨i, hi, rfl⟩ := List.mem_iff_getElem.mp hmem
    obtain ⟨entry, hget, hkind⟩ := hentry i _ (List.getElem?_eq_getElem hi)
    exact ⟨entries, htypes, entry, List.mem_of_getElem? hget, (hkind _).mp rfl⟩

theorem LayerKind.eq_of_iff {a b : LayerKind} (h : a = .shortConv ↔ b = .shortConv) : a = b := by
  cases a <;> cases b <;> simp_all

theorem layers_iff {architecture : Architecture} {config : ResolvedModelConfig} {numLayers : Nat}
    {schedule : List LayerKind} (hlayers : config.numLayers = .ok numLayers)
    (h : architecture.Schedules config numLayers schedule) {bound : BoundModel}
    (hconfig : bound.resolvedConfig = config.values) (portableAttn : Bool) :
    (List.range numLayers).map (DenseDecoderConfig.fromBoundModel portableAttn bound).layerKind = schedule ↔
      architecture.ScheduleLowered config := by
  have hkind := layerKind_eq_shortConv_iff hconfig portableAttn
  cases architecture with
  | llama | qwen3 =>
    rw [show schedule = List.replicate numLayers .attention from h, List.eq_replicate_iff, List.length_map, List.length_range]
    simp only [true_and, List.mem_map, List.mem_range, forall_exists_index, and_imp, forall_apply_eq_imp_iff₂]
    constructor
    · intro hall n entries hn htypes layer hlt hconv
      rw [hlayers] at hn
      cases hn
      have := (hkind layer).mpr ⟨entries, htypes, hconv⟩
      rw [hall layer hlt] at this
      cases this
    · intro hno layer hlt
      refine LayerKind.eq_of_iff ((hkind layer).trans ?_)
      refine ⟨?_, fun h => (nomatch h)⟩
      rintro ⟨entries, htypes, hconv⟩
      exact absurd hconv (hno numLayers entries hlayers htypes layer hlt)
  | lfm2 =>
    refine iff_of_true ?_ trivial
    obtain ⟨entries, htypes, hlen, hentry⟩ := layerSchedule_getElem h
    have hlength := layerSchedule_length h
    refine List.ext_getElem (by simp [hlength]) fun layer hl hl' => ?_
    have hlt : layer < numLayers := by simpa using hl
    obtain ⟨entry, hget, hkinds⟩ := hentry layer _ (List.getElem?_eq_getElem hl')
    have hconv := hkinds .shortConv
    have hbound := numLayers_lt hlayers
    rw [List.getElem_map, List.getElem_range]
    refine LayerKind.eq_of_iff ((hkind layer).trans ?_)
    rw [hconv, htypes]
    simp only [Option.some.injEq, exists_eq_left']
    constructor
    · rintro ⟨i, entry', hi, hentry', hidx, _⟩
      have hilt : i < entries.length := (List.getElem?_eq_some_iff.mp hi).1
      have : i = layer := by rw [← hidx]; exact (Nat.mod_eq_of_lt (by omega)).symm
      subst this
      rw [hget] at hi; cases hi
      exact hentry'
    · intro hentry'
      refine ⟨layer, entry, hget, hentry', Nat.mod_eq_of_lt (by omega), fun j hj hjlt heq => ?_⟩
      have : asU32 j = j := Nat.mod_eq_of_lt (by omega)
      omega

theorem attends_iff {architecture : Architecture} {config : ResolvedModelConfig} {numLayers : Nat}
    {schedule : List LayerKind} (hlayers : config.numLayers = .ok numLayers)
    (h : architecture.Schedules config numLayers schedule) :
    architecture.Attends config ↔ .attention ∈ schedule := by
  cases architecture with
  | llama | qwen3 =>
    rw [show schedule = List.replicate numLayers .attention from h, List.mem_replicate]
    change config.numLayers ≠ .ok 0 ↔ _
    rw [hlayers]
    simp
  | lfm2 => exact mem_layerSchedule_iff h .attention

/-! ## The agreement -/

/-- The fixture test of the lowering, on the numbers the builder read. -/
theorem fixtureSized_iff {config : ResolvedModelConfig} {numLayers vocab : Nat} {block : DecoderBlockSpec}
    (h : config.Reads numLayers vocab block) :
    config.FixtureSized ↔ vocab = 32 ∧ block.hiddenSize = 64 ∧ block.numHeads = 4 := by
  unfold ResolvedModelConfig.FixtureSized
  rw [h.vocab, h.hiddenSize, h.numHeads]
  simp

theorem rope_iff {theta : Option Float} {lowered : Option Float32} {isSynthetic : Bool}
    (hlowered : lowered = loweredRopeTheta isSynthetic (theta.map Float.toFloat32)) :
    ((lowered.isSome ↔ theta.isSome) ∧ ∀ t, theta = some t → lowered = some t.toFloat32) ↔
      (∃ t, theta = some t ∧ isSynthetic = false ∧ ¬ t.toFloat32 ≤ 0.0) ∨
        (theta = none ∧ isSynthetic = true) := by
  subst hlowered
  cases theta with
  | none => cases isSynthetic <;> simp [loweredRopeTheta]
  | some t =>
    cases isSynthetic with
    | true => simp [loweredRopeTheta]
    | false => by_cases ht : t.toFloat32 ≤ 0.0 <;> simp [loweredRopeTheta, ht]

/-- **When the lowering's configuration agrees with the graph.** For every configuration a builder
accepts, and every bound model of its package, the two agree exactly when RoPE is lowered as the graph
has it and no layer of a plain decoder is named a convolution. -/
theorem lowering_agrees_iff {architecture : Architecture} {config : ResolvedModelConfig}
    {package : ArchitecturePackage} (h : ArchitectureRegistry.buildWithConfig architecture config = .ok package)
    {bound : BoundModel} (hgraph : bound.architecture = package.graph)
    (hconfig : bound.resolvedConfig = package.resolvedConfig.values) (portableAttn : Bool) :
    (DenseDecoderConfig.fromBoundModel portableAttn bound).AgreesWith package.graph ↔
      architecture.RopeLowered config ∧ architecture.ScheduleLowered config := by
  obtain ⟨hresolved, numLayers, vocab, block, schedule, shortConv, hreads, hschedule, hconv, hsigs⟩ :=
    buildWithConfig_sigs h
  rw [hresolved] at hconfig
  obtain ⟨c, hc⟩ : ∃ c, c = DenseDecoderConfig.fromBoundModel portableAttn bound := ⟨_, rfl⟩
  have hsized := DenseDecoderConfig.sized_fromBoundModel hreads hconfig portableAttn
  have hqk : c.hasQkNorm = package.graph.operations.any (·.kind.isPerHeadRmsNorm) := by
    rw [hc, ← hgraph]; rfl
  have hrope : c.ropeTheta = loweredRopeTheta (c.vocab == 32 && c.hidden == 64 && c.numHeads == 4)
      ((package.graph.operations.findSome? (·.kind.ropeTheta)).map Float.toFloat32) := by
    rw [hc, ← hgraph]; rfl
  have hlayers : (List.range c.numLayers).map c.layerKind = package.graph.layerKinds ↔
      architecture.ScheduleLowered config := by
    rw [layerKinds_eq hsigs, hc, hsized.numLayers]
    exact layers_iff hreads.numLayers hschedule hconfig portableAttn
  rw [← hc] at hsized ⊢
  have hfixture : (c.vocab == 32 && c.hidden == 64 && c.numHeads == 4) = true ↔ config.FixtureSized := by
    rw [fixtureSized_iff hreads, hsized.vocab, hsized.hidden, hsized.numHeads]
    simp [and_assoc]
  obtain ⟨theta, htheta⟩ : ∃ theta, theta = package.graph.operations.findSome? (·.kind.ropeTheta) := ⟨_, rfl⟩
  rw [← htheta] at hrope
  have hfind : ∀ t, theta = some t ↔ architecture.Attends config ∧ config.ropeTheta = some t := fun t => by
    rw [htheta, findSome?_ropeTheta hsigs, attends_iff hreads.numLayers hschedule]
    rw [show config.ropeTheta = block.ropeTheta from hreads.ropeTheta]
  have hops : ∀ t, (∃ operation ∈ package.graph.operations, operation.kind.ropeTheta = some t) ↔ theta = some t :=
    fun t => by rw [htheta, findSome?_ropeTheta hsigs, mem_ropeTheta_iff hsigs]
  have hlowered : ((c.ropeTheta.isSome ↔ theta.isSome) ∧ ∀ t, theta = some t → c.ropeTheta = some t.toFloat32) ↔
      architecture.RopeLowered config := by
    rw [rope_iff hrope]
    have hnone : theta = none ↔ ¬ (architecture.Attends config ∧ config.ropeTheta.isSome) := by
      rw [Option.eq_none_iff_forall_ne_some, Option.isSome_iff_exists, ← exists_and_left, not_exists]
      exact forall_congr' fun t => not_congr (hfind t)
    simp only [Architecture.RopeLowered, hnone, hfind, ← hfixture, Bool.not_eq_true, and_assoc]
  have hsome : theta.isSome ↔ ∃ operation ∈ package.graph.operations, operation.kind.ropeTheta.isSome := by
    simp only [Option.isSome_iff_exists, ← hops]
    exact ⟨fun ⟨t, operation, hop, ht⟩ => ⟨operation, hop, t, ht⟩,
      fun ⟨operation, hop, t, ht⟩ => ⟨t, operation, hop, ht⟩⟩
  rw [← hlowered, ← hlayers]
  constructor
  · intro hagree
    refine ⟨⟨hagree.rope.trans hsome.symm, fun t ht => ?_⟩, hagree.layers⟩
    obtain ⟨operation, hop, hkind⟩ := (hops t).mpr ht
    exact hagree.theta operation hop t hkind
  · rintro ⟨⟨hr, ht⟩, hl⟩
    refine ⟨hr.trans hsome, fun operation hop t hkind => ht t ((hops t).mp ⟨operation, hop, hkind⟩), ?_, hl, ?_⟩
    · rw [hqk, List.any_eq_true]
    · refine hsigs.forall_operations (DenseDecoderConfig.carries_modelSigs hsized ?_)
      intro sig hsig
      obtain ⟨⟨kind, layer⟩, hentry, hsig⟩ := List.mem_flatMap.mp hsig
      obtain hsig | hsig := List.mem_append.mp hsig
      · cases kind with
        | attention => exact DenseDecoderConfig.carries_attentionSigs hsized layer _ sig hsig
        | shortConv =>
          have hwidth : shortConv.hiddenSize = block.hiddenSize := by
            cases architecture with
            | lfm2 => exact (hconv rfl).2
            | llama | qwen3 =>
              have hmem := List.fst_mem_of_mem_zipIdx hentry
              rw [show schedule = List.replicate numLayers .attention from hschedule, List.mem_replicate] at hmem
              cases hmem.2
          exact DenseDecoderConfig.carries_shortConvSigs hsized hwidth layer sig hsig
      · exact DenseDecoderConfig.carries_feedForwardSigs hsized layer sig hsig

/-- A decoder of one layer, with a theta if one is given. -/
def oneLayerConfig (ropeTheta : Option Float) : ResolvedModelConfig where
  values := [("num_layers", .ofNat 1), ("num_heads", .ofNat 4), ("num_kv_heads", .ofNat 4), ("head_dim", .ofNat 64),
    ("hidden_size", .ofNat 256), ("intermediate_size", .ofNat 512), ("vocab_size", .ofNat 32000),
    ("rms_norm_eps", .number (.float 1e-5))] ++
    ropeTheta.toList.map fun theta => ("rope_theta", .number (.float theta))

/-- The bound model of a package whose parameters are not bound yet. -/
def ArchitecturePackage.unbound (package : ArchitecturePackage) : BoundModel where
  architecture := package.graph
  resolvedConfig := package.resolvedConfig.values
  binding := ⟨package.id, ⟨"", 0, 0⟩, [], []⟩
  executionShapes := [⟨.prefill, 1, 64, 128⟩, ⟨.decode, 1, 1, 128⟩]
  target := { driver := "local-task" }
  precisionPolicy := {}
  selectedKernels := []

theorem lowering_agrees_iff_qwen3 :
    ∃ package, ArchitectureRegistry.buildWithConfig .qwen3 (oneLayerConfig (some 10000.0)) = .ok package ∧
      ((DenseDecoderConfig.fromBoundModel false package.unbound).AgreesWith package.graph ↔
        Architecture.qwen3.RopeLowered (oneLayerConfig (some 10000.0)) ∧
          Architecture.qwen3.ScheduleLowered (oneLayerConfig (some 10000.0))) := by
  obtain ⟨package, hbuild, _⟩ := Fallible.exists_ok
    (x := ArchitectureRegistry.buildWithConfig .qwen3 (oneLayerConfig (some 10000.0))) (p := fun _ => true)
    (by decide +kernel)
  exact ⟨package, hbuild, lowering_agrees_iff hbuild rfl rfl false⟩

/-- A Llama configuration without `rope_theta`: the graph has no Rope operation, the lowering rotates
with 10000. -/
theorem lowering_invents_rope :
    ¬ ∀ (architecture : Architecture) (config : ResolvedModelConfig) (package : ArchitecturePackage)
      (bound : BoundModel) (portableAttn : Bool),
      ArchitectureRegistry.buildWithConfig architecture config = .ok package →
      bound.architecture = package.graph → bound.resolvedConfig = package.resolvedConfig.values →
      (DenseDecoderConfig.fromBoundModel portableAttn bound).AgreesWith package.graph := by
  intro hall
  obtain ⟨package, hbuild, hnone⟩ := Fallible.exists_ok
    (x := ArchitectureRegistry.buildWithConfig .llama (oneLayerConfig none))
    (p := fun package => package.graph.operations.all (·.kind.ropeTheta.isNone)) (by decide +kernel)
  have hagree := hall .llama _ package package.unbound false hbuild rfl rfl
  rw [List.all_eq_true] at hnone
  have hfind : package.graph.operations.findSome? (·.kind.ropeTheta) = none :=
    List.findSome?_eq_none_iff.mpr fun operation hop => Option.isNone_iff_eq_none.mp (hnone operation hop)
  have hvalues : package.resolvedConfig = oneLayerConfig none := (buildWithConfig_sigs hbuild).1
  have hlowered : (DenseDecoderConfig.fromBoundModel false package.unbound).ropeTheta.isSome = true := by
    change (loweredRopeTheta _ ((package.graph.operations.findSome? (·.kind.ropeTheta)).map _)).isSome = true
    rw [hfind]
    change (loweredRopeTheta (readU32 package.resolvedConfig.values _ _ == 32 &&
      readU32 package.resolvedConfig.values _ _ == 64 && readU32 package.resolvedConfig.values _ _ == 4) none).isSome = true
    rw [hvalues]
    rfl
  obtain ⟨operation, hop, hsome⟩ := hagree.rope.mp hlowered
  rw [Option.isNone_iff_eq_none.mp (hnone operation hop)] at hsome
  cases hsome

end Dyninfer
