/-
The id and the slots of a built graph. No helper changes the id a builder was
started with, so the graph of a package carries the id it was requested under;
and the slots a build declares are those of one table, each with its role.
-/
import Dyninfer.Architecture.Models
import Dyninfer.Lib.Effect
import Dyninfer.Lib.Fallible

namespace Dyninfer

open Effect ModelBuilder

/-! ## The slots of the architectures -/

/-- The slots of a model that belong to no block. -/
def modelSlots : List (String × ParameterRole) :=
  [("token_embd.weight", .embedding), ("output_norm.weight", .norm), ("output.weight", .output)]

/-- The slots of a block, each by what follows the layer in its name. -/
def blockSlots : List (String × ParameterRole) :=
  [(".attn_norm.weight", .norm), (".attn_q.weight", .attentionQ), (".attn_k.weight", .attentionK),
    (".attn_v.weight", .attentionV), (".attn_q_norm.weight", .norm), (".attn_k_norm.weight", .norm),
    (".attn_output.weight", .attentionO), (".shortconv.in_proj.weight", .other "shortconv.in"),
    (".shortconv.conv.weight", .other "shortconv.conv"), (".shortconv.out_proj.weight", .other "shortconv.out"),
    (".ffn_norm.weight", .norm), (".ffn_gate.weight", .ffnGate), (".ffn_up.weight", .ffnUp),
    (".ffn_down.weight", .ffnDown)]

/-- A name in the block of a layer. -/
def inBlock (layer : Nat) (suffix : String) : String := s!"blk.{layer}" ++ suffix

/-- The names and roles that a slot may have. -/
inductive Declared : String → ParameterRole → Prop
  | model : (name, role) ∈ modelSlots → Declared name role
  | block (layer : Nat) : (suffix, role) ∈ blockSlots → Declared (inBlock layer suffix) role

namespace ModelBuilder

/-- The builder was started with this id, and its slots are of the table. -/
structure Started (id : Option String) (b : ModelBuilder) : Prop where
  architectureId : b.architectureId = id
  slots : ∀ slot ∈ b.slots, Declared slot.canonicalName slot.role

/-- A helper that leaves the builder's id alone and declares slots of the table. -/
structure Declares {α : Type} (m : BuilderM α) : Prop where
  run : ∀ id, Triple (Started id) m (fun _ => Started id) fun _ => True

section rules

variable {α β : Type} {m : BuilderM α} {f : α → BuilderM β}

theorem Declares.pure (a : α) : Declares (Pure.pure a) := ⟨fun _ => Triple.pure fun _ hb => hb⟩

theorem Declares.throw (e : DynInferError) : Declares (throw e : BuilderM α) :=
  ⟨fun _ => Triple.throw fun _ _ => trivial⟩

theorem Declares.bind (hm : Declares m) (hf : ∀ a, Declares (f a)) : Declares (m >>= f) :=
  ⟨fun id => (hm.run id).bind fun a => (hf a).run id⟩

theorem Declares.modify {g : ModelBuilder → ModelBuilder}
    (h : ∀ b, (g b).architectureId = b.architectureId ∧
      ∀ slot ∈ (g b).slots, slot ∈ b.slots ∨ Declared slot.canonicalName slot.role) :
    Declares (modify g) :=
  ⟨fun _ => Triple.modify fun b hb =>
    ⟨(h b).1.trans hb.architectureId, fun slot hslot => ((h b).2 slot hslot).elim (hb.slots slot) fun h => h⟩⟩

theorem Declares.lift (x : Except DynInferError α) : Declares (ModelBuilder.lift x) := by
  cases x with
  | ok a => exact .pure a
  | error e => exact .throw e

theorem Declares.checked {c : ModelBuilder → Bool} {e : DynInferError} (hm : Declares m) :
    Declares (do if c (← get) then (MonadExcept.throw e : BuilderM PUnit)
                 m) :=
  ⟨fun id => Triple.checked ((hm.run id).conseq (fun _ hb => hb.2) (fun _ _ h => h) fun _ h => h) fun _ _ => trivial⟩

theorem Declares.foldlM {g : α → β → BuilderM α} (h : ∀ a x, Declares (g a x)) (xs : List β) (a : α) :
    Declares (xs.foldlM g a) := by
  induction xs generalizing a with
  | nil => exact .pure a
  | cons x xs ih => exact (h a x).bind fun a' => ih a'

end rules

/-! ## The helpers -/

theorem declares_pushSlot {name : String} {role : ParameterRole} (rank : Nat) (h : Declared name role) :
    Declares (pushSlot name role rank) := by
  refine .bind (.checked (.modify fun b => ⟨rfl, fun slot hslot => ?_⟩)) fun _ => .pure _
  rcases List.mem_append.mp hslot with hslot | hslot
  · exact .inl hslot
  · rw [List.mem_singleton.mp hslot]
    exact .inr h

theorem declares_value (id : String) (tensorType : SemanticTensorType) : Declares (value id tensorType) := by
  refine .checked (.bind ?_ fun _ => .pure _)
  exact .modify fun _ => ⟨rfl, fun _ => .inl⟩

theorem declares_operation (id : String) (kind : OperationKind) (inputs outputs : List Value)
    (parameters : List String) : Declares (operation id kind inputs outputs parameters) :=
  .checked (.modify fun _ => ⟨rfl, fun _ => .inl⟩)

/-- A new value and the operation that produces it. -/
theorem declares_produce (valueId id : String) (kind : OperationKind) (inputs : List Value)
    (tensorType : SemanticTensorType) (parameters : List String) :
    Declares (do let output ← value valueId tensorType
                 operation id kind inputs [output] parameters
                 return output) :=
  (declares_value _ _).bind fun _ => (declares_operation _ _ _ _ _).bind fun _ => .pure _

theorem declares_unary (id : String) (kind : OperationKind) (input : Value) (outputType : SemanticTensorType)
    (parameters : List String) : Declares (unary id kind input outputType parameters) := declares_produce ..

/-- A helper that declares one slot and reads it. -/
theorem declares_slotted {weight : String} {role : ParameterRole} (h : Declared weight role) (rank : Nat) (id : String)
    (kind : OperationKind) (input : Value) (outputType : SemanticTensorType) :
    Declares (do let slot ← pushSlot weight role rank
                 unary id kind input outputType [slot]) :=
  (declares_pushSlot rank h).bind fun _ => declares_unary ..

theorem declares_inputTokens (name : String) : Declares (inputTokens name) := by
  refine .checked ((declares_value _ _).bind fun tokens => (declares_operation ..).bind fun _ => .bind ?_ fun _ => .pure _)
  exact .modify fun _ => ⟨rfl, fun _ => .inl⟩

theorem declares_binary (id : String) (kind : OperationKind) (left right : Value) : Declares (binary id kind left right) := by
  unfold binary
  split
  · exact (Declares.throw _).bind fun _ => declares_produce ..
  · exact (Declares.pure _).bind fun _ => declares_produce ..

/-! ## Sublayers -/

/-- A slot of a block and the operation that reads it. -/
theorem declares_inBlock (layer : Nat) {suffix : String} {role : ParameterRole} (h : (suffix, role) ∈ blockSlots)
    (rank : Nat) (id : String) (kind : OperationKind) (input : Value) (outputType : SemanticTensorType) :
    Declares (do let slot ← pushSlot (s!"blk.{layer}" ++ suffix) role rank
                 unary id kind input outputType [slot]) := declares_slotted (.block layer h) ..

theorem declares_qkNorm (layer : Nat) (hasQkNorm : Bool) (query key : Value) (spec : DecoderBlockSpec) :
    Declares (qkNorm s!"blk.{layer}" hasQkNorm query key spec) := by
  cases hasQkNorm with
  | false => exact .pure _
  | true =>
    refine (declares_inBlock layer (by decide) ..).bind fun query => ?_
    refine (declares_inBlock layer (by decide) ..).bind fun key => ?_
    exact .pure _

theorem declares_qkRope (blk : String) (query key : Value) (spec : DecoderBlockSpec) :
    Declares (qkRope blk query key spec) := by
  unfold qkRope
  cases spec.ropeTheta with
  | none => exact .pure _
  | some theta => exact (declares_unary ..).bind fun _ => (declares_unary ..).bind fun _ => .pure _

theorem declares_attentionSublayer (input : Value) (layer : Nat) (hasQkNorm : Bool) (spec : DecoderBlockSpec) :
    Declares (attentionSublayer input layer hasQkNorm spec) := by
  refine (Declares.lift _).bind fun _ => ?_
  refine (declares_inBlock layer (by decide) ..).bind fun normalized => ?_
  refine (declares_inBlock layer (by decide) ..).bind fun query => ?_
  refine (declares_inBlock layer (by decide) ..).bind fun key => ?_
  refine (declares_inBlock layer (by decide) ..).bind fun val => ?_
  refine (declares_qkNorm ..).bind fun (query, key) => ?_
  refine (declares_qkRope ..).bind fun (query, key) => ?_
  refine (declares_operation ..).bind fun _ => ?_
  refine (declares_operation ..).bind fun _ => ?_
  refine (declares_unary ..).bind fun keyCache => ?_
  refine (declares_unary ..).bind fun valueCache => ?_
  refine (declares_produce ..).bind fun attended => ?_
  exact (declares_inBlock layer (by decide) ..).bind fun projected => declares_binary ..

theorem declares_shortConvSublayer (input : Value) (layer : Nat) (spec : ShortConvBlockSpec) :
    Declares (shortConvSublayer input layer spec) := by
  refine (Declares.lift _).bind fun _ => ?_
  refine (declares_inBlock layer (by decide) ..).bind fun normalized => ?_
  refine (declares_inBlock layer (by decide) ..).bind fun gates => ?_
  refine (declares_inBlock layer (by decide) ..).bind fun mixed => ?_
  exact (declares_inBlock layer (by decide) ..).bind fun projected => declares_binary ..

theorem declares_feedForwardSublayer (input : Value) (layer : Nat) (spec : DecoderBlockSpec) :
    Declares (feedForwardSublayer input layer spec) := by
  refine (declares_inBlock layer (by decide) ..).bind fun ffnInput => ?_
  refine (declares_inBlock layer (by decide) ..).bind fun gate => ?_
  refine (declares_inBlock layer (by decide) ..).bind fun up => ?_
  refine (declares_unary ..).bind fun activated => ?_
  refine (declares_binary ..).bind fun gated => ?_
  exact (declares_inBlock layer (by decide) ..).bind fun down => declares_binary ..

theorem declares_decoderBlock (input : Value) (layer : Nat) (hasQkNorm : Bool) (spec : DecoderBlockSpec) :
    Declares (decoderBlock input layer hasQkNorm spec) :=
  (declares_attentionSublayer ..).bind fun _ => declares_feedForwardSublayer ..

theorem declares_buildLayer (block : DecoderBlockSpec) (shortConv : ShortConvBlockSpec) (x : Value)
    (entry : LayerKind × Nat) : Declares (Lfm2Architecture.buildLayer block shortConv x entry) := by
  refine Declares.bind ?_ fun _ => declares_feedForwardSublayer ..
  cases entry.1 with
  | attention => exact declares_attentionSublayer ..
  | shortConv => exact declares_shortConvSublayer ..

theorem declares_exportPrefillAndDecode (logits : Value) : Declares (exportPrefillAndDecode logits) := by
  refine ⟨fun id b hb => ?_⟩
  unfold exportPrefillAndDecode
  simp only [EStateM.run_bind, EStateM.run_get]
  cases b.primaryInput with
  | none => trivial
  | some input => exact ⟨hb.architectureId, hb.slots⟩

/-! ## The models -/

/-- The model a helper ends in, which names its graph after the builder's id; its slots are of the table. -/
structure NamesGraph (m : BuilderM ModelModule) : Prop where
  run : ∀ id, Triple (Started (some id)) m (fun module _ => module.graph.architectureId = id ∧
    ∀ slot ∈ module.graph.parameterSlots, Declared slot.canonicalName slot.role) fun _ => True

theorem NamesGraph.andThen {α : Type} {m : BuilderM α} {f : α → BuilderM ModelModule} (hm : Declares m)
    (hf : ∀ a, NamesGraph (f a)) : NamesGraph (m >>= f) :=
  ⟨fun id => (hm.run (some id)).bind fun a => (hf a).run id⟩

theorem namesGraph_finish : NamesGraph finish := by
  refine ⟨fun id b hb => ?_⟩
  unfold finish
  simp only [EStateM.run_bind, EStateM.run_get, hb.architectureId, EStateM.run_set]
  cases verifyArchitectureConformance (ArchitectureGraph.mk 1 id b.values b.operations b.slots b.exports) with
  | error e => trivial
  | ok _ => exact ⟨rfl, hb.slots⟩

/-- From the tokens to the exports. -/
theorem namesGraph_decoder {hidden vocab : Nat} {epsilon : Float} {layers : Value → BuilderM Value}
    (hlayers : ∀ x, Declares (layers x)) :
    NamesGraph (do let tokens ← inputTokens "tokens"
                   let x ← embedding "token_embedding" tokens "token_embd.weight" hidden
                   let x ← layers x
                   let x ← finalRmsNorm "output_norm" x "output_norm.weight" epsilon
                   let logits ← outputProjection "output_projection" x "output.weight" vocab
                   exportPrefillAndDecode logits
                   finish) := by
  refine .andThen (declares_inputTokens _) fun tokens => ?_
  refine .andThen (declares_slotted (.model (by decide)) ..) fun x => ?_
  refine .andThen (hlayers x) fun x => ?_
  refine .andThen (declares_slotted (.model (by decide)) ..) fun x => ?_
  refine .andThen (declares_slotted (.model (by decide)) ..) fun logits => ?_
  exact .andThen (declares_exportPrefillAndDecode logits) fun _ => namesGraph_finish

theorem namesGraph_buildDecoder (hasQkNorm : Bool) (config : ResolvedModelConfig) :
    NamesGraph (buildDecoder hasQkNorm config) := by
  refine .andThen (.lift _) fun numLayers => ?_
  refine .andThen (.lift _) fun hidden => ?_
  refine .andThen (.lift _) fun vocab => ?_
  refine .andThen (.lift _) fun intermediate => ?_
  refine .andThen (.lift _) fun heads => ?_
  refine .andThen (.lift _) fun kvHeads => ?_
  refine .andThen (.lift _) fun headDim => ?_
  refine .andThen (.lift _) fun epsilon => ?_
  exact namesGraph_decoder fun x => .foldlM (fun x layer => declares_decoderBlock ..) _ x

theorem namesGraph_buildLfm2 (config : ResolvedModelConfig) : NamesGraph (Lfm2Architecture.build config) := by
  refine .andThen (.lift _) fun numLayers => ?_
  refine .andThen (.lift _) fun hidden => ?_
  refine .andThen (.lift _) fun vocab => ?_
  refine .andThen (.lift _) fun epsilon => ?_
  refine .andThen (.lift _) fun schedule => ?_
  refine .andThen (.lift _) fun intermediate => ?_
  refine .andThen (.lift _) fun heads => ?_
  refine .andThen (.lift _) fun kvHeads => ?_
  refine .andThen (.lift _) fun headDim => ?_
  refine .andThen (.lift _) fun kernelSize => ?_
  exact namesGraph_decoder fun x => .foldlM (fun x entry => declares_buildLayer ..) _ x

end ModelBuilder

/-! ## The packages -/

theorem Architecture.namesGraph (architecture : Architecture) (config : ResolvedModelConfig) :
    NamesGraph (architecture.build config) := by
  cases architecture with
  | llama => exact namesGraph_buildDecoder false config
  | qwen3 => exact namesGraph_buildDecoder true config
  | lfm2 => exact namesGraph_buildLfm2 config

theorem ArchitectureRegistry.require_ok {id : String} {architecture : Architecture}
    (h : ArchitectureRegistry.require id = .ok architecture) : architecture.id = id := by
  unfold ArchitectureRegistry.require at h
  split at h
  case h_1 found hfound =>
    cases h
    exact beq_iff_eq.mp (List.find?_some (p := fun a : Architecture => a.id == id) hfound)
  case h_2 => cases h

theorem buildWithConfig_names {architecture : Architecture} {config : ResolvedModelConfig} {package : ArchitecturePackage}
    (h : ArchitectureRegistry.buildWithConfig architecture config = .ok package) :
    package.graph.architectureId = architecture.id ∧
      ∀ slot ∈ package.graph.parameterSlots, Declared slot.canonicalName slot.role := by
  unfold ArchitectureRegistry.buildWithConfig at h
  split at h
  case h_1 module b hrun =>
    cases h
    exact ((architecture.namesGraph config).run architecture.id).ok ⟨rfl, fun _ h => absurd h List.not_mem_nil⟩ hrun
  case h_2 => cases h

/-- **The graph of a package carries the requested id.** -/
theorem buildPackage_architectureId {id : String} {overrides checkpointMeta : MetadataMap} {package : ArchitecturePackage}
    (h : ArchitectureRegistry.buildPackage id overrides checkpointMeta = .ok package) :
    package.graph.architectureId = id := by
  obtain ⟨architecture, hrequire, h⟩ := Fallible.bind_ok h
  obtain ⟨config, -, h⟩ := Fallible.bind_ok h
  rw [← ArchitectureRegistry.require_ok hrequire]
  exact (buildWithConfig_names h).1

end Dyninfer
