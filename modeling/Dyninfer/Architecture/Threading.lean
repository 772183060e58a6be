/-
How a builder threads its values and slots. A helper reads values that the
operations before it have produced, and each slot it declares is read by the
one operation it adds: so at every point of a build the operations are in
order, and their parameters are the slots declared so far, in turn.
-/
import Dyninfer.Architecture.Execution
import Dyninfer.Architecture.ModelFacts

namespace Dyninfer

open Effect ModelBuilder

namespace ModelBuilder

/-- The operations are in order and have produced `known`; each slot but those of `pending` has been read
once; nothing is exported yet. -/
structure Threaded (known pending : List String) (b : ModelBuilder) : Prop where
  ordered : Dataflow.Ordered (·.inputs) (·.outputs) b.operations
  produced : ∀ id ∈ known, id ∈ b.operations.flatMap (·.outputs)
  consumed : b.operations.flatMap (·.parameters) ++ pending = b.slots.map (·.id)
  exports : b.exports = []

/-- A helper that reads the values `uses` and returns having produced those of `gives`. -/
structure Threads {α : Type} (m : BuilderM α) (uses : List String) (gives : α → List String) : Prop where
  run : ∀ known, (∀ id ∈ uses, id ∈ known) →
    Triple (Threaded known []) m (fun a b => Threaded (known ++ gives a) [] b) fun _ => True

section rules

variable {α β : Type} {m : BuilderM α} {f : α → BuilderM β} {uses : List String} {gives : α → List String}
  {gives' : β → List String} {known : List String} {p : β → ModelBuilder → Prop}

theorem Threaded.mono {known' pending : List String} {b : ModelBuilder} (hb : Threaded known pending b)
    (h : ∀ id ∈ known', id ∈ known) : Threaded known' pending b :=
  ⟨hb.ordered, fun id hid => hb.produced id (h id hid), hb.consumed, hb.exports⟩

/-- Any values that are known may be read. -/
theorem Threads.use (hm : Threads m uses gives) (huses : ∀ id ∈ uses, id ∈ known) {Q : β → ModelBuilder → Prop}
    (hf : ∀ a, Triple (Threaded (known ++ gives a) []) (f a) Q fun _ => True) :
    Triple (Threaded known []) (m >>= f) Q fun _ => True :=
  (hm.run known huses).bind hf

/-- A helper in a program: what follows it may read what it has produced as well. -/
theorem Threads.bind (hm : Threads m uses gives) {all : List String} (huses : ∀ id ∈ uses, id ∈ all)
    (hf : ∀ a, Threads (f a) (all ++ gives a) gives') : Threads (m >>= f) all gives' := by
  refine ⟨fun known hall => hm.use (fun id hid => hall id (huses id hid)) fun a => ?_⟩
  refine ((hf a).run (known ++ gives a) ?_).conseq (fun _ hb => hb) (fun c b hb => hb.mono ?_) fun _ h => h
  · simp only [List.mem_append]
    exact fun id hid => hid.imp_left (hall id)
  · simp only [List.mem_append]
    exact fun id hid => hid.imp_left .inl

theorem Threads.pure {a : α} (h : ∀ id ∈ gives a, id ∈ uses) : Threads (Pure.pure a) uses gives := by
  refine ⟨fun known huses => Triple.pure fun b hb => hb.mono fun id hid => ?_⟩
  rcases List.mem_append.mp hid with hid | hid
  · exact hid
  · exact huses id (h id hid)

theorem Threads.widen (hm : Threads m uses gives) {all : List String} (huses : ∀ id ∈ uses, id ∈ all) :
    Threads m all gives :=
  ⟨fun known hall => hm.run known fun id hid => hall id (huses id hid)⟩

theorem Threads.lift (x : Except DynInferError α) : Threads (ModelBuilder.lift x) [] fun _ => [] := by
  cases x with
  | ok a => exact Threads.pure fun _ h => h
  | error e => exact ⟨fun _ _ => Triple.throw fun _ _ => trivial⟩

theorem Threads.throw (e : DynInferError) : Threads (throw e : BuilderM α) uses gives :=
  ⟨fun _ _ => Triple.throw fun _ _ => trivial⟩

/-- A loop that passes one value from step to step. -/
theorem Threads.foldlM {g : Value → α → BuilderM Value} (h : ∀ v x, Threads (g v x) [v.id] fun v' => [v'.id])
    (xs : List α) (v : Value) : Threads (xs.foldlM g v) [v.id] fun v' => [v'.id] := by
  induction xs generalizing v with
  | nil => exact Threads.pure fun _ h => h
  | cons x xs ih => exact (h v x).bind (fun _ h => h) fun v' => (ih v').widen (by simp)

end rules

/-! ## The helpers -/

section helpers

variable (known pending : List String)

theorem threaded_pushSlot (name : String) (role : ParameterRole) (rank : Nat) :
    Triple (Threaded known []) (pushSlot name role rank)
      (fun slot b => slot = name ∧ Threaded known [name] b) fun _ => True := by
  have hdeclare : Triple (Threaded known []) (declareParameter {
      id := name, canonicalName := name, role
      expectedType := { rank := some rank, shape := none, elementTypes := [.bf16, .f16, .f32] }
      optional := false, tiedGroup := none }) (fun _ => Threaded known [name]) fun _ => True := by
    refine Triple.checked (Triple.modify fun b hb => ?_) fun _ _ => trivial
    have hconsumed := hb.2.consumed
    refine ⟨hb.2.ordered, hb.2.produced, ?_, hb.2.exports⟩
    simp only [List.append_nil] at hconsumed
    simp [hconsumed]
  exact hdeclare.bind fun _ => Triple.pure fun b hb => ⟨rfl, hb⟩

theorem threaded_value (id : String) (tensorType : SemanticTensorType) :
    Triple (Threaded known pending) (value id tensorType)
      (fun v b => v = ⟨id, tensorType⟩ ∧ Threaded known pending b) fun _ => True := by
  refine Triple.checked ?_ fun _ _ => trivial
  refine Triple.bind (Q := fun _ => Threaded known pending) (Triple.modify fun b hb => ?_) fun _ =>
    Triple.pure fun b hb => ⟨rfl, hb⟩
  exact ⟨hb.2.ordered, hb.2.produced, hb.2.consumed, hb.2.exports⟩

theorem threaded_operation (id : String) (kind : OperationKind) {inputs : List Value} (outputs : List Value)
    (hinputs : ∀ v ∈ inputs, v.id ∈ known) :
    Triple (Threaded known pending) (operation id kind inputs outputs pending)
      (fun _ b => Threaded (known ++ outputs.map (·.id)) [] b ∧ ∃ operation ∈ b.operations,
        operation.kind = kind ∧ operation.outputs = outputs.map (·.id)) fun _ => True := by
  refine Triple.checked (Triple.modify fun b hb => ?_) fun _ _ => trivial
  refine ⟨⟨?_, ?_, ?_, hb.2.exports⟩, _, List.mem_append_right _ (List.mem_singleton_self _), rfl, rfl⟩
  · refine hb.2.ordered.concat fun i hi => ?_
    obtain ⟨v, hv, rfl⟩ := List.mem_map.mp hi
    exact hb.2.produced v.id (hinputs v hv)
  · intro i hi
    simp only [List.flatMap_append, List.flatMap_cons, List.flatMap_nil, List.append_nil]
    rcases List.mem_append.mp hi with hi | hi
    · exact List.mem_append_left _ (hb.2.produced i hi)
    · exact List.mem_append_right _ hi
  · simpa using hb.2.consumed

/-- A new value and the operation that produces it, which reads the pending slots. -/
theorem threaded_produce (valueId id : String) (kind : OperationKind) {inputs : List Value}
    (tensorType : SemanticTensorType) (hinputs : ∀ v ∈ inputs, v.id ∈ known) :
    Triple (Threaded known pending) (do let output ← value valueId tensorType
                                        operation id kind inputs [output] pending
                                        return output)
      (fun output b => Threaded (known ++ [output.id]) [] b ∧ ∃ operation ∈ b.operations,
        operation.kind = kind ∧ operation.outputs = [output.id]) fun _ => True := by
  refine (threaded_value known pending valueId tensorType).bind fun v => Triple.assume fun hv => ?_
  exact (threaded_operation known pending id kind [v] hinputs).bind fun _ => Triple.pure fun b hb => hb

theorem threaded_slotted {input : Value} (weight : String) (role : ParameterRole) (rank : Nat) (id : String)
    (kind : OperationKind) (outputType : SemanticTensorType) (hinput : input.id ∈ known) :
    Triple (Threaded known []) (do let slot ← pushSlot weight role rank
                                   unary id kind input outputType [slot])
      (fun output b => Threaded (known ++ [output.id]) [] b ∧ ∃ operation ∈ b.operations,
        operation.kind = kind ∧ operation.outputs = [output.id]) fun _ => True := by
  refine (threaded_pushSlot known weight role rank).bind fun slot => Triple.assume ?_
  rintro rfl
  exact threaded_produce _ _ _ _ _ _ (by simpa using hinput)

end helpers

theorem threads_produce (valueId id : String) (kind : OperationKind) (inputs : List Value)
    (tensorType : SemanticTensorType) :
    Threads (do let output ← value valueId tensorType
                operation id kind inputs [output] []
                return output) (inputs.map (·.id)) fun output => [output.id] :=
  ⟨fun _ huses => (threaded_produce _ [] valueId id kind tensorType fun _ hv => huses _ (List.mem_map_of_mem hv)).conseq
    (fun _ hb => hb) (fun _ _ hb => hb.1) fun _ h => h⟩

theorem threads_unary (id : String) (kind : OperationKind) (input : Value) (outputType : SemanticTensorType) :
    Threads (unary id kind input outputType []) [input.id] fun output => [output.id] :=
  threads_produce _ _ _ [input] _

theorem threads_slotted (weight : String) (role : ParameterRole) (rank : Nat) (id : String) (kind : OperationKind)
    (input : Value) (outputType : SemanticTensorType) :
    Threads (do let slot ← pushSlot weight role rank
                unary id kind input outputType [slot]) [input.id] fun output => [output.id] :=
  ⟨fun _ huses => (threaded_slotted _ weight role rank id kind outputType (huses _ (List.mem_singleton_self _))).conseq
    (fun _ hb => hb) (fun _ _ hb => hb.1) fun _ h => h⟩

theorem threads_cacheWrite (id : String) (input : Value) (layer : Nat) (component : KvCacheComponent) :
    Threads (cacheWrite id input layer component) [input.id] fun _ => [] := by
  refine ⟨fun known huses => ?_⟩
  have hinputs : ∀ v ∈ [input], v.id ∈ known := by simpa using huses
  have hop := threaded_operation known [] id (.kvCacheWrite layer component) [] hinputs
  exact hop.conseq (fun _ hb => hb) (fun _ _ hb => hb.1) fun _ h => h

theorem threads_binary (id : String) (kind : OperationKind) (left right : Value) :
    Threads (binary id kind left right) [left.id, right.id] fun output => [output.id] := by
  unfold binary
  by_cases heq : left.tensorType = right.tensorType
  · rw [if_neg (not_not.mpr heq)]
    exact threads_produce _ _ _ [left, right] _
  · rw [if_pos heq]
    exact Threads.throw _

theorem threads_inputTokens (name : String) : Threads (inputTokens name) [] fun tokens => [tokens.id] := by
  refine ⟨fun known _ => Triple.checked ?_ fun _ _ => trivial⟩
  refine ((threaded_value known [] name .tokens).conseq (fun _ hb => hb.2) (fun _ _ h => h) fun _ h => h).bind fun tokens =>
    Triple.assume fun _ => ?_
  refine (threaded_operation known [] s!"input.{name}" .input [tokens] fun _ hv => absurd hv List.not_mem_nil).bind fun _ => ?_
  refine Triple.bind (Q := fun _ => Threaded (known ++ [tokens.id]) []) (Triple.modify fun b hb => ?_) fun _ =>
    Triple.pure fun _ hb => hb
  exact ⟨hb.1.ordered, hb.1.produced, hb.1.consumed, hb.1.exports⟩

/-! ## Sublayers -/

theorem threads_qkNorm (blk : String) (hasQkNorm : Bool) (query key : Value) (spec : DecoderBlockSpec) :
    Threads (qkNorm blk hasQkNorm query key spec) [query.id, key.id] fun p => [p.1.id, p.2.id] := by
  cases hasQkNorm with
  | false => exact Threads.pure fun _ h => h
  | true =>
    refine (threads_slotted ..).bind (by simp) fun query => ?_
    refine (threads_slotted ..).bind (by simp) fun key => ?_
    exact Threads.pure (by simp)

theorem threads_qkRope (blk : String) (query key : Value) (spec : DecoderBlockSpec) :
    Threads (qkRope blk query key spec) [query.id, key.id] fun p => [p.1.id, p.2.id] := by
  unfold qkRope
  cases spec.ropeTheta with
  | none => exact Threads.pure fun _ h => h
  | some theta =>
    refine (threads_unary ..).bind (by simp) fun query => ?_
    refine (threads_unary ..).bind (by simp) fun key => ?_
    exact Threads.pure (by simp)

/-- **The attention sublayer.** Each of its operations reads what the input and the ones before it gave. -/
theorem threads_attentionSublayer (input : Value) (layer : Nat) (hasQkNorm : Bool) (spec : DecoderBlockSpec) :
    Threads (attentionSublayer input layer hasQkNorm spec) [input.id] fun output => [output.id] := by
  refine (Threads.lift _).bind (by simp) fun _ => ?_
  refine (threads_slotted ..).bind (by simp) fun normalized => ?_
  refine (threads_slotted ..).bind (by simp) fun query => ?_
  refine (threads_slotted ..).bind (by simp) fun key => ?_
  refine (threads_slotted ..).bind (by simp) fun val => ?_
  refine (threads_qkNorm ..).bind (by simp) fun (query, key) => ?_
  refine (threads_qkRope ..).bind (by simp) fun (query, key) => ?_
  refine (threads_cacheWrite ..).bind (by simp) fun _ => ?_
  refine (threads_cacheWrite ..).bind (by simp) fun _ => ?_
  refine (threads_unary ..).bind (by simp) fun keyCache => ?_
  refine (threads_unary ..).bind (by simp) fun valueCache => ?_
  refine (threads_produce _ _ _ [query, keyCache, valueCache] _).bind (by simp) fun attended => ?_
  refine (threads_slotted ..).bind (by simp) fun projected => ?_
  exact (threads_binary _ _ input projected).widen (by simp)

theorem threads_shortConvSublayer (input : Value) (layer : Nat) (spec : ShortConvBlockSpec) :
    Threads (shortConvSublayer input layer spec) [input.id] fun output => [output.id] := by
  refine (Threads.lift _).bind (by simp) fun _ => ?_
  refine (threads_slotted ..).bind (by simp) fun normalized => ?_
  refine (threads_slotted ..).bind (by simp) fun gates => ?_
  refine (threads_slotted ..).bind (by simp) fun mixed => ?_
  refine (threads_slotted ..).bind (by simp) fun projected => ?_
  exact (threads_binary _ _ input projected).widen (by simp)

theorem threads_feedForwardSublayer (input : Value) (layer : Nat) (spec : DecoderBlockSpec) :
    Threads (feedForwardSublayer input layer spec) [input.id] fun output => [output.id] := by
  refine (threads_slotted ..).bind (by simp) fun ffnInput => ?_
  refine (threads_slotted ..).bind (by simp) fun gate => ?_
  refine (threads_slotted ..).bind (by simp) fun up => ?_
  refine (threads_unary ..).bind (by simp) fun activated => ?_
  refine (threads_binary _ _ activated up).bind (by simp) fun gated => ?_
  refine (threads_slotted ..).bind (by simp) fun down => ?_
  exact (threads_binary _ _ input down).widen (by simp)

theorem threads_decoderBlock (input : Value) (layer : Nat) (hasQkNorm : Bool) (spec : DecoderBlockSpec) :
    Threads (decoderBlock input layer hasQkNorm spec) [input.id] fun output => [output.id] :=
  (threads_attentionSublayer ..).bind (by simp) fun _ => (threads_feedForwardSublayer ..).widen (by simp)

theorem threads_buildLayer (block : DecoderBlockSpec) (shortConv : ShortConvBlockSpec) (x : Value)
    (entry : LayerKind × Nat) :
    Threads (Lfm2Architecture.buildLayer block shortConv x entry) [x.id] fun output => [output.id] := by
  have hop : Threads (Lfm2Architecture.operatorSublayer block shortConv x (asU32 entry.2) entry.1) [x.id]
      fun output => [output.id] := by
    cases entry.1 with
    | attention => exact threads_attentionSublayer ..
    | shortConv => exact threads_shortConvSublayer ..
  exact hop.bind (fun _ h => h) fun _ => (threads_feedForwardSublayer ..).widen (by simp)

/-! ## The models -/

/-- The dataflow of a finished graph: the operations are in order, their parameters are the slots in turn,
and both exports give the output of an output projection. -/
structure Threading (graph : ArchitectureGraph) : Prop where
  ordered : graph.InOrder
  consumed : graph.operations.flatMap (·.parameters) = graph.parameterSlots.map (·.id)
  exports : ∃ operation ∈ graph.operations, operation.kind = .outputProjection ∧
    ∃ logits, operation.outputs = [logits] ∧ graph.exports.map (fun e => (e.name, e.mode, e.outputs)) =
      [("prefill", .prefill, [logits]), ("decode", .decode, [logits])]

/-- The exports and the end of the build. -/
theorem threading_finish {known : List String} (logits : Value) :
    Triple (fun b => Threaded known [] b ∧ ∃ operation ∈ b.operations,
        operation.kind = .outputProjection ∧ operation.outputs = [logits.id])
      (do exportPrefillAndDecode logits; finish) (fun module _ => Threading module.graph) fun _ => True := by
  rintro b ⟨hb, hlogits⟩
  unfold exportPrefillAndDecode finish
  simp only [EStateM.run_bind, EStateM.run_get]
  cases b.primaryInput with
  | none => trivial
  | some tokens =>
    simp only [EStateM.run_modify]
    cases hid : b.architectureId with
    | none => trivial
    | some architectureId =>
      simp only [EStateM.run_bind, EStateM.run_get, EStateM.run_set]
      obtain ⟨operation, hop, hkind, hout⟩ := hlogits
      have hconsumed := hb.consumed
      rw [List.append_nil] at hconsumed
      generalize verifyArchitectureConformance _ = checked
      cases checked with
      | error e => trivial
      | ok _ => exact ⟨hb.ordered, hconsumed, operation, hop, hkind, logits.id, hout, by simp [hb.exports]⟩

/-- From the tokens to the exports, around layers that pass one value on. -/
theorem threading_decoder {hidden vocab : Nat} {epsilon : Float} {layers : Value → BuilderM Value}
    (hlayers : ∀ x, Threads (layers x) [x.id] fun output => [output.id]) :
    Triple (Threaded [] [])
      (do let tokens ← inputTokens "tokens"
          let x ← embedding "token_embedding" tokens "token_embd.weight" hidden
          let x ← layers x
          let x ← finalRmsNorm "output_norm" x "output_norm.weight" epsilon
          let logits ← outputProjection "output_projection" x "output.weight" vocab
          exportPrefillAndDecode logits
          finish) (fun module _ => Threading module.graph) fun _ => True := by
  refine (threads_inputTokens _).use (by simp) fun tokens => ?_
  refine (threads_slotted ..).use (by simp) fun x => ?_
  refine (hlayers x).use (by simp) fun x => ?_
  refine (threads_slotted ..).use (by simp) fun x => ?_
  exact (threaded_slotted _ _ _ _ _ _ _ (by simp)).bind fun logits => threading_finish logits

theorem threaded_start (architectureId : String) : Threaded [] [] { architectureId := some architectureId } :=
  ⟨Dataflow.ordered_nil, fun _ h => absurd h List.not_mem_nil, rfl, rfl⟩

theorem threading_buildDecoder {hasQkNorm : Bool} {config : ResolvedModelConfig} {b b' : ModelBuilder}
    {module : ModelModule} (hb : Threaded [] [] b) (h : (buildDecoder hasQkNorm config).run b = .ok module b') :
    Threading module.graph := by
  obtain ⟨numLayers, -, h⟩ := run_lift_bind_ok h
  obtain ⟨hidden, -, h⟩ := run_lift_bind_ok h
  obtain ⟨vocab, -, h⟩ := run_lift_bind_ok h
  obtain ⟨intermediate, -, h⟩ := run_lift_bind_ok h
  obtain ⟨heads, -, h⟩ := run_lift_bind_ok h
  obtain ⟨kvHeads, -, h⟩ := run_lift_bind_ok h
  obtain ⟨headDim, -, h⟩ := run_lift_bind_ok h
  obtain ⟨epsilon, -, h⟩ := run_lift_bind_ok h
  exact (threading_decoder fun x => Threads.foldlM (fun x layer => threads_decoderBlock ..) _ x).ok hb h

theorem threading_buildLfm2 {config : ResolvedModelConfig} {b b' : ModelBuilder} {module : ModelModule}
    (hb : Threaded [] [] b) (h : (Lfm2Architecture.build config).run b = .ok module b') :
    Threading module.graph := by
  obtain ⟨numLayers, -, h⟩ := run_lift_bind_ok h
  obtain ⟨hidden, -, h⟩ := run_lift_bind_ok h
  obtain ⟨vocab, -, h⟩ := run_lift_bind_ok h
  obtain ⟨epsilon, -, h⟩ := run_lift_bind_ok h
  obtain ⟨schedule, -, h⟩ := run_lift_bind_ok h
  obtain ⟨intermediate, -, h⟩ := run_lift_bind_ok h
  obtain ⟨heads, -, h⟩ := run_lift_bind_ok h
  obtain ⟨kvHeads, -, h⟩ := run_lift_bind_ok h
  obtain ⟨headDim, -, h⟩ := run_lift_bind_ok h
  obtain ⟨kernelSize, -, h⟩ := run_lift_bind_ok h
  exact (threading_decoder fun x => Threads.foldlM (fun x entry => threads_buildLayer ..) _ x).ok hb h

theorem buildWithConfig_threading {architecture : Architecture} {config : ResolvedModelConfig}
    {package : ArchitecturePackage} (h : ArchitectureRegistry.buildWithConfig architecture config = .ok package) :
    Threading package.graph := by
  unfold ArchitectureRegistry.buildWithConfig at h
  split at h
  case h_2 => cases h
  case h_1 module b' hrun =>
    cases h
    cases architecture with
    | llama | qwen3 => exact threading_buildDecoder (threaded_start _) hrun
    | lfm2 => exact threading_buildLfm2 (threaded_start _) hrun

end ModelBuilder

end Dyninfer
