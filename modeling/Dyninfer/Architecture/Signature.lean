/-
What a builder run leaves in the graph. The signature of an operation is its
kind, the type of its output and the slots it reads; `Emits` says that a
helper appends operations of a fixed list of signatures, whatever was built
before. The rules for sequencing give each sublayer its signature line by
line.
-/
import Dyninfer.Architecture.Models
import Dyninfer.Lib.Effect
import Mathlib.Data.List.Forall2

namespace Dyninfer

open Effect ModelBuilder

structure OpSig where
  kind : OperationKind
  output : Option SemanticTensorType
  parameters : List String

/-- An operation whose one output, if it has any, is a value of the signature's type. -/
def ArchitectureOperation.Shows (values : List GraphValue) (operation : ArchitectureOperation)
    (sig : OpSig) : Prop :=
  operation.kind = sig.kind ∧ operation.parameters = sig.parameters ∧
    match sig.output with
    | some tensorType => ∃ id, operation.outputs = [id] ∧ ⟨id, tensorType⟩ ∈ values
    | none => operation.outputs = []

namespace ModelBuilder

/-- The builder holds operations of these signatures, in this order, and its slots are required and
named after their ids. -/
structure Built (sigs : List OpSig) (b : ModelBuilder) : Prop where
  operations : List.Forall₂ (ArchitectureOperation.Shows b.values) b.operations sigs
  slots : ∀ slot ∈ b.slots, slot.canonicalName = slot.id ∧ slot.optional = false

/-- A helper that returns has appended operations of the signatures `sigs`, and its value meets `post`. -/
def Emits {α : Type} (m : BuilderM α) (sigs : List OpSig) (post : α → Prop) : Prop :=
  ∀ done, Triple (Built done) m (fun a b => post a ∧ Built (done ++ sigs) b) fun _ => True

section rules

variable {α β : Type} {m : BuilderM α} {f : α → BuilderM β} {sigs rest : List OpSig} {sig : OpSig}
  {p p' : α → Prop} {q : β → Prop}

theorem Emits.pure {a : α} (h : p a) : Emits (Pure.pure a) [] p := by
  intro done
  rw [List.append_nil]
  exact Triple.pure fun _ hb => ⟨h, hb⟩

theorem Emits.bind (hm : Emits m sigs p) (hf : ∀ a, p a → Emits (f a) rest q) :
    Emits (m >>= f) (sigs ++ rest) q := by
  intro done
  rw [← List.append_assoc]
  exact (hm done).bind fun a => Triple.assume fun ha => hf a ha _

/-- A helper that emits one operation, and then what follows. -/
theorem Emits.step (hm : Emits m [sig] p) (hf : ∀ a, p a → Emits (f a) rest q) :
    Emits (m >>= f) (sig :: rest) q := hm.bind hf

/-- A step that emits nothing. -/
theorem Emits.skip (hm : Emits m [] p) (hf : ∀ a, p a → Emits (f a) rest q) : Emits (m >>= f) rest q :=
  hm.bind hf

theorem Emits.andThen (hm : Emits m sigs p) {done : List OpSig} {Q : β → ModelBuilder → Prop}
    (hf : ∀ a, p a → Triple (Built (done ++ sigs)) (f a) Q fun _ => True) :
    Triple (Built done) (m >>= f) Q fun _ => True :=
  (hm done).bind fun a => Triple.assume fun ha => hf a ha

theorem Emits.lift (x : Except DynInferError α) : Emits (ModelBuilder.lift x) [] fun a => x = .ok a := by
  cases x with
  | ok a => exact Emits.pure rfl
  | error e => exact fun done => Triple.throw fun _ _ => trivial

/-- A loop emits what its steps emit, one after the other. -/
theorem Emits.foldlM {g : α → β → BuilderM α} {sigOf : β → List OpSig}
    (h : ∀ a x, p a → Emits (g a x) (sigOf x) p) (xs : List β) {a : α} (ha : p a) :
    Emits (xs.foldlM g a) (xs.flatMap sigOf) p := by
  induction xs generalizing a with
  | nil => exact Emits.pure ha
  | cons x xs ih => exact (h a x ha).bind fun a' ha' => ih ha'

end rules

/-! ## The helpers -/

theorem Shows.mono {values values' : List GraphValue} (h : ∀ v ∈ values, v ∈ values')
    {operation : ArchitectureOperation} {sig : OpSig} (hs : operation.Shows values sig) :
    operation.Shows values' sig := by
  obtain ⟨hkind, hparams, hout⟩ := hs
  refine ⟨hkind, hparams, ?_⟩
  cases hty : sig.output with
  | some tensorType =>
    rw [hty] at hout
    obtain ⟨id, hid, hmem⟩ := hout
    exact ⟨id, hid, h _ hmem⟩
  | none => simpa only [hty] using hout

theorem Built.mono {sigs : List OpSig} {b b' : ModelBuilder} (h : Built sigs b)
    (hops : b'.operations = b.operations) (hslots : b'.slots = b.slots)
    (hvalues : ∀ v ∈ b.values, v ∈ b'.values) : Built sigs b' := by
  refine ⟨?_, hslots ▸ h.slots⟩
  rw [hops]
  exact h.operations.imp fun _ _ hs => Shows.mono hvalues hs

theorem emits_pushSlot (name : String) (role : ParameterRole) (rank : Nat) :
    Emits (pushSlot name role rank) [] (· = name) := by
  refine Emits.skip (p := fun _ => True) (fun done => ?_) fun _ _ => Emits.pure rfl
  refine Triple.checked (Triple.modify fun b hb => ⟨trivial, ?_⟩) fun _ _ => trivial
  rw [List.append_nil]
  refine ⟨hb.2.operations, fun slot hslot => ?_⟩
  obtain hslot | hslot := List.mem_append.mp hslot
  · exact hb.2.slots slot hslot
  · rw [List.mem_singleton.mp hslot]; exact ⟨rfl, rfl⟩

theorem triple_value (done : List OpSig) (id : String) (tensorType : SemanticTensorType) :
    Triple (Built done) (value id tensorType)
      (fun v b => v = ⟨id, tensorType⟩ ∧ ⟨id, tensorType⟩ ∈ b.values ∧ Built done b) fun _ => True := by
  have hadd : Triple (fun b => b.values.any (·.id == id) = false ∧ Built done b)
      (modify fun b => { b with values := b.values ++ [⟨id, tensorType⟩] } : BuilderM Unit)
      (fun _ b => ⟨id, tensorType⟩ ∈ b.values ∧ Built done b) fun _ => True := by
    refine Triple.modify fun b hb => ⟨?_, ?_⟩
    · exact List.mem_append_right _ List.mem_cons_self
    · exact hb.2.mono rfl rfl fun v hv => List.mem_append_left _ hv
  exact Triple.checked (hadd.bind fun _ => Triple.pure fun _ hb => ⟨rfl, hb⟩) fun _ _ => trivial

theorem triple_operation {P : ModelBuilder → Prop} {done : List OpSig} (sig : OpSig) {id : String}
    {inputs outputs : List Value}
    (h : ∀ b, P b → Built done b ∧
      ArchitectureOperation.Shows b.values ⟨id, sig.kind, inputs.map (·.id), outputs.map (·.id), sig.parameters⟩ sig) :
    Triple P (operation id sig.kind inputs outputs sig.parameters) (fun _ b => Built (done ++ [sig]) b)
      fun _ => True := by
  refine Triple.checked (Triple.modify fun b hb => ?_) fun _ _ => trivial
  obtain ⟨hb, hs⟩ := h b hb.2
  exact ⟨List.rel_append hb.operations (.cons hs .nil), hb.slots⟩

/-- A new value and the operation that produces it. -/
theorem emits_produce (valueId id : String) (kind : OperationKind) (inputs : List Value)
    (tensorType : SemanticTensorType) (parameters : List String) :
    Emits (do let output ← value valueId tensorType
              operation id kind inputs [output] parameters
              return output) [⟨kind, some tensorType, parameters⟩] (·.tensorType = tensorType) := by
  intro done
  refine (triple_value done valueId tensorType).bind fun v => Triple.assume ?_
  rintro rfl
  refine (triple_operation ⟨kind, some tensorType, parameters⟩ fun b hb => ?_).bind fun _ =>
    Triple.pure fun _ hb => ⟨rfl, hb⟩
  exact ⟨hb.2, rfl, rfl, _, rfl, hb.1⟩

theorem emits_unary (id : String) (kind : OperationKind) (input : Value) (outputType : SemanticTensorType)
    (parameters : List String) :
    Emits (unary id kind input outputType parameters) [⟨kind, some outputType, parameters⟩]
      (·.tensorType = outputType) := emits_produce _ _ _ _ _ _

/-- A helper that reads one parameter: its slot, and then the operation. -/
theorem emits_slotted (weight : String) (role : ParameterRole) (rank : Nat) (id : String) (kind : OperationKind)
    (input : Value) (outputType : SemanticTensorType) :
    Emits (do let slot ← pushSlot weight role rank
              unary id kind input outputType [slot]) [⟨kind, some outputType, [weight]⟩]
      (·.tensorType = outputType) := by
  refine Emits.skip (emits_pushSlot _ _ _) ?_
  rintro _ rfl
  exact emits_unary _ _ _ _ _

theorem emits_inputTokens (name : String) :
    Emits (inputTokens name) [⟨.input, some .tokens, []⟩] fun _ => True := by
  intro done
  refine Triple.checked ?_ fun _ _ => trivial
  refine Triple.bind ((triple_value done name .tokens).conseq (fun _ hb => hb.2) (fun _ _ h => h) fun _ h => h)
    fun v => Triple.assume ?_
  rintro rfl
  let sig : OpSig := ⟨.input, some .tokens, []⟩
  refine Triple.bind (Q := fun _ => Built (done ++ [sig])) (triple_operation sig fun b hb => ?_) fun _ =>
    Triple.bind (Q := fun _ => Built (done ++ [sig])) (Triple.modify fun b hb => ?_) fun _ =>
      Triple.pure fun _ hb => ⟨trivial, hb⟩
  · exact ⟨hb.2, rfl, rfl, _, rfl, hb.1⟩
  · exact hb.mono rfl rfl fun _ hv => hv

theorem emits_cacheWrite (id : String) (input : Value) (layer : Nat) (component : KvCacheComponent) :
    Emits (cacheWrite id input layer component) [⟨.kvCacheWrite layer component, none, []⟩] fun _ => True := by
  intro done
  exact (triple_operation ⟨.kvCacheWrite layer component, none, []⟩ fun b hb =>
    ⟨hb, rfl, rfl, rfl⟩).conseq (fun _ hb => hb) (fun _ _ hb => ⟨trivial, hb⟩) fun _ h => h

/-- Both inputs of a binary operation have the type of its output. -/
theorem emits_binary (id : String) (kind : OperationKind) (left right : Value) :
    Emits (binary id kind left right) [⟨kind, some right.tensorType, []⟩] (·.tensorType = right.tensorType) := by
  unfold binary
  by_cases heq : left.tensorType = right.tensorType
  · rw [if_neg (not_not.mpr heq), heq]
    exact emits_produce _ _ _ _ _ _
  · rw [if_pos heq]
    exact fun done => Triple.throw fun _ _ => trivial

end ModelBuilder

/-! ## The signature of a sublayer -/

def rmsNormSig (epsilon : Float) (width : Nat) (weight : String) : OpSig :=
  ⟨.rmsNorm epsilon, some (.activations width), [weight]⟩

def linearSig (role : ParameterRole) (width : Nat) (weight : String) : OpSig :=
  ⟨.linear role, some (.activations width), [weight]⟩

def residualSig (width : Nat) : OpSig := ⟨.residual, some (.activations width), []⟩

namespace DecoderBlockSpec

def qDim (spec : DecoderBlockSpec) : Nat := u32Mul spec.numHeads spec.headDim

def kvDim (spec : DecoderBlockSpec) : Nat := u32Mul spec.numKvHeads spec.headDim

def qkNormSigs (spec : DecoderBlockSpec) (blk : String) : List OpSig :=
  [⟨.perHeadRmsNorm spec.rmsNormEpsilon spec.numHeads spec.headDim, some (.activations spec.qDim),
      [s!"{blk}.attn_q_norm.weight"]⟩,
    ⟨.perHeadRmsNorm spec.rmsNormEpsilon spec.numKvHeads spec.headDim, some (.activations spec.kvDim),
      [s!"{blk}.attn_k_norm.weight"]⟩]

def qkRopeSigs (spec : DecoderBlockSpec) : List OpSig :=
  match spec.ropeTheta with
  | some theta =>
    [⟨.rope spec.numHeads spec.headDim theta, some (.activations spec.qDim), []⟩,
      ⟨.rope spec.numKvHeads spec.headDim theta, some (.activations spec.kvDim), []⟩]
  | none => []

def attentionSigs (spec : DecoderBlockSpec) (layer : Nat) (hasQkNorm : Bool) : List OpSig :=
  let blk := s!"blk.{layer}"
  rmsNormSig spec.rmsNormEpsilon spec.hiddenSize s!"{blk}.attn_norm.weight" ::
  linearSig .attentionQ spec.qDim s!"{blk}.attn_q.weight" ::
  linearSig .attentionK spec.kvDim s!"{blk}.attn_k.weight" ::
  linearSig .attentionV spec.kvDim s!"{blk}.attn_v.weight" ::
  ((if hasQkNorm then spec.qkNormSigs blk else []) ++
    (spec.qkRopeSigs ++
    [⟨.kvCacheWrite layer .key, none, []⟩, ⟨.kvCacheWrite layer .value, none, []⟩,
      ⟨.kvCacheRead layer .key, some (.kvCache spec.numKvHeads spec.headDim), []⟩,
      ⟨.kvCacheRead layer .value, some (.kvCache spec.numKvHeads spec.headDim), []⟩,
      ⟨.attention spec.numHeads spec.numKvHeads spec.headDim true, some (.activations spec.qDim), []⟩,
      linearSig .attentionO spec.hiddenSize s!"{blk}.attn_output.weight",
      residualSig spec.hiddenSize]))

def feedForwardSigs (spec : DecoderBlockSpec) (layer : Nat) : List OpSig :=
  let blk := s!"blk.{layer}"
  [rmsNormSig spec.rmsNormEpsilon spec.hiddenSize s!"{blk}.ffn_norm.weight",
    linearSig .ffnGate spec.intermediateSize s!"{blk}.ffn_gate.weight",
    linearSig .ffnUp spec.intermediateSize s!"{blk}.ffn_up.weight",
    ⟨.elementwise .silu, some (.activations spec.intermediateSize), []⟩,
    ⟨.elementwise .multiply, some (.activations spec.intermediateSize), []⟩,
    linearSig .ffnDown spec.hiddenSize s!"{blk}.ffn_down.weight",
    residualSig spec.hiddenSize]

end DecoderBlockSpec

def ShortConvBlockSpec.shortConvSigs (spec : ShortConvBlockSpec) (layer : Nat) : List OpSig :=
  let blk := s!"blk.{layer}"
  [rmsNormSig spec.rmsNormEpsilon spec.hiddenSize s!"{blk}.attn_norm.weight",
    linearSig (.other "shortconv.in") (u32Mul 3 spec.channels) s!"{blk}.shortconv.in_proj.weight",
    ⟨.shortConv layer spec.channels spec.kernelSize, some (.activations spec.channels),
      [s!"{blk}.shortconv.conv.weight"]⟩,
    linearSig (.other "shortconv.out") spec.hiddenSize s!"{blk}.shortconv.out_proj.weight",
    residualSig spec.hiddenSize]

namespace ModelBuilder

theorem emits_rmsNorm {id weight : String} {input : Value} {epsilon : Float} {width : Nat}
    (h : input.tensorType = .activations width) :
    Emits (rmsNorm id input weight epsilon) [rmsNormSig epsilon width weight]
      (·.tensorType = .activations width) := by
  unfold rmsNorm
  rw [h]
  exact emits_slotted _ _ _ _ _ _ _

theorem emits_linear (id : String) (input : Value) (weight : String) (width : Nat) (role : ParameterRole) :
    Emits (linear id input weight width role) [linearSig role width weight]
      (·.tensorType = .activations width) := emits_slotted _ _ _ _ _ _ _

theorem emits_residual {id : String} {left right : Value} {width : Nat}
    (h : right.tensorType = .activations width) :
    Emits (binary id .residual left right) [residualSig width] (·.tensorType = .activations width) := by
  have hb := emits_binary id .residual left right
  rwa [h] at hb

theorem emits_qkNorm {blk : String} (hasQkNorm : Bool) {query key : Value} {spec : DecoderBlockSpec}
    (hq : query.tensorType = .activations spec.qDim) (hk : key.tensorType = .activations spec.kvDim) :
    Emits (qkNorm blk hasQkNorm query key spec) (if hasQkNorm then spec.qkNormSigs blk else [])
      fun p => p.1.tensorType = .activations spec.qDim ∧ p.2.tensorType = .activations spec.kvDim := by
  cases hasQkNorm with
  | false => exact Emits.pure ⟨hq, hk⟩
  | true =>
    unfold qkNorm perHeadRmsNorm
    rw [hq, hk]
    refine Emits.step (emits_slotted _ _ _ _ _ _ _) fun query hq => ?_
    refine Emits.step (emits_slotted _ _ _ _ _ _ _) fun key hk => ?_
    exact Emits.pure ⟨hq, hk⟩

theorem emits_qkRope {blk : String} {query key : Value} {spec : DecoderBlockSpec}
    (hq : query.tensorType = .activations spec.qDim) (hk : key.tensorType = .activations spec.kvDim) :
    Emits (qkRope blk query key spec) spec.qkRopeSigs fun _ => True := by
  unfold qkRope DecoderBlockSpec.qkRopeSigs
  cases spec.ropeTheta with
  | none => exact Emits.pure trivial
  | some theta =>
    unfold rope
    rw [hq, hk]
    refine Emits.step (emits_unary _ _ _ _ _) fun query _ => ?_
    refine Emits.step (emits_unary _ _ _ _ _) fun key _ => ?_
    exact Emits.pure trivial

/-- **The attention sublayer.** It appends the operations of its signature and keeps the width. -/
theorem emits_attentionSublayer {input : Value} (layer : Nat) (hasQkNorm : Bool) {spec : DecoderBlockSpec}
    (hin : input.tensorType = .activations spec.hiddenSize) :
    Emits (attentionSublayer input layer hasQkNorm spec) (spec.attentionSigs layer hasQkNorm)
      (·.tensorType = .activations spec.hiddenSize) := by
  refine Emits.skip (Emits.lift _) fun _ _ => ?_
  refine Emits.step (emits_rmsNorm hin) fun normalized _ => ?_
  refine Emits.step (emits_linear _ _ _ _ _) fun query hq => ?_
  refine Emits.step (emits_linear _ _ _ _ _) fun key hk => ?_
  refine Emits.step (emits_linear _ _ _ _ _) fun val _ => ?_
  refine Emits.bind (emits_qkNorm hasQkNorm hq hk) fun (query, key) hqk => ?_
  refine Emits.bind (emits_qkRope hqk.1 hqk.2) fun (query, key) _ => ?_
  refine Emits.step (emits_cacheWrite _ _ _ _) fun _ _ => ?_
  refine Emits.step (emits_cacheWrite _ _ _ _) fun _ _ => ?_
  refine Emits.step (emits_unary _ _ _ _ _) fun keyCache _ => ?_
  refine Emits.step (emits_unary _ _ _ _ _) fun valueCache _ => ?_
  refine Emits.step (emits_produce _ _ _ _ _ _) fun attended _ => ?_
  refine Emits.step (emits_linear _ _ _ _ _) fun projected hp => ?_
  exact emits_residual hp

theorem emits_shortConvSublayer {input : Value} (layer : Nat) {spec : ShortConvBlockSpec}
    (hin : input.tensorType = .activations spec.hiddenSize) :
    Emits (shortConvSublayer input layer spec) (spec.shortConvSigs layer)
      (·.tensorType = .activations spec.hiddenSize) := by
  refine Emits.skip (Emits.lift _) fun _ _ => ?_
  refine Emits.step (emits_rmsNorm hin) fun normalized _ => ?_
  refine Emits.step (emits_linear _ _ _ _ _) fun gates _ => ?_
  refine Emits.step (emits_slotted _ _ _ _ _ _ _) fun mixed _ => ?_
  refine Emits.step (emits_linear _ _ _ _ _) fun projected hp => ?_
  exact emits_residual hp

theorem emits_feedForwardSublayer {input : Value} (layer : Nat) {spec : DecoderBlockSpec}
    (hin : input.tensorType = .activations spec.hiddenSize) :
    Emits (feedForwardSublayer input layer spec) (spec.feedForwardSigs layer)
      (·.tensorType = .activations spec.hiddenSize) := by
  refine Emits.step (emits_rmsNorm hin) fun ffnInput _ => ?_
  refine Emits.step (emits_linear _ _ _ _ _) fun gate hg => ?_
  refine Emits.step (emits_linear _ _ _ _ _) fun up hu => ?_
  unfold elementwiseUnary
  rw [hg]
  refine Emits.step (emits_unary _ _ _ _ _) fun activated _ => ?_
  refine Emits.step (hu ▸ emits_binary _ _ activated up) fun gated _ => ?_
  refine Emits.step (emits_linear _ _ _ _ _) fun down hd => ?_
  exact emits_residual hd

theorem emits_decoderBlock {input : Value} (layer : Nat) (hasQkNorm : Bool) {spec : DecoderBlockSpec}
    (hin : input.tensorType = .activations spec.hiddenSize) :
    Emits (decoderBlock input layer hasQkNorm spec)
      (spec.attentionSigs layer hasQkNorm ++ spec.feedForwardSigs layer)
      (·.tensorType = .activations spec.hiddenSize) :=
  (emits_attentionSublayer layer hasQkNorm hin).bind fun _ h => emits_feedForwardSublayer layer h

end ModelBuilder

end Dyninfer
