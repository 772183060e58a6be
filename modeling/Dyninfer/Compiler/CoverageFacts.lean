/-
Complete coverage and the lowering. What coverage selects implements its
operation, and the lowering takes it unless it is the native kernel of `f16` or
`bf16` storage: coverage prefers that one, the lowering computes in `f32` only.
-/
import Dyninfer.Architecture.ModelFacts
import Dyninfer.Binding.Binder
import Dyninfer.Compiler.BoundModel
import Dyninfer.Quantization.CandidateFacts

namespace Dyninfer

/-! ## Lowerings -/

theorem loweringMatchesOperation_lowering (kind : OperationKind) :
    loweringMatchesOperation kind (KernelOperationKind.fromSemantic kind).lowering = true := by
  cases kind with
  | elementwise function => cases function <;> rfl
  | _ => rfl

/-- A parameter lowering of a registered candidate matches the candidate's operation. -/
theorem loweringMatchesOperation_registered {encodings : QuantizationRegistry}
    (hencodings : defaultQuantizationRegistry = .ok encodings) {candidate : KernelCandidateDescriptor}
    {definition : QuantizationDefinition} (hdefinition : definition ∈ builtinDefinitions)
    (hcandidate : candidate ∈ definition.kernelCandidates) {kind : OperationKind}
    (hkind : candidate.operation = .fromSemantic kind)
    (hparameter : candidate.operation ∈ [KernelOperationKind.embedding, .linear, .outputProjection]) :
    loweringMatchesOperation kind candidate.lowering = true := by
  have hregistered : registeredParameterLoweringMatches kind candidate.lowering = true := by
    simp only [registeredParameterLoweringMatches, hencodings, Except.toOption, Option.any_some,
      QuantizationRegistry.implementsLowering, List.any_eq_true, Bool.and_eq_true, beq_iff_eq]
    exact ⟨definition, default_definitions hencodings ▸ hdefinition, candidate, hcandidate, hkind, rfl⟩
  rw [hkind] at hparameter
  cases kind with
  | embedding | linear | outputProjection => simp only [loweringMatchesOperation, hregistered, Bool.or_true]
  | elementwise function => cases function <;> simp [KernelOperationKind.fromSemantic] at hparameter
  | _ => simp [KernelOperationKind.fromSemantic] at hparameter

theorem loweringMatchesOperation_implements {encodings : QuantizationRegistry}
    (hencodings : defaultQuantizationRegistry = .ok encodings) {candidate : KernelCandidateDescriptor}
    (himplements : candidate.Implements) {kind : OperationKind} (hkind : candidate.operation = .fromSemantic kind) :
    loweringMatchesOperation kind candidate.lowering = true := by
  obtain hlowering | ⟨hattention, hlowering⟩ | ⟨hparameter, definition, hdefinition, hcandidate⟩ := himplements
  · rw [hlowering, hkind]
    exact loweringMatchesOperation_lowering kind
  · rw [hlowering]
    rw [hkind] at hattention
    cases kind with
    | attention => rfl
    | elementwise function => cases function <;> simp [KernelOperationKind.fromSemantic] at hattention
    | _ => simp [KernelOperationKind.fromSemantic] at hattention
  · exact loweringMatchesOperation_registered hencodings hdefinition hcandidate hkind hparameter

/-! ## One operation -/

section operation

variable {parameters : List LogicalParameter} {binding : BindingPlan} {encodings : QuantizationRegistry}
  {kernels : KernelRegistry} {target : TargetProfile} {policy : PrecisionPolicy} {operation : ArchitectureOperation}
  {mode : ExecutionMode}

/-- What covers an operation: an accepted candidate that precedes the others, over a parameter that validates. -/
structure Covers (parameters : List LogicalParameter) (binding : BindingPlan) (encodings : QuantizationRegistry)
    (kernels : KernelRegistry) (target : TargetProfile) (request : KernelRequest) (operation : ArchitectureOperation)
    (selected : SelectedKernelCandidate) : Prop where
  accepted : ∃ candidate, Eligible kernels.candidates request target candidate ∧
    selected = selectCandidate candidate request (deterministicScore candidate target)
  precedes : ∀ candidate, Eligible kernels.candidates request target candidate →
    selected.Precedes (selectCandidate candidate request (deterministicScore candidate target))
  resolves : ∀ parameter, firstParameter parameters binding operation = some parameter →
    ∃ definition, encodings.resolve parameter.encoding = some definition

/-- The selection behind an operation's coverage, which does not fail. -/
theorem exists_selection (parameters : List LogicalParameter) (binding : BindingPlan) (encodings : QuantizationRegistry)
    (kernels : KernelRegistry) (target : TargetProfile) (policy : PrecisionPolicy) (operation : ArchitectureOperation)
    (mode : ExecutionMode) : ∃ report,
    kernels.select deterministicCost (kernelRequest parameters binding policy operation mode) target = .ok report ∧
      (operationCoverage parameters binding encodings kernels target policy operation mode).selected = report.selected ∧
      (operationCoverage parameters binding encodings kernels target policy operation mode).validationError =
        parameterError encodings operation (firstParameter parameters binding operation) := by
  obtain ⟨report, hreport⟩ :=
    select_deterministicCost kernels (kernelRequest parameters binding policy operation mode) target
  refine ⟨report, hreport, ?_, ?_⟩
  · simp only [operationCoverage, hreport]
    rfl
  · simp only [operationCoverage, hreport]

theorem covers_of_isCovered
    (h : (operationCoverage parameters binding encodings kernels target policy operation mode).isCovered = true) :
    ∃ selected,
      (operationCoverage parameters binding encodings kernels target policy operation mode).selected = some selected ∧
        Covers parameters binding encodings kernels target (kernelRequest parameters binding policy operation mode) operation
          selected := by
  obtain ⟨hselected, herror⟩ := (Bool.and_eq_true _ _).mp h
  obtain ⟨selected, hselected⟩ := Option.isSome_iff_exists.mp hselected
  obtain ⟨report, hreport, hreported, hvalidated⟩ :=
    exists_selection parameters binding encodings kernels target policy operation mode
  obtain ⟨haccepted, hprecedes⟩ := select_selected hreport (hreported.symm.trans hselected)
  refine ⟨selected, hselected, haccepted, hprecedes, ?_⟩
  intro parameter hparameter
  cases hresolve : encodings.resolve parameter.encoding with
  | some definition => exact ⟨definition, rfl⟩
  | none =>
    have hnone : parameterError encodings operation (firstParameter parameters binding operation) = none :=
      hvalidated.symm.trans (Option.isNone_iff_eq_none.mp herror)
    simp [hparameter, parameterError, hresolve] at hnone

/-- The compute types of a candidate, as the lowering looks at them. -/
def SelectedKernelCandidate.computesF32 (selected : SelectedKernelCandidate) : Bool :=
  Dyninfer.computesF32 selected.inputType selected.outputType selected.activationType selected.accumulatorType

theorem not_computesF32_native {request : KernelRequest} {candidate : KernelCandidateDescriptor}
    {native : ScalarType × String} (hmem : native ∈ nativeTypes) (hinput : candidate.inputTypes = [native.1]) :
    (selectCandidate candidate request (deterministicScore candidate target)).computesF32 = false := by
  obtain rfl | rfl : native = (.f16, "native_f16") ∨ native = (.bf16, "native_bf16") := by
    simpa [nativeTypes] using hmem
  all_goals simp [SelectedKernelCandidate.computesF32, computesF32, selectCandidate, hinput]

theorem computesF32_portable {request : KernelRequest} {candidate : KernelCandidateDescriptor}
    (haccepts : Eligible kernels.candidates request target candidate) (hportable : candidate.Portable) :
    (selectCandidate candidate request (deterministicScore candidate target)).computesF32 = true := by
  obtain hin | ⟨hin, hout, hacc⟩ := hportable
  · simp [SelectedKernelCandidate.computesF32, computesF32, selectCandidate, hin]
  · have htypes : typeReasons candidate request = [] := by
      have hreasons := haccepts.reasons
      simp only [rejectionReasons, List.append_eq_nil_iff] at hreasons
      exact hreasons.2
    rw [typeReasons, hin, hout, hacc] at htypes
    have haccumulator :
        (selectCandidate candidate request (deterministicScore candidate target)).accumulatorType = .f32 := by
      unfold selectCandidate
      split
      case isTrue hsensitive =>
        simpa [reasonIf_eq_nil, hsensitive] using htypes
      case isFalse => simp [hacc]
    rw [SelectedKernelCandidate.computesF32, haccumulator]
    simp [computesF32, selectCandidate, hin, hout]

/-- Over natively run storage the native kernel is selected. -/
theorem not_computesF32_of_runsNatively (hcandidates : kernels.candidates = builtinCandidates)
    {selected : SelectedKernelCandidate}
    (h : Covers parameters binding encodings kernels target (kernelRequest parameters binding policy operation mode) operation
      selected)
    {parameter : LogicalParameter} (hparameter : firstParameter parameters binding operation = some parameter)
    (hnative : target.RunsNatively parameter.encoding) : selected.computesF32 = false := by
  obtain ⟨native, hmem, ⟨order, hplain⟩, hfeature⟩ := hnative
  obtain ⟨candidate, haccepts, rfl⟩ := h.accepted
  have hencoding : candidate.encoding = some ⟨PlainDefinition.id native.1, 1⟩ := by
    have hreasons := haccepts.reasons
    simp only [rejectionReasons, List.append_eq_nil_iff, reasonIf_eq_nil, bne_eq_false_iff_eq] at hreasons
    obtain ⟨⟨⟨⟨⟨⟨⟨⟨hencoding, -⟩, -⟩, -⟩, -⟩, -⟩, -⟩, -⟩, -⟩ := hreasons
    rw [hencoding]
    simp [kernelRequest, hparameter, hplain, physicalEncodingKey]
  obtain ⟨hany, htype, kernel, hkernel, hkernelOf, hscore, hkernelAny⟩ :=
    native_beside candidate (hcandidates ▸ haccepts.mem) native hmem hencoding
  have hprecedes := (h.precedes kernel (haccepts.native (hcandidates ▸ hkernel) hkernelOf hfeature)).score_le
  have hinput : candidate.inputTypes = [native.1] := by
    refine htype.resolve_right fun hless => ?_
    simp only [selectCandidate, deterministicScore, hany, hkernelAny, hscore] at hprecedes
    omega
  exact not_computesF32_native hmem hinput

/-- The lowering takes what covers an operation exactly when its parameter is not run natively. -/
theorem computesF32_iff (hencodings : defaultQuantizationRegistry = .ok encodings)
    (hkernels : defaultKernelRegistry encodings = .ok kernels) {selected : SelectedKernelCandidate}
    (h : Covers parameters binding encodings kernels target (kernelRequest parameters binding policy operation mode) operation
      selected) :
    selected.computesF32 = true ↔
      ∀ parameter, firstParameter parameters binding operation = some parameter →
        ¬ target.RunsNatively parameter.encoding := by
  have hcandidates := default_candidates hencodings hkernels
  constructor
  · intro hcomputes parameter hparameter hnative
    rw [not_computesF32_of_runsNatively hcandidates h hparameter hnative] at hcomputes
    cases hcomputes
  · intro hnone
    obtain ⟨candidate, haccepts, rfl⟩ := h.accepted
    obtain ⟨hportable, -⟩ | ⟨native, hmem, hencoding, -, hrequired⟩ :=
      portable_or_native candidate (hcandidates ▸ haccepts.mem)
    · exact computesF32_portable haccepts hportable
    · have hreasons := haccepts.reasons
      simp only [rejectionReasons, List.append_eq_nil_iff, reasonIf_eq_nil, bne_eq_false_iff_eq] at hreasons
      obtain ⟨⟨⟨⟨⟨⟨⟨⟨hkey, -⟩, -⟩, -⟩, -⟩, hfeatures⟩, -⟩, -⟩, -⟩ := hreasons
      rw [hencoding] at hkey
      obtain ⟨parameter, hparameter, hkey⟩ := Option.map_eq_some_iff.mp hkey.symm
      obtain ⟨definition, hresolve⟩ := h.resolves parameter hparameter
      refine absurd ⟨native, hmem, plain_of_resolve (default_definitions hencodings) hresolve hmem hkey, ?_⟩
        (hnone parameter hparameter)
      simpa [hrequired, reasonIf_eq_nil] using hfeatures

theorem loweringMatches_of_computesF32 (hencodings : defaultQuantizationRegistry = .ok encodings)
    (hkernels : defaultKernelRegistry encodings = .ok kernels) {selected : SelectedKernelCandidate}
    (h : Covers parameters binding encodings kernels target (kernelRequest parameters binding policy operation mode) operation
      selected) (hcomputes : selected.computesF32 = true) :
    loweringMatchesOperation operation.kind selected.descriptor.lowering = true := by
  obtain ⟨candidate, haccepts, rfl⟩ := h.accepted
  obtain ⟨-, himplements⟩ | ⟨native, hmem, -, hinput, -⟩ :=
    portable_or_native candidate (default_candidates hencodings hkernels ▸ haccepts.mem)
  · exact loweringMatchesOperation_implements hencodings himplements haccepts.operation
  · rw [not_computesF32_native hmem hinput] at hcomputes
    cases hcomputes

end operation

/-! ## The selected kernels of a model -/

section model

variable {parameters : List LogicalParameter} {binding : BindingPlan} {encodings : QuantizationRegistry}
  {kernels : KernelRegistry} {target : TargetProfile} {policy : PrecisionPolicy} {graph : ArchitectureGraph}
  {operation : ArchitectureOperation} {mode : ExecutionMode}

theorem isCovered_of_complete
    (h : (dryRunCoverage parameters binding encodings kernels target policy graph).requireComplete = .ok ())
    (hoperation : operation ∈ graph.operations) (hmode : mode ∈ graph.exportModes) :
    (operationCoverage parameters binding encodings kernels target policy operation mode).isCovered = true := by
  unfold CoverageReport.requireComplete at h
  split at h
  case isFalse => cases h
  case isTrue hcomplete =>
    exact List.all_eq_true.mp hcomplete _
      (List.mem_flatMap.mpr ⟨operation, hoperation, List.mem_map.mpr ⟨mode, hmode, rfl⟩⟩)

theorem mem_selectedKernels {kernel : SelectedKernel} :
    kernel ∈ (dryRunCoverage parameters binding encodings kernels target policy graph).selectedKernels ↔
      ∃ operation ∈ graph.operations, ∃ mode ∈ graph.exportModes, ∃ selected,
        (operationCoverage parameters binding encodings kernels target policy operation mode).selected = some selected ∧
          (operationCoverage parameters binding encodings kernels target policy operation mode).kernel selected = kernel := by
  simp only [CoverageReport.selectedKernels, dryRunCoverage, List.mem_filterMap, List.mem_flatMap, List.mem_map,
    Option.map_eq_some_iff]
  constructor
  · rintro ⟨_, ⟨operation, hoperation, mode, hmode, rfl⟩, hselected⟩
    exact ⟨operation, hoperation, mode, hmode, hselected⟩
  · rintro ⟨operation, hoperation, mode, hmode, hselected⟩
    exact ⟨_, ⟨operation, hoperation, mode, hmode, rfl⟩, hselected⟩

/-- The first kernel of an operation and a mode is the one coverage selected for them. -/
theorem find_selected (hnodup : (graph.operations.map (·.id)).Nodup) (hoperation : operation ∈ graph.operations)
    (hmode : mode ∈ graph.exportModes) {selected : SelectedKernelCandidate}
    (hselected :
      (operationCoverage parameters binding encodings kernels target policy operation mode).selected = some selected) :
    (dryRunCoverage parameters binding encodings kernels target policy graph).selectedKernels.find?
        (fun kernel => kernel.operationId == operation.id && kernel.mode == mode) =
      some ((operationCoverage parameters binding encodings kernels target policy operation mode).kernel selected) := by
  have hmem := mem_selectedKernels.mpr ⟨operation, hoperation, mode, hmode, selected, hselected, rfl⟩
  cases hfind : (dryRunCoverage parameters binding encodings kernels target policy graph).selectedKernels.find?
      fun kernel => kernel.operationId == operation.id && kernel.mode == mode with
  | none => exact absurd (List.find?_eq_none.mp hfind _ hmem) (by simp [OperationCoverage.kernel, operationCoverage])
  | some kernel =>
    have hids := List.find?_some hfind
    obtain ⟨operation', hoperation', mode', -, selected', hselected', rfl⟩ :=
      mem_selectedKernels.mp (List.mem_of_find?_eq_some hfind)
    obtain ⟨hid, rfl⟩ : operation'.id = operation.id ∧ mode' = mode := by
      simpa [OperationCoverage.kernel, operationCoverage] using hids
    obtain rfl := List.inj_on_of_nodup_map hnodup hoperation' hoperation hid
    rw [hselected] at hselected'
    cases hselected'
    rfl

/-- The kernel of an operation after the rewriting of a paged model. -/
theorem find_pagedKernels (selectedKernels : List SelectedKernel) {kernel : SelectedKernel}
    (h : selectedKernels.find? (fun kernel => kernel.operationId == operation.id && kernel.mode == mode) = some kernel) :
    (pagedKernels graph selectedKernels).find? (fun kernel => kernel.operationId == operation.id && kernel.mode == mode) =
      some (if kernel.operationId ∈ graph.attentionOps then kernel.onPages else kernel) := by
  unfold pagedKernels
  rw [List.find?_map]
  have hsame : (fun kernel : SelectedKernel => kernel.operationId == operation.id && kernel.mode == mode) ∘
      (fun selected => if selected.operationId ∈ graph.attentionOps then selected.onPages else selected) =
      fun kernel => kernel.operationId == operation.id && kernel.mode == mode := by
    funext kernel
    simp only [Function.comp_apply]
    split <;> rfl
  rw [hsame, h, Option.map_some]

theorem validateLowering_ok_iff {selectedKernels : List SelectedKernel} {kernel : SelectedKernel}
    (h : selectedKernels.find? (fun kernel => kernel.operationId == operation.id && kernel.mode == mode) = some kernel) :
    validateLowering selectedKernels operation mode = .ok () ↔
      kernel.computesF32 = true ∧ loweringMatchesOperation operation.kind kernel.loweringId = true := by
  simp only [validateLowering, h]
  cases kernel.computesF32 <;> cases loweringMatchesOperation operation.kind kernel.loweringId <;> simp

theorem isAttention_of_mem (hnodup : (graph.operations.map (·.id)).Nodup) (hoperation : operation ∈ graph.operations)
    (h : operation.id ∈ graph.attentionOps) : operation.kind.isAttention = true := by
  obtain ⟨other, hother, hid⟩ := List.mem_map.mp h
  obtain ⟨hmem, hattention⟩ := List.mem_filter.mp hother
  obtain rfl := List.inj_on_of_nodup_map hnodup hmem hoperation hid
  exact hattention

/-- Paged or not, the lowering takes an operation exactly when its kernel computes as it does. -/
theorem validateLowering_iff (hencodings : defaultQuantizationRegistry = .ok encodings)
    (hkernels : defaultKernelRegistry encodings = .ok kernels) (hnodup : (graph.operations.map (·.id)).Nodup)
    (hcomplete : (dryRunCoverage parameters binding encodings kernels target policy graph).requireComplete = .ok ())
    (paged : Bool) (hoperation : operation ∈ graph.operations) (hmode : mode ∈ graph.exportModes) :
    validateLowering (if paged then
        pagedKernels graph (dryRunCoverage parameters binding encodings kernels target policy graph).selectedKernels
      else (dryRunCoverage parameters binding encodings kernels target policy graph).selectedKernels)
        operation mode = .ok () ↔
      ∀ parameter, firstParameter parameters binding operation = some parameter →
        ¬ target.RunsNatively parameter.encoding := by
  obtain ⟨selected, hselected, hcovers⟩ := covers_of_isCovered (isCovered_of_complete hcomplete hoperation hmode)
  have hfind := find_selected hnodup hoperation hmode hselected
  have hmatches := loweringMatches_of_computesF32 hencodings hkernels hcovers
  rw [← computesF32_iff hencodings hkernels hcovers]
  cases paged with
  | false =>
    rw [if_neg Bool.false_ne_true, validateLowering_ok_iff hfind]
    exact ⟨fun h => h.1, fun h => ⟨h, hmatches h⟩⟩
  | true =>
    rw [if_pos rfl, validateLowering_ok_iff (find_pagedKernels _ hfind)]
    split
    case isFalse => exact ⟨fun h => h.1, fun h => ⟨h, hmatches h⟩⟩
    case isTrue hattention =>
      refine ⟨fun h => h.1, fun h => ⟨h, ?_⟩⟩
      have hkind : operation.kind.isAttention = true := isAttention_of_mem hnodup hoperation hattention
      cases hop : operation.kind with
      | attention => rfl
      | _ => simp [hop, OperationKind.isAttention] at hkind

end model

theorem prefill_mem_exportModes {graph : ArchitectureGraph} (h : verifyArchitectureConformance graph = .ok ()) :
    .prefill ∈ graph.exportModes := by
  obtain ⟨_, -, h⟩ := Fallible.bind_ok h
  have hexport := conform_ok (Fallible.forM_ok h ("prefill", .prefill) List.mem_cons_self)
  obtain ⟨e, he, hmode⟩ := List.any_eq_true.mp hexport
  exact List.mem_filter.mpr ⟨List.mem_cons_self, List.any_eq_true.mpr ⟨e, he, ((Bool.and_eq_true _ _).mp hmode).2⟩⟩

/-- **When complete coverage lowers.** For every registered architecture's graph, plan of it, target,
precision and shape: with complete coverage, the model is built and its kernels accepted exactly when
the target has no native kernel for the storage of any operation's first parameter. -/
theorem coverage_lowers_iff {id : String} {overrides checkpointMeta : MetadataMap} {package : ArchitecturePackage}
    (hpackage : ArchitectureRegistry.buildPackage id overrides checkpointMeta = .ok package)
    {encodings : QuantizationRegistry} (hencodings : defaultQuantizationRegistry = .ok encodings)
    {kernels : KernelRegistry} (hkernels : defaultKernelRegistry encodings = .ok kernels)
    (parameters : List LogicalParameter) (binding : BindingPlan) (target : TargetProfile) (policy : PrecisionPolicy)
    (shape : ShapeProfile) {report : CoverageReport}
    (hreport : report = dryRunCoverage parameters binding encodings kernels target policy package.graph)
    (hcomplete : report.requireComplete = .ok ()) :
    (∃ bound, buildBoundModel package binding target policy report.selectedKernels shape = .ok bound ∧
        validateBoundModelLowerings bound = .ok ()) ↔
      ∀ operation ∈ package.graph.operations, ∀ parameter, firstParameter parameters binding operation = some parameter →
        ¬ target.RunsNatively parameter.encoding := by
  subst hreport
  have hconforms := buildPackage_conforms hpackage
  have hnodup := (verifyArchitectureConformance_ok hconforms).operations
  obtain ⟨⟨⟩, hverified, -⟩ := Fallible.bind_ok hconforms
  have hbuild : ∀ selectedKernels, ∃ bound, buildBoundModel package binding target policy selectedKernels shape = .ok bound ∧
      bound.architecture = package.graph ∧ bound.selectedKernels =
        if shape.paged then pagedKernels package.graph selectedKernels else selectedKernels := by
    intro selectedKernels
    exact ⟨_, Fallible.bind_ok_iff.mpr ⟨(), hverified, rfl⟩, rfl, rfl⟩
  obtain ⟨bound, hbound, hgraph, hselected⟩ := hbuild
    (dryRunCoverage parameters binding encodings kernels target policy package.graph).selectedKernels
  have hiff {operation : ArchitectureOperation} (hoperation : operation ∈ package.graph.operations) {mode : ExecutionMode}
      (hmode : mode ∈ package.graph.exportModes) :=
    validateLowering_iff hencodings hkernels hnodup hcomplete shape.paged hoperation hmode
  rw [hbound]
  constructor
  · rintro ⟨_, hsame, hvalid⟩ operation hoperation
    cases hsame
    rw [validateBoundModelLowerings, hgraph, hselected, Fallible.forM_ok_iff] at hvalid
    have hmode := prefill_mem_exportModes hconforms
    exact (hiff hoperation hmode).mp (Fallible.forM_ok (hvalid operation hoperation) _ hmode)
  · intro h
    refine ⟨bound, rfl, ?_⟩
    rw [validateBoundModelLowerings, hgraph, hselected, Fallible.forM_ok_iff]
    intro operation hoperation
    rw [Fallible.forM_ok_iff]
    exact fun mode hmode => (hiff hoperation hmode).mpr (h operation hoperation)

/-- Metadata of a Llama checkpoint of one layer, every size of which is two. -/
def smallMeta : MetadataMap :=
  [("hidden_size", .ofNat 2), ("head_dim", .ofNat 2), ("num_heads", .ofNat 1), ("num_kv_heads", .ofNat 1),
    ("num_layers", .ofNat 1), ("intermediate_size", .ofNat 2), ("vocab_size", .ofNat 2)]

/-- A slot's parameter in plain storage, every dimension of which is two. -/
def smallParameter (storageType : ScalarType) (slot : ParameterSlot) : LogicalParameter :=
  let shape := List.replicate (slot.expectedType.rank.getD 2) 2
  { canonicalName := slot.canonicalName
    role := slot.role
    logicalType := { shape, elementType := storageType }
    encoding := .plain storageType
    components := [{ name := "data", key := slot.canonicalName, sourceFileIndex := 0, shape
                     storageType := .scalar storageType
                     byteRanges := [{ offset := 0, length := shape.prod * storageType.sizeBytes }], alignment := 1 }]
    aliases := [slot.canonicalName] }

/-- The checkpoint of a package's slots in one storage type. -/
def smallCatalog (storageType : ScalarType) (package : ArchitecturePackage) : CheckpointCatalog where
  sourceFiles := [{ path := "model.safetensors", sizeBytes := 4096 }]
  metadata := smallMeta
  parameters := package.graph.parameterSlots.map (smallParameter storageType)
  schemaFingerprint := { digest := "", entryCount := package.graph.parameterSlots.length, totalBytes := 4096 }

/-- The profile of an `sm_80` device. -/
def sm80 : TargetProfile where
  driver := "cuda"
  deviceId := some 0
  architecture := some "sm_80"
  features := ["cuda-target=sm_80", "native_f16", "integer_dot_product", "tensor_cores", "native_bf16"]
  subgroupSize := some 32
  executableTargetFlags := ["--iree-hal-target-device=cuda", "--iree-cuda-target=sm_80"]
  verified := true

/-- Whether the kernels of the small checkpoint are accepted, where its coverage is complete. -/
def smallLowers (storageType : ScalarType) : Except DynInferError Bool := do
  let package ← ArchitectureRegistry.buildPackage "llama.decoder" [] smallMeta
  let plan ← Binder.bind {} package (smallCatalog storageType package)
  let encodings ← defaultQuantizationRegistry
  let kernels ← defaultKernelRegistry encodings
  let report := dryRunCoverage (smallCatalog storageType package).parameters plan encodings kernels sm80 {} package.graph
  report.requireComplete
  let bound ← buildBoundModel package plan sm80 {} report.selectedKernels (defaultShapeProfile package)
  return (validateBoundModelLowerings bound).toOption.isSome

theorem coverage_lowers_small : ∃ package plan encodings kernels,
    Binder.bind {} package (smallCatalog .f32 package) = .ok plan ∧
      let parameters := (smallCatalog .f32 package).parameters
      let report := dryRunCoverage parameters plan encodings kernels sm80 {} package.graph
      ((∃ bound, buildBoundModel package plan sm80 {} report.selectedKernels (defaultShapeProfile package) = .ok bound ∧
          validateBoundModelLowerings bound = .ok ()) ↔
        ∀ operation ∈ package.graph.operations, ∀ parameter, firstParameter parameters plan operation = some parameter →
          ¬ sm80.RunsNatively parameter.encoding) := by
  have h : smallLowers .f32 = .ok true := by decide +kernel
  obtain ⟨package, hpackage, h⟩ := Fallible.bind_ok h
  obtain ⟨plan, hplan, h⟩ := Fallible.bind_ok h
  obtain ⟨encodings, hencodings, h⟩ := Fallible.bind_ok h
  obtain ⟨kernels, hkernels, h⟩ := Fallible.bind_ok h
  obtain ⟨⟨⟩, hcomplete, -⟩ := Fallible.bind_ok h
  exact ⟨package, plan, encodings, kernels, hplan,
    coverage_lowers_iff hpackage hencodings hkernels _ plan sm80 {} _ rfl hcomplete⟩

/-- On `sm_80`, a checkpoint in `bf16` is covered by native kernels, which the lowering refuses. -/
theorem coverage_prefers_native :
    ¬ ∀ (id : String) (overrides : MetadataMap) (catalog : CheckpointCatalog) (package : ArchitecturePackage)
      (plan : BindingPlan) (encodings : QuantizationRegistry) (kernels : KernelRegistry) (target : TargetProfile)
      (policy : PrecisionPolicy) (shape : ShapeProfile),
      ArchitectureRegistry.buildPackage id overrides catalog.metadata = .ok package →
      Binder.bind {} package catalog = .ok plan →
      defaultQuantizationRegistry = .ok encodings → defaultKernelRegistry encodings = .ok kernels →
      target.isCompileReady = true →
      (dryRunCoverage catalog.parameters plan encodings kernels target policy package.graph).requireComplete = .ok () →
      ∃ bound, buildBoundModel package plan target policy
          (dryRunCoverage catalog.parameters plan encodings kernels target policy package.graph).selectedKernels shape =
            .ok bound ∧
        validateBoundModelLowerings bound = .ok () := by
  intro hall
  have h : smallLowers .bf16 = .ok false := by decide +kernel
  obtain ⟨package, hpackage, h⟩ := Fallible.bind_ok h
  obtain ⟨plan, hplan, h⟩ := Fallible.bind_ok h
  obtain ⟨encodings, hencodings, h⟩ := Fallible.bind_ok h
  obtain ⟨kernels, hkernels, h⟩ := Fallible.bind_ok h
  obtain ⟨⟨⟩, hcomplete, h⟩ := Fallible.bind_ok h
  obtain ⟨bound, hbound, h⟩ := Fallible.bind_ok h
  obtain ⟨bound', hbound', hvalid⟩ := hall "llama.decoder" [] (smallCatalog .bf16 package) package plan encodings kernels
    sm80 {} (defaultShapeProfile package) hpackage hplan hencodings hkernels (by decide) hcomplete
  rw [hbound] at hbound'
  cases hbound'
  rw [hvalid] at h
  cases h

end Dyninfer
