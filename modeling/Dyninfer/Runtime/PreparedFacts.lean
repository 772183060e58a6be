/-
A prepared request: its steps, and what its bound model and the lowering's
configuration say of it. The numbers of the manifest are those of the
lowering, and the lowering is paged where the shape is.
-/
import Dyninfer.Compiler.CompileFacts
import Dyninfer.Compiler.CoverageFacts
import Dyninfer.Compiler.ExactDimensions
import Dyninfer.Runtime.CompileRequest

namespace Dyninfer

/-- The steps of a prepared request. -/
structure Prepares (digests : ContentDigests) (request : CompileRequest) (prepared : PreparedRequest)
    (encodings : QuantizationRegistry) (kernels : KernelRegistry) : Prop where
  naming : ArchitectureRegistry.applyNaming digests.schema request.architectureId request.checkpoint =
    .ok prepared.catalog
  package : ArchitectureRegistry.buildPackage request.architectureId request.overrides prepared.catalog.metadata =
    .ok prepared.package
  plan : Binder.bind {} prepared.package prepared.catalog = .ok prepared.plan
  shape : prepared.shape = defaultShapeProfile prepared.package
  definitions : defaultQuantizationRegistry = .ok encodings
  candidates : defaultKernelRegistry encodings = .ok kernels
  complete : (dryRunCoverage prepared.catalog.parameters prepared.plan encodings kernels request.target {}
    prepared.package.graph).requireComplete = .ok ()
  bound : buildBoundModel prepared.package prepared.plan request.target {}
    (dryRunCoverage prepared.catalog.parameters prepared.plan encodings kernels request.target {}
      prepared.package.graph).selectedKernels prepared.shape = .ok prepared.bound

theorem prepare_ok {digests : ContentDigests} {request : CompileRequest} {prepared : PreparedRequest}
    (h : request.prepare digests = .ok prepared) :
    ∃ encodings kernels, Prepares digests request prepared encodings kernels := by
  obtain ⟨⟨package, catalog, plan⟩, hbind, h⟩ := Fallible.bind_ok h
  obtain ⟨encodings, hencodings, h⟩ := Fallible.bind_ok h
  obtain ⟨kernels, hkernels, h⟩ := Fallible.bind_ok h
  obtain ⟨⟨⟩, hcomplete, h⟩ := Fallible.bind_ok h
  obtain ⟨bound, hbound, h⟩ := Fallible.bind_ok h
  cases h
  obtain ⟨catalog', hnaming, hbind⟩ := Fallible.bind_ok hbind
  obtain ⟨package', hpackage, hbind⟩ := Fallible.bind_ok hbind
  obtain ⟨plan', hplan, hbind⟩ := Fallible.bind_ok hbind
  cases hbind
  exact ⟨encodings, kernels, hnaming, hpackage, hplan, rfl, hencodings, hkernels, hcomplete, hbound⟩

theorem buildBoundModel_ok {package : ArchitecturePackage} {binding : BindingPlan} {target : TargetProfile}
    {policy : PrecisionPolicy} {selectedKernels : List SelectedKernel} {shape : ShapeProfile} {bound : BoundModel}
    (h : buildBoundModel package binding target policy selectedKernels shape = .ok bound) :
    bound = {
      architecture := package.graph
      resolvedConfig := package.resolvedConfig.values
      binding
      executionShapes := shape.executionShapes
      target
      precisionPolicy := policy
      selectedKernels := if shape.paged then pagedKernels package.graph selectedKernels else selectedKernels } := by
  obtain ⟨_, -, h⟩ := Fallible.bind_ok h
  cases h; rfl

/-! ## Numbers -/

theorem manifestU32_of_getU32 {config : ResolvedModelConfig} {key : String} {n : Nat} (h : config.getU32 key = .ok n)
    (default : Nat) : manifestU32 config.values key default = n := by
  obtain ⟨m, hm, rfl⟩ := getU32_ok_iff.mp h
  rw [manifestU32, hm]
  rfl

section prepared

variable {digests : ContentDigests} {request : CompileRequest} {prepared : PreparedRequest}
  {encodings : QuantizationRegistry} {kernels : KernelRegistry}

/-- The manifest reads the numbers the lowering is configured with. -/
structure Prepares.Numbers (prepared : PreparedRequest) (c : DenseDecoderConfig) : Prop where
  vocab : prepared.package.resolvedConfig.getU32 "vocab_size" = .ok c.vocab
  numLayers : manifestU32 prepared.bound.resolvedConfig "num_layers" 1 = c.numLayers
  numKvHeads : manifestU32 prepared.bound.resolvedConfig "num_kv_heads" 1 = c.numKvHeads
  headDim : manifestU32 prepared.bound.resolvedConfig "head_dim" 64 = c.headDim

theorem Prepares.numbers (hp : Prepares digests request prepared encodings kernels) (portableAttn : Bool) :
    Prepares.Numbers prepared (.fromBoundModel portableAttn prepared.bound) := by
  obtain ⟨architecture, -, hpackage⟩ := Fallible.bind_ok hp.package
  obtain ⟨config, hresolve, hpackage⟩ := Fallible.bind_ok hpackage
  obtain ⟨hconfig, numLayers, vocab, block, schedule, shortConv, hreads, -⟩ := buildWithConfig_sigs hpackage
  have hvalues : prepared.bound.resolvedConfig = config.values := by rw [buildBoundModel_ok hp.bound, hconfig]
  have hsized := DenseDecoderConfig.sized_fromBoundModel hreads hvalues portableAttn
  constructor
  · rw [hconfig, hsized.vocab]
    exact hreads.vocab
  · rw [hvalues, hsized.numLayers]
    exact manifestU32_of_getU32 (numLayers_eq_getU32 hresolve hreads.numLayers) 1
  · rw [hvalues, hsized.numKvHeads]
    exact manifestU32_of_getU32 hreads.numKvHeads 1
  · rw [hvalues, hsized.headDim]
    exact manifestU32_of_getU32 hreads.headDim 64

/-! ## Pages -/

/-- The one attention kernel over pages, which the plain one outscores. -/
theorem online_outscored : ∀ candidate ∈ builtinCandidates, candidate.lowering = "attention.online_paged.generated" →
    candidate = semanticCandidate .attention "attention.online_paged.generated.f32" "attention.online_paged.generated"
      .f32 90 := by
  decide +kernel

theorem gqa_mem : semanticCandidate .attention "attention.gqa.generated.f32" "attention.gqa.generated" .f32 100 ∈
    builtinCandidates := by
  decide +kernel

/-- Coverage by itself selects no kernel over pages. -/
theorem not_online_selected (hcandidates : kernels.candidates = builtinCandidates) {request : KernelRequest}
    {target : TargetProfile} {report : SelectionReport} (h : kernels.select deterministicCost request target = .ok report)
    {selected : SelectedKernelCandidate} (hselected : report.selected = some selected) :
    selected.descriptor.lowering ≠ "attention.online_paged.generated" := by
  intro hlowering
  obtain ⟨⟨candidate, haccepts, rfl⟩, hprecedes⟩ := select_selected h hselected
  obtain rfl := online_outscored candidate (hcandidates ▸ haccepts.mem) hlowering
  have hgqa : Eligible kernels.candidates request target
      (semanticCandidate .attention "attention.gqa.generated.f32" "attention.gqa.generated" .f32 100) :=
    ⟨hcandidates ▸ gqa_mem, haccepts.operation, rejectionReasons_eq_nil_iff.mp haccepts.reasons⟩
  -- Both are for any backend, so their scores differ as registered.
  have hscore : (100 : Int) + (if TargetConstraint.any.backends.contains target.driver then 1000 else 0) ≤
      90 + (if TargetConstraint.any.backends.contains target.driver then 1000 else 0) := (hprecedes _ hgqa).score_le
  exact absurd (Int.le_of_add_le_add_right hscore) (by decide)

theorem Prepares.paged_of_pagedKv (hp : Prepares digests request prepared encodings kernels) {portableAttn : Bool}
    (h : (DenseDecoderConfig.fromBoundModel portableAttn prepared.bound).pagedKv = true) :
    prepared.shape.paged = true := by
  obtain ⟨operation, -, hoperation⟩ := List.any_eq_true.mp h
  obtain ⟨kernel, hkernel, hlowering⟩ := List.any_eq_true.mp ((Bool.and_eq_true _ _).mp hoperation).2
  by_contra hstatic
  rw [buildBoundModel_ok hp.bound] at hkernel
  simp only [hstatic, Bool.false_eq_true, if_false] at hkernel
  obtain ⟨operation', -, mode, -, selected, hselected, rfl⟩ := mem_selectedKernels.mp hkernel
  obtain ⟨report, hreport, hreported, -⟩ :=
    exists_selection prepared.catalog.parameters prepared.plan encodings kernels request.target {} operation' mode
  exact not_online_selected (default_candidates hp.definitions hp.candidates) hreport (hreported.symm.trans hselected)
    (eq_of_beq ((Bool.and_eq_true _ _).mp hlowering).2)

/-- What is lowered is paged exactly where its shape is. -/
theorem Prepares.pagedKv_eq_paged (hp : Prepares digests request prepared encodings kernels) {portableAttn : Bool}
    (h : (DenseDecoderConfig.fromBoundModel portableAttn prepared.bound).supportsDenseEmit = true) :
    (DenseDecoderConfig.fromBoundModel portableAttn prepared.bound).pagedKv = prepared.shape.paged := by
  cases hpaged : (DenseDecoderConfig.fromBoundModel portableAttn prepared.bound).pagedKv with
  | true => exact (hp.paged_of_pagedKv hpaged).symm
  | false =>
    by_contra hshape
    have hshape : prepared.shape.paged = true := by simpa using Ne.symm hshape
    have hseq : (DenseDecoderConfig.fromBoundModel portableAttn prepared.bound).seq = pagedPrefillChunkSize := by
      rw [buildBoundModel_ok hp.bound]
      simp [DenseDecoderConfig.fromBoundModel, ShapeProfile.executionShapes, ShapeProfile.prefill, hshape]
    simp only [DenseDecoderConfig.supportsDenseEmit, hpaged, hseq, decide_eq_true_eq] at h
    simp [pagedPrefillChunkSize] at h

end prepared

end Dyninfer
