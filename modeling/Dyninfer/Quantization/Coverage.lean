/-
The dry run of kernel selection (`dyninfer-quantization/src/lib.rs`): one
request for every operation and every exported mode, over the operation's first
parameter, and the report of what was selected and what stands against it.
-/
import Dyninfer.Lib.AssocMap
import Dyninfer.Quantization.Definitions

namespace Dyninfer

/-- `physical_encoding_key`. -/
def physicalEncodingKey : PhysicalEncoding → EncodingKey
  | .plain storageType _ => ⟨PlainDefinition.id storageType, 1⟩
  | .blockQuantized q => ⟨q.codec, q.codecVersion⟩
  | .opaqueCodec codec codecVersion _ => ⟨codec, codecVersion⟩
  | .groupQuantized q => ⟨q.packing, 1⟩
  | .sparse _ format _ => ⟨format, 1⟩

/-- The modes of the exports, each once and in order. -/
def ArchitectureGraph.exportModes (graph : ArchitectureGraph) : List ExecutionMode :=
  [.prefill, .decode].filter fun mode => graph.exports.any (·.mode == mode)

structure OperationCoverage where
  operationId : String
  operation : KernelOperationKind
  mode : ExecutionMode
  encoding : Option EncodingKey
  selected : Option SelectedKernelCandidate
  rejected : List (String × List CandidateRejectionReason)
  logicalShape : Option Shape
  parameterSlots : List String
  checkpointComponentKeys : List String
  validationError : Option String
  deriving DecidableEq, Repr

structure CoverageReport where
  target : TargetProfile
  targetFingerprint : String
  precisionPolicy : PrecisionPolicy
  operations : List OperationCoverage
  deriving DecidableEq, Repr

namespace OperationCoverage

variable (coverage : OperationCoverage)

def isCovered : Bool := coverage.selected.isSome && coverage.validationError.isNone

/-- The kernel a candidate is for the operation. -/
def kernel (selected : SelectedKernelCandidate) : SelectedKernel where
  operationId := coverage.operationId
  mode := coverage.mode
  kernelId := selected.descriptor.id
  loweringId := selected.descriptor.lowering
  parameterSlots := coverage.parameterSlots
  inputType := selected.inputType
  outputType := selected.outputType
  activationType := selected.activationType
  accumulatorType := selected.accumulatorType

end OperationCoverage

namespace CoverageReport

variable (report : CoverageReport)

def isComplete : Bool := report.operations.all (·.isCovered)

def selectedKernels : List SelectedKernel :=
  report.operations.filterMap fun operation => operation.selected.map operation.kernel

def requireComplete : Except DynInferError Unit :=
  if report.isComplete then .ok ()
  else .error (.compilation {
    message := "bound model has incomplete production kernel coverage", pass := some "kernel.coverage" })

end CoverageReport

/-- `definitions_by_slot`: the first parameter of the name a binding carries. -/
def definitionsBySlot (parameters : List LogicalParameter) (binding : BindingPlan) :
    AssocMap String LogicalParameter :=
  AssocMap.insertAll [] Prod.fst Prod.snd (binding.bindings.filterMap fun bound =>
    (parameters.find? (·.canonicalName == bound.canonicalName)).map fun parameter => (bound.slotId, parameter))

/-- `bindings_by_slot`. -/
def bindingsBySlot (binding : BindingPlan) : AssocMap String ParameterBinding :=
  AssocMap.insertAll [] (·.slotId) id binding.bindings

/-- What is wrong with an operation's first parameter. -/
def parameterError (encodings : QuantizationRegistry) (operation : ArchitectureOperation) :
    Option LogicalParameter → Option String
  | some parameter =>
    match encodings.resolve parameter.encoding with
    | some definition =>
      match definition.validate parameter with
      | .ok _ => none
      | .error e => some e.text
    | none =>
      let key := physicalEncodingKey parameter.encoding
      some s!"no encoding definition registered for `{key.id}@{key.version}`"
  | none =>
    if operation.parameters.isEmpty then none else some "operation parameter is not present in binding plan"

/-- Only a binding through a logical transpose is not native. -/
def bindingOrientation : Option ParameterBinding → ParameterOrientation
  | some { transform := .logicalTranspose _, .. } => .logicalTranspose
  | _ => .native

/-- The first parameter of an operation, as coverage looks it up. -/
def firstParameter (parameters : List LogicalParameter) (binding : BindingPlan) (operation : ArchitectureOperation) :
    Option LogicalParameter :=
  operation.parameters.head?.bind fun slot => (definitionsBySlot parameters binding).get slot

def firstBinding (binding : BindingPlan) (operation : ArchitectureOperation) : Option ParameterBinding :=
  operation.parameters.head?.bind fun slot => (bindingsBySlot binding).get slot

section coverage

variable (parameters : List LogicalParameter) (binding : BindingPlan) (encodings : QuantizationRegistry)
  (kernels : KernelRegistry) (target : TargetProfile) (policy : PrecisionPolicy)

/-- The request of an operation in a mode. -/
def kernelRequest (operation : ArchitectureOperation) (mode : ExecutionMode) : KernelRequest where
  operation := .fromSemantic operation.kind
  encoding := (firstParameter parameters binding operation).map fun p => physicalEncodingKey p.encoding
  logicalShape := (firstBinding binding operation).map (·.logicalShape)
  orientation := bindingOrientation (firstBinding binding operation)
  mode
  precisionPolicy := policy

/-- One operation in one mode; nothing is selected where the cost model fails. -/
def operationCoverage (operation : ArchitectureOperation) (mode : ExecutionMode) : OperationCoverage :=
  let request := kernelRequest parameters binding policy operation mode
  let selection := kernels.select deterministicCost request target
  let report := selection.toOption.getD { selected := none, rejected := [] }
  { operationId := operation.id
    operation := request.operation
    mode
    encoding := request.encoding
    selected := report.selected
    rejected := report.rejected
    logicalShape := request.logicalShape
    parameterSlots := operation.parameters
    checkpointComponentKeys :=
      ((firstBinding binding operation).map fun b => b.components.map (·.externalKey)).getD []
    validationError := match selection with
      | .ok _ => parameterError encodings operation (firstParameter parameters binding operation)
      | .error e => some e.text }

/-- `dry_run_coverage`. -/
def dryRunCoverage (graph : ArchitectureGraph) : CoverageReport where
  target
  targetFingerprint := target.capabilityFingerprint
  precisionPolicy := policy
  operations := graph.operations.flatMap fun operation => graph.exportModes.map fun mode =>
    operationCoverage parameters binding encodings kernels target policy operation mode

end coverage

end Dyninfer
