/-
The kernel registry (`dyninfer-kernel-registry`): candidates with their
constraints, what speaks against a candidate in a request, and the selection of
the best accepted one, by score and then by id. The candidates of operations
without encoded parameters are registered here.
-/
import Mathlib.Data.List.Sort
import Dyninfer.Core.Bound
import Dyninfer.Core.Error

namespace Dyninfer

inductive KernelOperationKind where
  | input | embedding | linear | rmsNorm | perHeadRmsNorm | rope | kvCacheWrite | kvCacheRead
  | attention | shortConv | silu | multiply | residual | outputProjection
  deriving DecidableEq, Repr

namespace KernelOperationKind

def fromSemantic : OperationKind → KernelOperationKind
  | .input => .input
  | .embedding => .embedding
  | .linear _ => .linear
  | .rmsNorm _ => .rmsNorm
  | .perHeadRmsNorm .. => .perHeadRmsNorm
  | .rope .. => .rope
  | .kvCacheWrite .. => .kvCacheWrite
  | .kvCacheRead .. => .kvCacheRead
  | .attention .. => .attention
  | .shortConv .. => .shortConv
  | .elementwise .silu => .silu
  | .elementwise .multiply => .multiply
  | .residual => .residual
  | .outputProjection => .outputProjection

def isPrecisionSensitive : KernelOperationKind → Bool
  | .rmsNorm | .perHeadRmsNorm | .rope | .attention => true
  | _ => false

end KernelOperationKind

structure EncodingKey where
  id : String
  version : Nat
  deriving DecidableEq, Repr

inductive ParameterOrientation where
  | native | logicalTranspose
  deriving DecidableEq, Repr

structure AxisMultiple where
  axis : Nat
  multipleOf : Nat
  deriving DecidableEq, Repr

structure ShapeConstraint where
  logicalRank : Option Nat := none
  axisMultiples : List AxisMultiple := []
  deriving DecidableEq, Repr

structure TargetConstraint where
  backends : List String
  exactArchitectures : List String := []
  requiredFeatures : List String := []
  deriving DecidableEq, Repr

/-- `TargetConstraint::any`. -/
def TargetConstraint.any : TargetConstraint where
  backends := ["any"]

inductive ProductionReadiness where
  | prototype | production
  deriving DecidableEq, Repr

/-- `KernelCandidateDescriptor`, without its notes. -/
structure KernelCandidateDescriptor where
  id : String
  operation : KernelOperationKind
  encoding : Option EncodingKey
  inputTypes : List ScalarType
  outputTypes : List ScalarType
  accumulatorTypes : List ScalarType
  shape : ShapeConstraint
  orientations : List ParameterOrientation
  target : TargetConstraint
  modes : List ExecutionMode
  lowering : String
  deterministicScore : Int
  readiness : ProductionReadiness
  deriving DecidableEq, Repr

/-- `KernelRequest`, with the fields that selection reads. -/
structure KernelRequest where
  operation : KernelOperationKind
  encoding : Option EncodingKey
  logicalShape : Option Shape
  orientation : ParameterOrientation
  mode : ExecutionMode
  precisionPolicy : PrecisionPolicy

inductive CandidateRejectionReason where
  | encodingMismatch
  | notProductionReady
  | modeMismatch
  | backendMismatch (selected : String)
  | architectureMismatch (selected : Option String)
  | missingTargetFeature (feature : String)
  | rankMismatch (expected actual : Nat)
  | axisNotDivisible (axis dimension multipleOf : Nat)
  | orientationMismatch
  | precisionFloor (required : ScalarType) (supported : List ScalarType)
  | missingTypeChoice
  deriving DecidableEq, Repr

/-- One reason where a test holds. -/
def reasonIf (c : Bool) (reason : CandidateRejectionReason) : List CandidateRejectionReason :=
  if c then [reason] else []

/-- The rank and the axes of a parameter against a candidate's constraint. -/
def shapeReasons (constraint : ShapeConstraint) : Option Shape → List CandidateRejectionReason
  | none => []
  | some shape =>
    (match constraint.logicalRank with
      | some expected => reasonIf (shape.length != expected) (.rankMismatch expected shape.length)
      | none => []) ++
    constraint.axisMultiples.flatMap fun multiple =>
      match shape[multiple.axis]? with
      | some dimension =>
        reasonIf (multiple.multipleOf == 0 || dimension % multiple.multipleOf != 0)
          (.axisNotDivisible multiple.axis dimension multiple.multipleOf)
      | none => []

/-- The types a candidate offers, against the precision the request asks of a sensitive operation. -/
def typeReasons (candidate : KernelCandidateDescriptor) (request : KernelRequest) : List CandidateRejectionReason :=
  if candidate.inputTypes.isEmpty || candidate.outputTypes.isEmpty || candidate.accumulatorTypes.isEmpty then
    [.missingTypeChoice]
  else reasonIf (request.operation.isPrecisionSensitive &&
      !candidate.accumulatorTypes.contains request.precisionPolicy.sensitiveInternalType)
    (.precisionFloor request.precisionPolicy.sensitiveInternalType candidate.accumulatorTypes)

/-- `rejection_reasons`. -/
def rejectionReasons (candidate : KernelCandidateDescriptor) (request : KernelRequest) (target : TargetProfile) :
    List CandidateRejectionReason :=
  reasonIf (candidate.encoding != request.encoding) .encodingMismatch ++
  reasonIf (candidate.readiness != .production) .notProductionReady ++
  reasonIf (!candidate.modes.contains request.mode) .modeMismatch ++
  reasonIf (!candidate.target.backends.any fun backend => backend == "any" || backend == target.driver)
    (.backendMismatch target.driver) ++
  reasonIf (!candidate.target.exactArchitectures.isEmpty &&
      !target.architecture.any fun architecture => candidate.target.exactArchitectures.contains architecture)
    (.architectureMismatch target.architecture) ++
  candidate.target.requiredFeatures.flatMap (fun feature =>
    reasonIf (!target.features.contains feature) (.missingTargetFeature feature)) ++
  shapeReasons candidate.shape request.logicalShape ++
  reasonIf (!candidate.orientations.isEmpty && !candidate.orientations.contains request.orientation)
    .orientationMismatch ++
  typeReasons candidate request

structure SelectedKernelCandidate where
  descriptor : KernelCandidateDescriptor
  inputType : ScalarType
  outputType : ScalarType
  activationType : ScalarType
  accumulatorType : ScalarType
  score : Int
  deriving DecidableEq, Repr

/-- `DeterministicCostModel::score`: an exactly named backend counts most. -/
def deterministicScore (candidate : KernelCandidateDescriptor) (target : TargetProfile) : Int :=
  candidate.deterministicScore + if candidate.target.backends.contains target.driver then 1000 else 0

/-- `KernelCostModel::score`. -/
abbrev KernelCost := KernelCandidateDescriptor → KernelRequest → TargetProfile → Except DynInferError Int

/-- `DeterministicCostModel`. -/
def deterministicCost : KernelCost := fun candidate _ target => .ok (deterministicScore candidate target)

/-- An accepted candidate with its first types and a score; a sensitive operation accumulates as the policy says. -/
def selectCandidate (candidate : KernelCandidateDescriptor) (request : KernelRequest) (score : Int) :
    SelectedKernelCandidate where
  descriptor := candidate
  inputType := candidate.inputTypes.headD .f32
  outputType := candidate.outputTypes.headD .f32
  activationType := candidate.inputTypes.headD .f32
  accumulatorType := if request.operation.isPrecisionSensitive then request.precisionPolicy.sensitiveInternalType
    else candidate.accumulatorTypes.headD .f32
  score

/-- The order of selection: a higher score first, then the smaller id. -/
def SelectedKernelCandidate.Precedes (left right : SelectedKernelCandidate) : Prop :=
  right.score < left.score ∨ right.score = left.score ∧ left.descriptor.id ≤ right.descriptor.id

instance (left right : SelectedKernelCandidate) : Decidable (left.Precedes right) := by
  unfold SelectedKernelCandidate.Precedes; infer_instance

structure SelectionReport where
  selected : Option SelectedKernelCandidate
  rejected : List (String × List CandidateRejectionReason)
  deriving DecidableEq, Repr

structure KernelRegistry where
  candidates : List KernelCandidateDescriptor := []

namespace KernelRegistry

/-- `KernelRegistry::VERSION`. -/
def version : String := "5"

def register (registry : KernelRegistry) (candidate : KernelCandidateDescriptor) :
    Except DynInferError KernelRegistry :=
  if registry.candidates.any (·.id == candidate.id) then
    .error (.internal s!"duplicate kernel candidate `{candidate.id}`")
  else .ok { candidates := registry.candidates ++ [candidate] }

/-- The accepted and the rejected candidates so far, and one more candidate. -/
def selectStep (cost : KernelCost) (request : KernelRequest) (target : TargetProfile)
    (lists : List SelectedKernelCandidate × List (String × List CandidateRejectionReason))
    (candidate : KernelCandidateDescriptor) :
    Except DynInferError (List SelectedKernelCandidate × List (String × List CandidateRejectionReason)) :=
  let reasons := rejectionReasons candidate request target
  if reasons.isEmpty then do
    let score ← cost candidate request target
    return (lists.1 ++ [selectCandidate candidate request score], lists.2)
  else return (lists.1, lists.2 ++ [(candidate.id, reasons)])

/-- `KernelRegistry::select`. -/
def select (registry : KernelRegistry) (cost : KernelCost) (request : KernelRequest) (target : TargetProfile) :
    Except DynInferError SelectionReport := do
  let (accepted, rejected) ← (registry.candidates.filter (·.operation == request.operation)).foldlM
    (selectStep cost request target) ([], [])
  return { selected := (accepted.insertionSort SelectedKernelCandidate.Precedes).head?, rejected }

end KernelRegistry

/-- A candidate of an operation without an encoded parameter. -/
def semanticCandidate (operation : KernelOperationKind) (id lowering : String) (scalar : ScalarType) (score : Int) :
    KernelCandidateDescriptor where
  id
  operation
  encoding := none
  inputTypes := [scalar]
  outputTypes := [scalar]
  accumulatorTypes := [scalar]
  shape := {}
  orientations := [.native]
  target := .any
  modes := [.prefill, .decode]
  lowering
  deterministicScore := score
  readiness := .production

/-- The candidates of `register_builtin_semantic_candidates`. -/
def builtinSemanticCandidates : List KernelCandidateDescriptor :=
  [semanticCandidate .input "model.input.abi" "model.input.abi" .i64 100,
    semanticCandidate .rope "rope.generated.f32" "rope.generated" .f32 100,
    semanticCandidate .kvCacheWrite "kv_cache.write.generated" "kv_cache.write.generated" .f32 100,
    semanticCandidate .kvCacheRead "kv_cache.read.generated" "kv_cache.read.generated" .f32 100,
    semanticCandidate .attention "attention.gqa.generated.f32" "attention.gqa.generated" .f32 100,
    semanticCandidate .silu "elementwise.silu.generated.f32" "elementwise.silu.generated" .f32 100,
    semanticCandidate .multiply "elementwise.multiply.generated.f32" "elementwise.multiply.generated" .f32 100,
    semanticCandidate .residual "residual.add.generated.f32" "residual.add.generated" .f32 100,
    semanticCandidate .attention "attention.online_paged.generated.f32" "attention.online_paged.generated" .f32 90]

def registerBuiltinSemanticCandidates (registry : KernelRegistry) : Except DynInferError KernelRegistry :=
  builtinSemanticCandidates.foldlM KernelRegistry.register registry

end Dyninfer
