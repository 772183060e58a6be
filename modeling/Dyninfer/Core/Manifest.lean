/-
The manifest of an executable bundle (`ExecutableManifest`), as the compiler
writes it and the loader reads it.
-/
import Dyninfer.Core.Bound

namespace Dyninfer

structure ManifestParameterComponent where
  scope : String
  key : String
  byteLength : Nat
  deriving DecidableEq, Repr

structure ExecutableManifest where
  format : String
  version : Nat
  architectureId : String
  architectureRevision : String
  checkpointSchema : SchemaFingerprint
  target : TargetProfile
  precisionPolicy : PrecisionPolicy
  selectedKernels : List SelectedKernel
  shapeProfile : ShapeProfile
  entrypoints : List String
  kvCache : KvCacheDescriptor
  parameterScope : String
  parameterComponents : List ManifestParameterComponent
  derivedParametersRequired : Bool
  vmfbPath : String
  prefillWindow : Nat
  diagnostics : List String
  deriving DecidableEq, Repr

end Dyninfer
