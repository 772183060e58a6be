/-
From a checkpoint to a compilation (`dyninfer-runtime/src/model.rs`): naming,
configuration, binding, coverage and the bound model, and the cache key under
which the compilation is kept (`dyninfer-cache`). The digests are parameters.
-/
import Dyninfer.Architecture.Naming
import Dyninfer.Binding.Binder
import Dyninfer.Compiler.Compile

namespace Dyninfer

/-- SHA-256 over each kind of content that is hashed. -/
structure ContentDigests where
  schema : List FingerprintEntry → String
  architecture : String × String × ArchitectureGraph → String
  resolvedConfig : ResolvedModelConfig → String
  options : CompileOptions → String
  plan : BindingPlan → String
  policy : PrecisionPolicy → String
  shape : ShapeProfile → String
  /-- Over the text of every field but the fingerprint itself. -/
  target : TargetProfile → String

/-- The profile's fingerprint is that of its fields, as every constructor leaves it. -/
def TargetProfile.IsFingerprinted (digests : ContentDigests) (target : TargetProfile) : Prop :=
  target.capabilityFingerprint = digests.target { target with capabilityFingerprint := "" }

/-- The arguments of `compile_to_bundle_with_overrides`: the checkpoint as inspected and the target as
resolved. -/
structure CompileRequest where
  architectureId : String
  checkpoint : CheckpointCatalog
  target : TargetProfile
  options : CompileOptions
  overrides : MetadataMap

/-- What `compile_to_bundle_with_overrides` has before it looks into the cache. -/
structure PreparedRequest where
  package : ArchitecturePackage
  catalog : CheckpointCatalog
  plan : BindingPlan
  shape : ShapeProfile
  bound : BoundModel

namespace CompileRequest

variable (digests : ContentDigests) (request : CompileRequest)

/-- `ModelLoader::bind`. -/
def bind : Except DynInferError (ArchitecturePackage × CheckpointCatalog × BindingPlan) := do
  let catalog ← ArchitectureRegistry.applyNaming digests.schema request.architectureId request.checkpoint
  let package ← ArchitectureRegistry.buildPackage request.architectureId request.overrides catalog.metadata
  let plan ← Binder.bind {} package catalog
  return (package, catalog, plan)

def prepare : Except DynInferError PreparedRequest := do
  let (package, catalog, plan) ← request.bind digests
  let shape := defaultShapeProfile package
  let encodings ← defaultQuantizationRegistry
  let kernels ← defaultKernelRegistry encodings
  let coverage := dryRunCoverage catalog.parameters plan encodings kernels request.target {} package.graph
  coverage.requireComplete
  let bound ← buildBoundModel package plan request.target {} coverage.selectedKernels shape
  return { package, catalog, plan, shape, bound }

end CompileRequest

/-- The compilation of a prepared request. -/
def PreparedRequest.input (prepared : PreparedRequest) : CompileInput where
  bound := prepared.bound
  revision := prepared.package.revision
  schema := prepared.catalog.schemaFingerprint
  shape := prepared.shape

/-! ## The cache key -/

structure CacheKey where
  architectureId : String
  architectureRevision : String
  architectureDigest : String
  resolvedConfigDigest : String
  bindingPlanDigest : String
  checkpointSchema : String
  targetFingerprint : String
  precisionPolicyDigest : String
  shapeProfileDigest : String
  kernelRegistryVersion : String
  compilerVersion : String
  ireeRevision : String
  compileOptionsDigest : String
  deriving DecidableEq, Repr

/-- `COMPILER_VERSION`. -/
def compilerVersion : String := "0.3.0-iree-3.11.0-paged-kv-v11.01-bool-mask"

/-- `IREE_REVISION`. -/
def ireeRevision : String := "3.11.0+e4a3b0405d7d"

/-- `cache_key_for`, through `make_cache_key`. -/
def cacheKeyFor (digests : ContentDigests) (prepared : PreparedRequest) (options : CompileOptions) : CacheKey where
  architectureId := prepared.package.id
  architectureRevision := prepared.package.revision
  architectureDigest := digests.architecture (prepared.package.id, prepared.package.revision, prepared.package.graph)
  resolvedConfigDigest := digests.resolvedConfig prepared.package.resolvedConfig
  bindingPlanDigest := digests.plan prepared.plan
  checkpointSchema := prepared.catalog.schemaFingerprint.digest
  targetFingerprint := prepared.bound.target.capabilityFingerprint
  precisionPolicyDigest := digests.policy prepared.bound.precisionPolicy
  shapeProfileDigest := digests.shape prepared.shape
  kernelRegistryVersion := KernelRegistry.version
  compilerVersion
  ireeRevision
  compileOptionsDigest := digests.options options

end Dyninfer
