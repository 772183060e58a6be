/-
A loaded model (`dyninfer-runtime/src/model.rs`): what `load_bundle` checks of
a bundle against the checkpoint and the host, and the metadata it gives its
sessions. The layers and heads are the manifest's; the vocabulary is read off
the checkpoint.
-/
import Dyninfer.Checkpoint.Provider
import Dyninfer.Lib.Fallible
import Dyninfer.Runtime.Bundle
import Dyninfer.Runtime.CompileRequest
import Dyninfer.Runtime.Shim

namespace Dyninfer

/-- `TargetProfile::runtime_device`. -/
def TargetProfile.runtimeDevice (target : TargetProfile) : String :=
  (target.deviceUri.filter (!·.isEmpty)).getD target.driver

/-- What a load asks its host for. -/
structure RuntimeHost where
  /-- `TargetDiscovery::resolve`. -/
  resolveTarget : String → Except DynInferError TargetProfile
  /-- The parameter files are opened, and the modules on the device. -/
  openExecutable : BundleArtifacts → RuntimeProviderPlan → Except DynInferError Unit

structure LoadedModel where
  metadata : ModelMetadata
  manifest : ExecutableManifest
  binding : BindingPlan
  catalog : CheckpointCatalog

/-- A bundle that does not fit where it is loaded. -/
def bundleError (message digest bundle : String) : DynInferError :=
  .cache { message, digest := some digest, path := some bundle }

/-- The component lengths a manifest expects. -/
def expectedComponents (manifest : ExecutableManifest) : AssocMap (String × String) Nat :=
  AssocMap.insertAll [] (fun component => (component.scope, component.key)) (·.byteLength) manifest.parameterComponents

/-- The component lengths of a provider plan. -/
def actualComponents (plan : RuntimeProviderPlan) : AssocMap (String × String) Nat :=
  AssocMap.insertAll [] (fun parameter => (plan.scope, parameter.externalKey)) (·.length) plan.parameters

/-! ## Metadata -/

/-- The value of the first key there is. -/
def firstPresent (metadata : MetadataMap) (keys : List String) : Option Json := keys.findSome? metadata.get

/-- The parameters whose rows are the vocabulary. -/
def isVocabularyTable (param : LogicalParameter) : Bool :=
  param.canonicalName == "token_embd.weight" || param.canonicalName == "output.weight"

/-- What the metadata have of a vocabulary. -/
def CheckpointCatalog.vocabularyEntry (catalog : CheckpointCatalog) : Option Json :=
  firstPresent catalog.metadata ["vocab_size", "llama.vocab_size", "qwen3.vocab_size"]

/-- `vocabulary_size`. -/
def loadedVocabulary (catalog : CheckpointCatalog) : Nat :=
  asU32 <| ((catalog.vocabularyEntry.bind Json.asU64).or
    ((catalog.parameters.find? isVocabularyTable).bind (·.logicalType.shape.head?))).getD 32000

def loadedMetadata (manifest : ExecutableManifest) (catalog : CheckpointCatalog) : ModelMetadata where
  architectureId := manifest.architectureId
  architectureRevision := manifest.architectureRevision
  vocabularySize := loadedVocabulary catalog
  contextLength := manifest.kvCache.maxSequenceLength
  numLayers := manifest.kvCache.layerCount
  numHeads := asU32 <| ((firstPresent catalog.metadata ["num_heads", "llama.attention.head_count"]).bind
    Json.asU64).getD manifest.kvCache.kvHeadCount
  numKvHeads := manifest.kvCache.kvHeadCount
  headDim := manifest.kvCache.headDimension
  hiddenSize := asU32 <| ((firstPresent catalog.metadata ["hidden_size", "llama.embedding_length"]).bind
    Json.asU64).getD 0
  extra := catalog.metadata

/-! ## Loading -/

section load

variable (digests : ContentDigests) (host : RuntimeHost) (checkpoint : CheckpointCatalog) (bundle : String)

/-- `load_bundle`, from the files it resolved. -/
def openModel (artifacts : BundleArtifacts) : Except DynInferError LoadedModel := do
  let manifest := artifacts.manifest
  let catalog ← ArchitectureRegistry.applyNaming digests.schema manifest.architectureId checkpoint
  Fallible.ensure (catalog.schemaFingerprint.digest = manifest.checkpointSchema.digest)
    (bundleError "checkpoint schema does not match bundle" manifest.checkpointSchema.digest bundle)
  let localTarget ← host.resolveTarget manifest.target.runtimeDevice
  Fallible.ensure (localTarget.capabilityFingerprint = manifest.target.capabilityFingerprint)
    (bundleError
      s!"bundle target fingerprint does not match the currently discovered device `{manifest.target.runtimeDevice}`"
      manifest.target.capabilityFingerprint bundle)
  Fallible.ensure (manifest.derivedParametersRequired = false)
    (bundleError "bundle requests forbidden derived parameters" manifest.checkpointSchema.digest bundle)
  let providerPlan ← buildRuntimeProviderPlan catalog artifacts.plan
  Fallible.ensure ((expectedComponents manifest).sameEntries (actualComponents providerPlan) = true)
    (bundleError "checkpoint component keys or lengths do not match bundle manifest" manifest.checkpointSchema.digest
      bundle)
  host.openExecutable artifacts providerPlan
  return { metadata := loadedMetadata manifest catalog, manifest, binding := artifacts.plan, catalog }

/-- `load_bundle`. -/
def loadModel (codec : BundleCodec) (dir : OutputDir) : Except DynInferError LoadedModel := do
  let artifacts ← loadBundle codec (fun _ => .ok ()) bundle dir
  openModel digests host checkpoint bundle artifacts

end load

end Dyninfer
