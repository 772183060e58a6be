/-
The runtime's provider plan (`provider.rs`): where each bound component lies in
the checkpoint's files. A bound parameter is looked up by the name of its slot,
at its first occurrence, and its components by name and storage key.
-/
import Dyninfer.Checkpoint.Catalog
import Dyninfer.Core.Error

namespace Dyninfer

structure ProviderParameterDescriptor where
  externalKey : String
  aliases : List String
  sourceFileIndex : Nat
  offset : Nat
  length : Nat
  deriving DecidableEq, Repr

structure RuntimeProviderPlan where
  kind : String
  scope : String
  filePaths : List String
  parameters : List ProviderParameterDescriptor
  notes : List String
  deriving DecidableEq, Repr

def providerError (message : String) (slot checkpointKey : Option String) : DynInferError :=
  .binding { message, slot, checkpointKey }

/-- The first catalog parameter with the slot's name. -/
def planParameter (catalog : CheckpointCatalog) (bound : ParameterBinding) : Except DynInferError LogicalParameter :=
  match catalog.parameters.find? (·.canonicalName == bound.canonicalName) with
  | some parameter => .ok parameter
  | none => .error (providerError "bound logical parameter is absent from checkpoint catalog" (some bound.slotId)
      (some bound.canonicalName))

/-- The first component with the bound component's name and key. -/
def planComponent (bound : ParameterBinding) (parameter : LogicalParameter)
    (componentBinding : ParameterComponentBinding) : Except DynInferError StorageComponent :=
  match parameter.components.find? fun component =>
      component.name == componentBinding.componentName && component.key == componentBinding.checkpointKey with
  | some component =>
    if component.sourceFileIndex ≠ componentBinding.sourceFileIndex then
      .error (providerError "bound component source file differs from checkpoint catalog" (some bound.slotId)
        (some component.key))
    else .ok component
  | none => .error (providerError "bound storage component is absent from checkpoint catalog" (some bound.slotId)
      (some componentBinding.checkpointKey))

/-- The one byte range of a component, of the bound length. -/
def planRange (bound : ParameterBinding) (componentBinding : ParameterComponentBinding) (component : StorageComponent) :
    Except DynInferError ByteRange :=
  match component.byteRanges with
  | [range] =>
    if componentBinding.byteLengths ≠ [range.length] then
      .error (providerError "bound component length differs from checkpoint catalog" (some bound.slotId)
        (some component.key))
    else .ok range
  | _ => .error (providerError "direct parameter components must occupy one contiguous byte range" (some bound.slotId)
      (some component.key))

/-- A range lies in its source file, and is not empty. -/
def checkRange (catalog : CheckpointCatalog) (bound : ParameterBinding) (component : StorageComponent)
    (range : ByteRange) : Except DynInferError Unit :=
  match catalog.sourceFiles[component.sourceFileIndex]? with
  | none => .error (providerError "component source_file_index is out of range" (some bound.slotId)
      (some component.key))
  | some source =>
    if range.offset + range.length ≥ 2 ^ 64 then
      .error (providerError "component byte range overflows" (some bound.slotId) (some component.key))
    else if range.length = 0 ∨ range.offset + range.length > source.sizeBytes then
      .error (providerError
        s!"component byte range [{range.offset}, {range.offset + range.length}) exceeds source size {source.sizeBytes}"
        (some bound.slotId) (some component.key))
    else .ok ()

/-- One more descriptor; the external keys so far are those of the descriptors. -/
def planDescriptor (catalog : CheckpointCatalog) (bound : ParameterBinding) (parameter : LogicalParameter)
    (descriptors : List ProviderParameterDescriptor) (componentBinding : ParameterComponentBinding) :
    Except DynInferError (List ProviderParameterDescriptor) := do
  let component ← planComponent bound parameter componentBinding
  let range ← planRange bound componentBinding component
  checkRange catalog bound component range
  if componentBinding.externalKey ∈ descriptors.map (·.externalKey) then
    throw (providerError "duplicate stable external parameter key" (some bound.slotId)
      (some componentBinding.externalKey))
  else return descriptors ++ [{
    externalKey := componentBinding.externalKey
    aliases := [componentBinding.checkpointKey]
    sourceFileIndex := component.sourceFileIndex
    offset := range.offset
    length := range.length }]

def planBound (catalog : CheckpointCatalog) (descriptors : List ProviderParameterDescriptor)
    (bound : ParameterBinding) : Except DynInferError (List ProviderParameterDescriptor) := do
  let parameter ← planParameter catalog bound
  bound.components.foldlM (planDescriptor catalog bound parameter) descriptors

/-- `build_runtime_provider_plan`. -/
def buildRuntimeProviderPlan (catalog : CheckpointCatalog) (binding : BindingPlan) :
    Except DynInferError RuntimeProviderPlan := do
  if catalog.sourceFiles.isEmpty then throw (providerError "checkpoint has no source files" none none)
  let descriptors ← binding.bindings.foldlM (planBound catalog) []
  return {
    kind := "direct-file-ranges-v1"
    scope := "weights"
    filePaths := catalog.sourceFiles.map (·.path)
    parameters := descriptors.mergeSort fun a b => decide (a.externalKey ≤ b.externalKey)
    notes := ["Entries reference original checkpoint files; aliases serve legacy MLIR keys"] }

end Dyninfer
