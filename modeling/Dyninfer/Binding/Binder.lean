/-
The binder (`dyninfer-binding`): each slot of an architecture is looked up by
its canonical name, checked against the parameter found, and bound to its
storage. A later parameter of a name replaces an earlier one; an alias counts
where no parameter has the name.
-/
import Dyninfer.Architecture.Models
import Dyninfer.Checkpoint.Catalog

namespace Dyninfer

/-- The text of a shape. -/
def Shape.text (shape : Shape) : String := Text.bracketed (shape.map toString)

/-- `Binder`. -/
structure Binder where
  parameterScope : String := "weights"

/-- The parameters by name: a later one replaces an earlier one, and an alias fills a gap. -/
def byName (parameters : List LogicalParameter) : AssocMap String LogicalParameter :=
  parameters.foldl (fun m p => p.aliases.foldl (fun m key => m.orInsert key p) m)
    (AssocMap.insertAll [] LogicalParameter.canonicalName id parameters)

/-- `roles_compatible`: roles of no known kind agree with every role. -/
def rolesCompatible : ParameterRole → ParameterRole → Bool
  | _, .other _ => true
  | .other _, _ => true
  | slot, param => slot == param

/-- The total length of a parameter's storage. -/
def LogicalParameter.storageBytes (param : LogicalParameter) : Nat :=
  saturatingSum (param.components.flatMap fun component => component.byteRanges.map (·.length))

def LogicalParameter.alignment (param : LogicalParameter) : Nat := (param.components.head?.map (·.alignment)).getD 1

def bindingError (message : String) (slot : ParameterSlot) (checkpointKey expected actual : Option String) :
    DynInferError :=
  .binding { message, slot := some slot.id, checkpointKey, expected, actual }

/-! ## The checks of `bind_slot` -/

def checkRank (slot : ParameterSlot) (param : LogicalParameter) : Except DynInferError Unit :=
  match slot.expectedType.rank with
  | none => .ok ()
  | some rank =>
    if param.logicalType.shape.length ≠ rank then
      .error (bindingError "parameter rank mismatch" slot (some (param.aliases.head?.getD ""))
        (some s!"rank {rank}") (some s!"rank {param.logicalType.shape.length}"))
    else .ok ()

def checkShape (slot : ParameterSlot) (param : LogicalParameter) : Except DynInferError Unit :=
  match slot.expectedType.shape with
  | none => .ok ()
  | some expected =>
    if param.logicalType.shape ≠ expected then
      .error (bindingError "parameter shape mismatch" slot (some param.canonicalName)
        (some (Shape.text expected)) (some param.logicalType.shape.text))
    else .ok ()

def checkRole (slot : ParameterSlot) (param : LogicalParameter) : Except DynInferError Unit :=
  if rolesCompatible slot.role param.role then .ok ()
  else .error (bindingError
    s!"parameter role mismatch: slot `{slot.id}` expects `{slot.role.asStr}`, checkpoint parameter `{param.canonicalName}` is `{param.role.asStr}`"
    slot (some param.canonicalName) (some slot.role.asStr) (some param.role.asStr))

def checkElementType (slot : ParameterSlot) (param : LogicalParameter) : Except DynInferError Unit :=
  if slot.expectedType.elementTypes ≠ [] ∧ param.logicalType.elementType ∉ slot.expectedType.elementTypes then
    .error (bindingError "parameter element type mismatch" slot (some param.canonicalName)
      (some (Text.bracketed (slot.expectedType.elementTypes.map ScalarType.debug)))
      (some param.logicalType.elementType.text))
  else .ok ()

/-- Plain storage holds its elements exactly. -/
def checkStorage (slot : ParameterSlot) (param : LogicalParameter) : Except DynInferError Unit :=
  if param.components.isEmpty then .ok ()
  else match param.encoding with
    | .plain storageType _ =>
      match param.logicalType.shape.numel with
      | none => .error (bindingError "parameter shape numel overflow" slot (some param.canonicalName) none
          (some param.logicalType.shape.text))
      | some numel =>
        let expected := min (numel * storageType.sizeBytes) (2 ^ 64 - 1)
        if param.storageBytes ≠ expected then
          .error (bindingError "parameter storage byte length mismatch" slot (some param.canonicalName)
            (some s!"{expected} bytes") (some s!"{param.storageBytes} bytes"))
        else .ok ()
    | _ => .ok ()

def checkAlignment (slot : ParameterSlot) (param : LogicalParameter) : Except DynInferError Unit :=
  if param.alignment = 0 then
    .error (bindingError "parameter alignment must be non-zero" slot (some param.canonicalName)
      (some "alignment >= 1") (some "0"))
  else .ok ()

/-- Every byte range starts at a multiple of the first component's alignment. -/
def checkOffsets (slot : ParameterSlot) (param : LogicalParameter) : Except DynInferError Unit :=
  (param.components.flatMap (·.byteRanges)).forM fun range =>
    if range.offset % param.alignment ≠ 0 then
      .error (bindingError "parameter byte range is misaligned" slot (some param.canonicalName)
        (some s!"offset % {param.alignment} == 0") (some s!"offset {range.offset}"))
    else .ok ()

/-! ## The binding -/

namespace Binder

variable (binder : Binder)

def externalKey (param : LogicalParameter) (component : StorageComponent) : String :=
  s!"{binder.parameterScope}::{param.canonicalName}::{component.name}"

def componentBinding (param : LogicalParameter) (component : StorageComponent) : ParameterComponentBinding where
  componentName := component.name
  externalKey := binder.externalKey param component
  checkpointKey := component.key
  sourceFileIndex := component.sourceFileIndex
  shape := component.shape
  storageType := component.storageType
  byteLengths := component.byteRanges.map (·.length)
  alignment := component.alignment
  endianness := component.endianness

/-- The binding of a slot to a parameter that passed the checks. -/
def parameterBinding (slot : ParameterSlot) (param : LogicalParameter) : ParameterBinding where
  slotId := slot.id
  canonicalName := slot.canonicalName
  checkpointKeys := param.aliases
  encoding := param.encoding
  logicalShape := param.logicalType.shape
  logicalType := param.logicalType.elementType
  components := param.components.map (binder.componentBinding param)
  transform := .identity
  scope := binder.parameterScope
  parameterKey := (param.components.head?.map (·.key)).getD param.canonicalName
  storageBytes := param.storageBytes
  alignment := param.alignment

/-- `Binder::bind_slot`. -/
def bindSlot (slot : ParameterSlot) (parameters : AssocMap String LogicalParameter) :
    Except DynInferError (Option ParameterBinding) :=
  match parameters.get slot.canonicalName with
  | none => .ok none
  | some param => do
    checkRank slot param
    checkShape slot param
    checkRole slot param
    checkElementType slot param
    checkStorage slot param
    checkAlignment slot param
    checkOffsets slot param
    return some (binder.parameterBinding slot param)

end Binder

/-- What `Binder::bind` has gathered. -/
structure BindState where
  bindings : List ParameterBinding := []
  unresolvedOptional : List String := []
  tiedShapes : AssocMap String (String × Shape) := []

/-- The slots of a tied group bind to one shape. -/
def checkTied (slot : ParameterSlot) (binding : ParameterBinding) (tiedShapes : AssocMap String (String × Shape)) :
    Except DynInferError (AssocMap String (String × Shape)) :=
  match slot.tiedGroup with
  | none => .ok tiedShapes
  | some group =>
    match tiedShapes.get group with
    | none => .ok (tiedShapes.insert group (slot.id, binding.logicalShape))
    | some (otherSlot, otherShape) =>
      if otherShape ≠ binding.logicalShape then
        .error (bindingError s!"tied group `{group}` shape mismatch between `{otherSlot}` and `{slot.id}`" slot
          (some binding.parameterKey) (some otherShape.text) (some binding.logicalShape.text))
      else .ok tiedShapes

def Binder.bindNext (binder : Binder) (parameters : AssocMap String LogicalParameter) (s : BindState)
    (slot : ParameterSlot) : Except DynInferError BindState := do
  match ← binder.bindSlot slot parameters with
  | some binding =>
    let tiedShapes ← checkTied slot binding s.tiedShapes
    return { s with bindings := s.bindings ++ [binding], tiedShapes }
  | none =>
    if slot.optional then return { s with unresolvedOptional := s.unresolvedOptional ++ [slot.id] }
    else throw (bindingError s!"required parameter slot `{slot.canonicalName}` not found in checkpoint" slot none
      (some slot.canonicalName) none)

/-- `Binder::bind`. -/
def Binder.bind (binder : Binder) (architecture : ArchitecturePackage) (catalog : CheckpointCatalog) :
    Except DynInferError BindingPlan := do
  let s ← architecture.graph.parameterSlots.foldlM (binder.bindNext (byName catalog.parameters)) {}
  return {
    architectureId := architecture.id
    checkpointSchema := catalog.schemaFingerprint
    bindings := s.bindings
    unresolvedOptionalSlots := s.unresolvedOptional }

end Dyninfer
