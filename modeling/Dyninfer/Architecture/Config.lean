/-
The configuration of an architecture (`dyninfer-architecture/src/config.rs`):
each field of its schema is looked up in the overrides, in the checkpoint's
metadata under its own and its GGUF name, and in the defaults, in that order.

`head_dim` is derived from the model's width when nobody gave it and somebody
gave the width or the head count.
-/
import Dyninfer.Core.Error
import Dyninfer.Core.Json
import Dyninfer.Core.Types

namespace Dyninfer

structure ConfigField where
  name : String
  required : Bool
  default : Option Json

structure ConfigSchema where
  fields : List ConfigField

structure ResolvedModelConfig where
  values : MetadataMap

/-- The value a field resolves to, if any. -/
def ConfigField.lookup (field : ConfigField) (overrides checkpointMeta defaults : MetadataMap) : Option Json :=
  (overrides.get field.name).or <| (checkpointMeta.get field.name).or <|
    (checkpointMeta.get ("llama." ++ field.name)).or <| (defaults.get field.name).or field.default

def hasConfigValue (key : String) (overrides checkpointMeta defaults : MetadataMap) : Bool :=
  (overrides.get key).isSome || (checkpointMeta.get key).isSome ||
    (checkpointMeta.get ("llama." ++ key)).isSome || (defaults.get key).isSome

def configU64 (values : MetadataMap) (key : String) : Except DynInferError Nat :=
  match (values.get key).bind Json.asU64 with
  | some n => .ok n
  | none => .error (.config s!"config field `{key}` missing or not u32")

namespace ConfigSchema

/-- The fields in turn, into the values so far. -/
def resolveFields (overrides checkpointMeta defaults : MetadataMap) :
    List ConfigField → MetadataMap → Except DynInferError MetadataMap
  | [], values => .ok values
  | field :: fields, values =>
    match field.lookup overrides checkpointMeta defaults with
    | some v => resolveFields overrides checkpointMeta defaults fields (values.insert field.name v)
    | none =>
      if field.required then .error (.config s!"missing required config field `{field.name}`")
      else resolveFields overrides checkpointMeta defaults fields values

def resolve (schema : ConfigSchema) (overrides checkpointMeta defaults : MetadataMap) :
    Except DynInferError ResolvedModelConfig := do
  let values ← resolveFields overrides checkpointMeta defaults schema.fields []
  let explicitHeadDim := hasConfigValue "head_dim" overrides checkpointMeta defaults
  let configuredDimensions := hasConfigValue "hidden_size" overrides checkpointMeta defaults ||
    hasConfigValue "num_heads" overrides checkpointMeta defaults
  if !explicitHeadDim && configuredDimensions && (values.get "head_dim").isSome then
    let hiddenSize ← configU64 values "hidden_size"
    let numHeads ← configU64 values "num_heads"
    if numHeads = 0 ∨ hiddenSize % numHeads ≠ 0 then
      .error (.config s!"cannot derive `head_dim`: hidden_size ({hiddenSize}) must be divisible by non-zero num_heads ({numHeads})")
    else .ok ⟨values.insert "head_dim" (.ofNat (hiddenSize / numHeads))⟩
  else .ok ⟨values⟩

end ConfigSchema

namespace ResolvedModelConfig

def getU32 (config : ResolvedModelConfig) (key : String) : Except DynInferError Nat :=
  match (config.values.get key).bind Json.asU64 with
  | some n => .ok (asU32 n)
  | none => .error (.config s!"config field `{key}` missing or not u32")

def getF64 (config : ResolvedModelConfig) (key : String) : Except DynInferError Float :=
  match (config.values.get key).bind Json.asF64 with
  | some x => .ok x
  | none => .error (.config s!"config field `{key}` missing or not f64")

/-- `Result::or_else`, dropping the first error. -/
def orElse {α : Type} (x y : Except DynInferError α) : Except DynInferError α :=
  match x with
  | .ok a => .ok a
  | .error _ => y

def numLayers (config : ResolvedModelConfig) : Except DynInferError Nat :=
  orElse (orElse (config.getU32 "num_layers") (config.getU32 "n_layer")) (config.getU32 "block_count")

end ResolvedModelConfig

end Dyninfer
