/-
The catalog of an inspected checkpoint (`dyninfer-checkpoint`): its parameters
with their storage, the roles their names suggest, and the fingerprint of the
schema. A fingerprint keeps what compilation may depend on; storage keys and
offsets enter it only as the fact that components share them. The digest
itself, SHA-256 over the JSON of the entries, is a parameter.
-/
import Dyninfer.Core.Bound
import Dyninfer.Lib.Text

namespace Dyninfer

structure SourceFile where
  path : String
  sizeBytes : Nat
  deriving DecidableEq, Repr

/-- `ParameterCatalog`, which an architecture may sanitize. -/
structure ParameterCatalog where
  parameters : List LogicalParameter
  metadata : MetadataMap

/-- `CheckpointCatalog`, with the fields that naming, binding and loading read. -/
structure CheckpointCatalog where
  sourceFiles : List SourceFile
  metadata : MetadataMap
  parameters : List LogicalParameter
  schemaFingerprint : SchemaFingerprint

/-- `infer_role`, in the order of its tests. -/
def inferRole (name : String) : ParameterRole :=
  let n := Text.toAsciiLowercase name
  let has := Text.contains n
  let ends := Text.endsWith n
  if has "embed" || has "token_embd" || has "tok_embeddings" then .embedding
  else if has "q_norm" || has "k_norm" then .norm
  else if has "attn_q" || has "attention.wq" || has "q_proj" || ends ".q.weight" then .attentionQ
  else if has "attn_k" || has "attention.wk" || has "k_proj" || ends ".k.weight" then .attentionK
  else if has "attn_v" || has "attention.wv" || has "v_proj" || ends ".v.weight" then .attentionV
  else if has "attn_output" || has "attn_o" || has "attention.wo" || has "o_proj" || ends ".o.weight" then .attentionO
  else if has "ffn_gate" || has "w1" || has "gate_proj" then .ffnGate
  else if has "ffn_up" || has "w3" || has "up_proj" then .ffnUp
  else if has "ffn_down" || has "w2" || has "down_proj" then .ffnDown
  else if has "norm" || has "ln_" || has "layernorm" then .norm
  else if has "output" || has "lm_head" || ends "output.weight" then .output
  else if has "bias" then .bias
  else if has "rope" || has "freq" then .ropeFreqs
  else .other name

/-! ## The schema fingerprint -/

structure FingerprintComponent where
  name : String
  shape : Shape
  storageType : StorageElementType
  byteLengths : List Nat
  alignment : Nat
  endianness : Endianness
  aliasGroup : Option String
  deriving DecidableEq, Repr

structure FingerprintEntry where
  canonicalName : String
  role : ParameterRole
  logicalShape : Shape
  logicalElementType : ScalarType
  encoding : PhysicalEncoding
  components : List FingerprintComponent
  deriving DecidableEq, Repr

/-- Where a component's bytes lie. -/
def StorageComponent.identity (component : StorageComponent) : Nat × String × List ByteRange :=
  (component.sourceFileIndex, component.key, component.byteRanges)

/-- The components that share an identity, labelled by parameter and component. -/
def identityMembers (parameters : List LogicalParameter) (identity : Nat × String × List ByteRange) : List String :=
  parameters.flatMap fun parameter =>
    (parameter.components.filter fun component => component.identity = identity).map fun component =>
      s!"{parameter.canonicalName}::{component.name}"

/-- The label of a shared identity is the smallest of its members. -/
def aliasLabel (parameters : List LogicalParameter) (identity : Nat × String × List ByteRange) : Option String :=
  let members := identityMembers parameters identity
  if members.length < 2 then none else (members.mergeSort fun a b => decide (a ≤ b)).head?

def fingerprintComponent (parameters : List LogicalParameter) (component : StorageComponent) : FingerprintComponent where
  name := component.name
  shape := component.shape
  storageType := component.storageType
  byteLengths := component.byteRanges.map (·.length)
  alignment := component.alignment
  endianness := component.endianness
  aliasGroup := aliasLabel parameters component.identity

def fingerprintEntry (parameters : List LogicalParameter) (parameter : LogicalParameter) : FingerprintEntry where
  canonicalName := parameter.canonicalName
  role := parameter.role
  logicalShape := parameter.logicalType.shape
  logicalElementType := parameter.logicalType.elementType
  encoding := parameter.encoding
  components := parameter.components.map (fingerprintComponent parameters)

/-- The entries, sorted by name; the sort is stable. -/
def fingerprintEntries (parameters : List LogicalParameter) : List FingerprintEntry :=
  (parameters.map (fingerprintEntry parameters)).mergeSort fun a b => decide (a.canonicalName ≤ b.canonicalName)

/-- A saturating `u64` sum. -/
def saturatingSum (lengths : List Nat) : Nat :=
  lengths.foldl (fun total length => min (total + length) (2 ^ 64 - 1)) 0

theorem saturatingSum_eq (lengths : List Nat) : saturatingSum lengths = min lengths.sum (2 ^ 64 - 1) := by
  have hfold : ∀ total ≤ 2 ^ 64 - 1, lengths.foldl (fun total length => min (total + length) (2 ^ 64 - 1)) total =
      min (total + lengths.sum) (2 ^ 64 - 1) := by
    induction lengths with
    | nil => simp
    | cons length lengths ih =>
      intro total _
      rw [List.foldl_cons, ih _ (Nat.min_le_right _ _), List.sum_cons]
      omega
  simpa [saturatingSum] using hfold 0 (Nat.zero_le _)

def totalBytes (parameters : List LogicalParameter) : Nat :=
  saturatingSum (parameters.flatMap fun parameter => parameter.components.flatMap fun component =>
    component.byteRanges.map (·.length))

def schemaFingerprintFromParameters (contentDigest : List FingerprintEntry → String)
    (parameters : List LogicalParameter) : SchemaFingerprint where
  digest := contentDigest (fingerprintEntries parameters)
  entryCount := parameters.length
  totalBytes := totalBytes parameters

end Dyninfer
