/-
The semantic graph of `dyninfer-core` (`ir.rs`, `types.rs`): typed values,
operations with explicit inputs, outputs and parameters, the parameter slots
an architecture declares, and its exports.
-/
import Dyninfer.Core.Types

namespace Dyninfer

inductive TensorDimension where
  | static (n : Nat)
  | symbol (name : String)
  deriving DecidableEq, Repr

inductive SemanticElementType where
  | tokenId | floating
  deriving DecidableEq, Repr

structure SemanticTensorType where
  shape : List TensorDimension
  elementType : SemanticElementType
  deriving DecidableEq, Repr

namespace SemanticTensorType

def tokens : SemanticTensorType where
  shape := [.symbol "batch", .symbol "sequence"]
  elementType := .tokenId

def activations (width : Nat) : SemanticTensorType where
  shape := [.symbol "batch", .symbol "sequence", .static width]
  elementType := .floating

def kvCache (headCount headDim : Nat) : SemanticTensorType where
  shape := [.symbol "batch", .static headCount, .symbol "kv_sequence", .static headDim]
  elementType := .floating

end SemanticTensorType

structure GraphValue where
  id : String
  tensorType : SemanticTensorType
  deriving DecidableEq, Repr

inductive ParameterRole where
  | embedding | attentionQ | attentionK | attentionV | attentionO
  | ffnGate | ffnUp | ffnDown | norm | output | bias | ropeFreqs
  | other (name : String)
  deriving DecidableEq, Repr

/-- `ParameterRole::as_str`. -/
def ParameterRole.asStr : ParameterRole → String
  | .embedding => "embedding"
  | .attentionQ => "attention.q"
  | .attentionK => "attention.k"
  | .attentionV => "attention.v"
  | .attentionO => "attention.o"
  | .ffnGate => "ffn.gate"
  | .ffnUp => "ffn.up"
  | .ffnDown => "ffn.down"
  | .norm => "norm"
  | .output => "output"
  | .bias => "bias"
  | .ropeFreqs => "rope.freqs"
  | .other name => name

inductive KvCacheComponent where
  | key | value
  deriving DecidableEq, Repr

inductive ElementwiseFunction where
  | silu | multiply
  deriving DecidableEq, Repr

/-- `OperationKind`; the one model input is the tokens. -/
inductive OperationKind where
  | input
  | embedding
  | linear (role : ParameterRole)
  | rmsNorm (epsilon : Float)
  | perHeadRmsNorm (epsilon : Float) (headCount headDim : Nat)
  | rope (headCount headDim : Nat) (theta : Float)
  | kvCacheWrite (layer : Nat) (component : KvCacheComponent)
  | kvCacheRead (layer : Nat) (component : KvCacheComponent)
  | attention (numHeads numKvHeads headDim : Nat) (causal : Bool)
  | shortConv (layer channels kernelSize : Nat)
  | elementwise (function : ElementwiseFunction)
  | residual
  | outputProjection

structure ArchitectureOperation where
  id : String
  kind : OperationKind
  inputs : List String
  outputs : List String
  parameters : List String

inductive ExecutionMode where
  | prefill | decode
  deriving DecidableEq, Repr

structure ArchitectureExport where
  name : String
  mode : ExecutionMode
  inputs : List String
  outputs : List String
  deriving DecidableEq, Repr

structure LogicalTensorConstraint where
  rank : Option Nat
  shape : Option (List Nat)
  elementTypes : List ScalarType
  deriving DecidableEq, Repr

structure ParameterSlot where
  id : String
  canonicalName : String
  role : ParameterRole
  expectedType : LogicalTensorConstraint
  optional : Bool
  tiedGroup : Option String
  deriving DecidableEq, Repr

structure ArchitectureGraph where
  version : Nat
  architectureId : String
  values : List GraphValue
  operations : List ArchitectureOperation
  parameterSlots : List ParameterSlot
  exports : List ArchitectureExport

end Dyninfer
