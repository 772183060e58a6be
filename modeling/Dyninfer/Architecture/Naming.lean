/-
Parameter naming (`naming.rs`, `registry.rs`, the naming map of `lfm2.rs`):
checkpoint keys to the canonical vocabulary of the slots. Llama and Qwen3 share
the table of the HF family, LFM2 has its own; both remap fixed keys and the
keys of a layer, keep what they do not know, and drop the rotary caches.
-/
import Dyninfer.Architecture.Models
import Dyninfer.Checkpoint.Catalog

namespace Dyninfer

structure NamingTable where
  fixed : List (String × String)
  layerRoots : List String
  layerSuffixes : List (String × String)

namespace NamingTable

/-- The layer and the canonical suffix of a layer's key. -/
def layerName (table : NamingTable) (key : String) : Option (Nat × String) := do
  let rest ← table.layerRoots.findSome? (Text.strip key)
  let (index, suffix) ← Text.splitOnce rest '.'
  let layer ← Text.parseUnsigned (2 ^ 32) index
  let canonicalSuffix ← table.layerSuffixes.lookup suffix
  return (layer, canonicalSuffix)

def blockName (layer : Nat) (suffix : String) : String := s!"blk.{layer}.{suffix}"

def remap (table : NamingTable) (key : String) : Option String :=
  match table.fixed.lookup key with
  | some name => some name
  | none => (table.layerName key).map fun (layer, suffix) => blockName layer suffix

/-- The tensors that are no weights. -/
def skips (key : String) : Bool := Text.contains key "rotary_emb" || Text.endsWith key ".inv_freq"

def canonicalize (table : NamingTable) (key : String) : Option String :=
  if skips key then none else some ((table.remap key).getD key)

/-- The table of `try_hf_remap`. -/
def hfFamily : NamingTable where
  fixed := [("model.embed_tokens.weight", "token_embd.weight"), ("embed_tokens.weight", "token_embd.weight"),
    ("model.norm.weight", "output_norm.weight"), ("norm.weight", "output_norm.weight"),
    ("lm_head.weight", "output.weight")]
  layerRoots := ["model.layers.", "layers."]
  layerSuffixes := [("input_layernorm.weight", "attn_norm.weight"),
    ("post_attention_layernorm.weight", "ffn_norm.weight"),
    ("self_attn.q_proj.weight", "attn_q.weight"),
    ("self_attn.k_proj.weight", "attn_k.weight"),
    ("self_attn.v_proj.weight", "attn_v.weight"),
    ("self_attn.o_proj.weight", "attn_output.weight"),
    ("self_attn.q_norm.weight", "attn_q_norm.weight"),
    ("self_attn.k_norm.weight", "attn_k_norm.weight"),
    ("mlp.gate_proj.weight", "ffn_gate.weight"),
    ("mlp.up_proj.weight", "ffn_up.weight"),
    ("mlp.down_proj.weight", "ffn_down.weight")]

/-- The table of `canonicalize_lfm2`. -/
def lfm2 : NamingTable where
  fixed := [("model.embed_tokens.weight", "token_embd.weight"),
    ("model.embedding_norm.weight", "output_norm.weight"), ("lm_head.weight", "output.weight")]
  layerRoots := ["model.layers."]
  layerSuffixes := [("operator_norm.weight", "attn_norm.weight"),
    ("ffn_norm.weight", "ffn_norm.weight"),
    ("feed_forward.w1.weight", "ffn_gate.weight"),
    ("feed_forward.w3.weight", "ffn_up.weight"),
    ("feed_forward.w2.weight", "ffn_down.weight"),
    ("self_attn.q_proj.weight", "attn_q.weight"),
    ("self_attn.k_proj.weight", "attn_k.weight"),
    ("self_attn.v_proj.weight", "attn_v.weight"),
    ("self_attn.out_proj.weight", "attn_output.weight"),
    ("self_attn.q_layernorm.weight", "attn_q_norm.weight"),
    ("self_attn.k_layernorm.weight", "attn_k_norm.weight"),
    ("conv.in_proj.weight", "shortconv.in_proj.weight"),
    ("conv.conv.weight", "shortconv.conv.weight"),
    ("conv.out_proj.weight", "shortconv.out_proj.weight")]

end NamingTable

def canonicalizeHfFamily : String → Option String := NamingTable.hfFamily.canonicalize

def canonicalizeLfm2 : String → Option String := NamingTable.lfm2.canonicalize

/-- The output parameter that shares the embedding's storage. -/
def tiedOutput (embedding : LogicalParameter) : LogicalParameter :=
  { embedding with
    canonicalName := "output.weight"
    role := .output
    aliases := embedding.aliases ++ ["output.weight", "lm_head.weight"] }

/-- `tie_output_to_embed`, for a checkpoint without an output projection. -/
def tieOutputToEmbed (catalog : ParameterCatalog) : ParameterCatalog :=
  if catalog.parameters.any (·.canonicalName == "output.weight") then catalog
  else match catalog.parameters.find? (·.canonicalName == "token_embd.weight") with
    | none => catalog
    | some embedding =>
      { parameters := catalog.parameters ++ [tiedOutput embedding]
        metadata := AssocMap.orInsert catalog.metadata "tie_word_embeddings" (.bool true) }

namespace Architecture

def canonicalizeParam : Architecture → String → Option String
  | .llama | .qwen3 => canonicalizeHfFamily
  | .lfm2 => canonicalizeLfm2

def sanitizeCatalog : Architecture → ParameterCatalog → ParameterCatalog
  | .llama | .qwen3 | .lfm2 => tieOutputToEmbed

end Architecture

/-- The storage key where there is one, else the name. -/
def LogicalParameter.sourceKey (param : LogicalParameter) : String := param.aliases.head?.getD param.canonicalName

/-- The name a parameter gets, or none where it is dropped. -/
def Architecture.nameOf (architecture : Architecture) (param : LogicalParameter) : Option String := do
  let canonical ← architecture.canonicalizeParam param.sourceKey
  if canonical = param.sourceKey ∧ param.canonicalName ≠ param.sourceKey then
    return (architecture.canonicalizeParam param.canonicalName).getD canonical
  else return canonical

def LogicalParameter.renamed (param : LogicalParameter) (canonical : String) : LogicalParameter :=
  { param with
    role := inferRole canonical
    canonicalName := canonical
    aliases := if canonical ∈ param.aliases then param.aliases else param.aliases ++ [canonical] }

def Architecture.remapParameters (architecture : Architecture) (parameters : List LogicalParameter) :
    List LogicalParameter :=
  parameters.filterMap fun param => (architecture.nameOf param).map param.renamed

/-- `ArchitectureRegistry::apply_naming`. -/
def ArchitectureRegistry.applyNaming (contentDigest : List FingerprintEntry → String) (id : String)
    (catalog : CheckpointCatalog) : Except DynInferError CheckpointCatalog := do
  let architecture ← require id
  let sanitized := architecture.sanitizeCatalog
    { parameters := architecture.remapParameters catalog.parameters, metadata := catalog.metadata }
  return { catalog with
    parameters := sanitized.parameters
    metadata := AssocMap.orInsertAll catalog.metadata sanitized.metadata
    schemaFingerprint := schemaFingerprintFromParameters contentDigest sanitized.parameters }

end Dyninfer
