/-
What a configuration resolves to: each field's value is the one its lookup
finds, except a `head_dim` that is derived from the width and the head count.
-/
import Dyninfer.Architecture.Config
import Dyninfer.Lib.Fallible

namespace Dyninfer

namespace ConfigSchema

/-- Each field's value is the one its lookup finds. -/
theorem get_resolveFields {overrides checkpointMeta defaults : MetadataMap} {fields : List ConfigField}
    (hnodup : (fields.map (·.name)).Nodup) {values out : MetadataMap}
    (h : resolveFields overrides checkpointMeta defaults fields values = .ok out) (key : String) :
    out.get key = ((fields.find? (·.name == key)).bind (·.lookup overrides checkpointMeta defaults)).or
      (values.get key) := by
  induction fields generalizing values with
  | nil => cases h; rfl
  | cons field fields ih =>
    rw [List.map_cons, List.nodup_cons] at hnodup
    have hnone : field.name = key → fields.find? (·.name == key) = none := by
      rintro rfl
      refine List.find?_eq_none.mpr fun f hf hname => hnodup.1 ?_
      rw [← beq_iff_eq.mp hname]
      exact List.mem_map_of_mem hf
    unfold resolveFields at h
    rw [List.find?_cons]
    cases hlookup : field.lookup overrides checkpointMeta defaults with
    | some v =>
      rw [hlookup] at h
      rw [ih hnodup.2 h, AssocMap.get_insert]
      by_cases hkey : field.name = key
      · rw [hnone hkey, beq_iff_eq.mpr hkey, if_pos hkey.symm, Option.bind_some, hlookup]; rfl
      · rw [beq_eq_false_iff_ne.mpr hkey, if_neg fun h => hkey h.symm]
    | none =>
      rw [hlookup] at h
      have hrest : resolveFields overrides checkpointMeta defaults fields values = .ok out := by
        by_cases hreq : field.required = true
        · rw [if_pos hreq] at h; cases h
        · rwa [if_neg hreq] at h
      rw [ih hnodup.2 hrest]
      by_cases hkey : field.name = key
      · rw [hnone hkey, beq_iff_eq.mpr hkey, Option.bind_some, hlookup]; rfl
      · rw [beq_eq_false_iff_ne.mpr hkey]

end ConfigSchema

namespace ConfigSchema

/-- The value the metadata give a field of the schema. -/
def given (schema : ConfigSchema) (overrides checkpointMeta : MetadataMap) (key : String) : Option Json :=
  (schema.fields.find? (·.name == key)).bind (·.lookup overrides checkpointMeta [])

/-- The unsigned integer the metadata give a field of the schema. -/
def denotes (schema : ConfigSchema) (overrides checkpointMeta : MetadataMap) (key : String) : Option Nat :=
  (schema.given overrides checkpointMeta key).bind Json.asU64

/-- Nobody gave `head_dim`, and somebody gave the width or the head count. -/
def derivesHeadDim (schema : ConfigSchema) (overrides checkpointMeta : MetadataMap) : Bool :=
  !hasConfigValue "head_dim" overrides checkpointMeta [] &&
    (hasConfigValue "hidden_size" overrides checkpointMeta [] ||
      hasConfigValue "num_heads" overrides checkpointMeta []) &&
    (schema.given overrides checkpointMeta "head_dim").isSome

/-- The unsigned integer the metadata give `head_dim`: its field's, or the quotient it is derived as. -/
def denotesHeadDim (schema : ConfigSchema) (overrides checkpointMeta : MetadataMap) : Option Nat :=
  if schema.derivesHeadDim overrides checkpointMeta then do
    let hidden ← schema.denotes overrides checkpointMeta "hidden_size"
    let heads ← schema.denotes overrides checkpointMeta "num_heads"
    return hidden / heads
  else schema.denotes overrides checkpointMeta "head_dim"

theorem configU64_ok {values : MetadataMap} {key : String} {n : Nat} (h : configU64 values key = .ok n) :
    (values.get key).bind Json.asU64 = some n := by
  unfold configU64 at h
  split at h
  case h_1 hn => cases h; exact hn
  case h_2 => cases h

/-- **Resolution is a lookup.** A resolved value is the one the metadata give its field; only `head_dim`
may be the derived quotient. -/
theorem resolve_ok {schema : ConfigSchema} (hnodup : (schema.fields.map (·.name)).Nodup)
    {overrides checkpointMeta : MetadataMap} {config : ResolvedModelConfig}
    (h : schema.resolve overrides checkpointMeta [] = .ok config) :
    (∀ key, key ≠ "head_dim" → config.values.get key = schema.given overrides checkpointMeta key) ∧
      (config.values.get "head_dim").bind Json.asU64 = schema.denotesHeadDim overrides checkpointMeta := by
  obtain ⟨values, hvalues, h⟩ := Fallible.bind_ok h
  have hget : ∀ key, values.get key = schema.given overrides checkpointMeta key := fun key => by
    rw [get_resolveFields hnodup hvalues key]; exact Option.or_none
  have hcond : (!hasConfigValue "head_dim" overrides checkpointMeta [] &&
      (hasConfigValue "hidden_size" overrides checkpointMeta [] ||
        hasConfigValue "num_heads" overrides checkpointMeta []) && (values.get "head_dim").isSome) =
      schema.derivesHeadDim overrides checkpointMeta := by
    rw [hget]; rfl
  simp only [hcond] at h
  unfold denotesHeadDim
  cases hderives : schema.derivesHeadDim overrides checkpointMeta with
  | false =>
    rw [hderives] at h
    cases h
    exact ⟨fun key _ => hget key, by rw [hget]; rfl⟩
  | true =>
    rw [hderives] at h
    simp only [if_true] at h
    obtain ⟨hidden, hhidden, h⟩ := Fallible.bind_ok h
    obtain ⟨heads, hheads, h⟩ := Fallible.bind_ok h
    have hhidden := configU64_ok hhidden
    have hheads := configU64_ok hheads
    split at h
    case isTrue => cases h
    case isFalse =>
      cases h
      refine ⟨fun key hkey => by rw [AssocMap.get_insert_ne _ _ hkey, hget], ?_⟩
      have hlt : hidden / heads < 2 ^ 64 := by
        obtain ⟨v, _, hv⟩ := Option.bind_eq_some_iff.mp hhidden
        exact Nat.lt_of_le_of_lt (Nat.div_le_self _ _) (Json.asU64_lt hv)
      rw [AssocMap.get_insert_self, Option.bind_some, Json.asU64_ofNat hlt]
      rw [hget] at hhidden hheads
      simp only [if_true, denotes, hhidden, hheads]
      rfl

end ConfigSchema

end Dyninfer
