/-
JSON values as `serde_json` holds them, and the metadata maps of checkpoints,
overrides and resolved configurations. A number is a non-negative or a
negative integer or a double; `as_u64` answers for the first kind alone.
-/
import Dyninfer.Lib.AssocMap
import Mathlib.Algebra.Order.Ring.Int

namespace Dyninfer

/-- `serde_json::Number`. -/
inductive JsonNumber where
  | posInt (n : UInt64)
  | negInt (n : Int)
  | float (x : Float)

/-- `serde_json::Value`. -/
inductive Json where
  | null
  | bool (b : Bool)
  | number (n : JsonNumber)
  | string (s : String)
  | array (xs : List Json)
  | object (fields : List (String × Json))

namespace Json

/-- An unsigned number. -/
abbrev ofNat (n : Nat) : Json := .number (.posInt (UInt64.ofNat n))

def asU64 : Json → Option Nat
  | .number (.posInt n) => some n.toNat
  | _ => none

theorem asU64_lt {json : Json} {n : Nat} (h : json.asU64 = some n) : n < 2 ^ 64 := by
  unfold asU64 at h
  split at h
  · cases h; exact UInt64.toNat_lt _
  · cases h

theorem asU64_ofNat {n : Nat} (h : n < 2 ^ 64) : (Json.ofNat n).asU64 = some n := by
  change some (UInt64.ofNat n).toNat = some n
  rw [UInt64.toNat_ofNat', Nat.mod_eq_of_lt h]

/-- `as_f64`, which converts integers. -/
def asF64 : Json → Option Float
  | .number (.posInt n) => some n.toFloat
  | .number (.negInt n) => some (Float.ofInt n)
  | .number (.float x) => some x
  | _ => none

def asStr : Json → Option String
  | .string s => some s
  | _ => none

def asArray : Json → Option (List Json)
  | .array xs => some xs
  | _ => none

end Json

/-- `MetadataMap`: a sorted map from keys to values. -/
abbrev MetadataMap := AssocMap String Json

end Dyninfer
