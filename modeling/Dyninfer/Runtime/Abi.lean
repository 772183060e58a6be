/-
What a loaded bundle must look like before a session is made of it:
`validate_executable_abi` (`dyninfer-runtime/src/model.rs`).
-/
import Dyninfer.Core.Error
import Dyninfer.Core.Manifest

namespace Dyninfer

/-- The `Debug` text of a storage, which the ABI error quotes. -/
def KvCacheStorage.debug : KvCacheStorage → String
  | .staticGlobals => "StaticGlobals"
  | .paged pageSize chunkSize =>
    "Paged \x7b page_size: " ++ toString pageSize ++ ", chunk_size: " ++ toString chunkSize ++ " \x7d"

/-- The entrypoints the manifest's ABI needs, if it is one the runtime knows. -/
def requiredEntrypoints (m : ExecutableManifest) : Option (List String) :=
  match m.kvCache.storage, m.version with
  | .staticGlobals, 1 | .staticGlobals, 2 => some ["prefill", "decode"]
  | .paged pageSize chunkSize, 10 =>
    if 0 < pageSize ∧ 0 < chunkSize ∧ m.kvCache.elementType = .f32 then
      some ["prefill_chunk", "decode_chunk"]
    else none
  | .paged pageSize chunkSize, 11 =>
    if 0 < pageSize ∧ 0 < chunkSize ∧
        (m.kvCache.elementType = .f16 ∨ m.kvCache.elementType = .f32) then
      some ["prefill_chunk", "decode_chunk"]
    else none
  | _, _ => none

/-- `validate_executable_abi`. -/
def validateExecutableAbi (m : ExecutableManifest) (bundle : String) : Except DynInferError Unit :=
  if m.entrypoints = ["add"] then .ok ()
  else match requiredEntrypoints m with
    | none =>
      .error (.cache
        { message := s!"unsupported executable/KV ABI version {m.version} ({m.kvCache.storage.debug})"
          path := some bundle })
    | some required =>
      match required.find? fun entrypoint => !m.entrypoints.contains entrypoint with
      | some missing =>
        .error (.cache
          { message := s!"bundle is missing required `{missing}` entrypoint", path := some bundle })
      | none => .ok ()

end Dyninfer
