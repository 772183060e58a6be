/-
Bundle directories (`dyninfer-runtime/src/model.rs`): the two writers, one
from a compilation and one from a cache entry, and what the loader resolves
from a directory. The writers overwrite the files they have and leave the
others as they are; the loader takes `decode.vmfb` by its existence.

JSON rendering and parsing are parameters.
-/
import Dyninfer.Cache.ArtifactCache
import Dyninfer.Runtime.Abi

namespace Dyninfer

/-- What is at a path. -/
inductive FsNode where
  | file (bytes : Bytes)
  | directory
  deriving DecidableEq

/-- The paths of a bundle; a directory may hold others. -/
inductive BundlePath where
  /-- `executables`. -/
  | executables
  /-- `executables/model.vmfb`. -/
  | model
  /-- `executables/decode.vmfb`. -/
  | decode
  | manifest
  | bindings
  | checkpointSchema
  | other (path : String)
  deriving DecidableEq

/-- An output directory. -/
abbrev OutputDir := BundlePath → Option FsNode

namespace OutputDir

def empty : OutputDir := fun _ => none

def set (dir : OutputDir) (path : BundlePath) (node : FsNode) : OutputDir :=
  Function.update dir path (some node)

/-- `fs::create_dir_all`. -/
def createDirAll (dir : OutputDir) (path : BundlePath) : Except DynInferError OutputDir :=
  match dir path with
  | some (.file _) => .error (.io "File exists (os error 17)" none)
  | _ => .ok (dir.set path .directory)

/-- `fs::write`. -/
def write (dir : OutputDir) (path : BundlePath) (bytes : Bytes) : Except DynInferError OutputDir :=
  match dir path with
  | some .directory => .error (.io "Is a directory (os error 21)" none)
  | _ => .ok (dir.set path (.file bytes))

/-- A file a bundle need not have. -/
def writeSome (dir : OutputDir) (path : BundlePath) : Option Bytes → Except DynInferError OutputDir
  | some bytes => dir.write path bytes
  | none => .ok dir

/-- `fs::read`. -/
def read (dir : OutputDir) (path : BundlePath) : Except DynInferError Bytes :=
  match dir path with
  | some (.file bytes) => .ok bytes
  | some .directory => .error (.io "Is a directory (os error 21)" none)
  | none => .error (.io "No such file or directory (os error 2)" none)

/-- `Path::is_file`. -/
def isFile (dir : OutputDir) (path : BundlePath) : Bool :=
  match dir path with
  | some (.file _) => true
  | _ => false

/-- A file the loader takes where it exists. -/
def readIf (dir : OutputDir) (path : BundlePath) (wanted : Bool) : Except DynInferError (Option Bytes) :=
  if wanted && dir.isFile path then (dir.read path).map some else .ok none

end OutputDir

/-- `fs::read` of a cached file. -/
def EntryDir.read (entry : EntryDir) (file : EntryFile) : Except DynInferError Bytes :=
  match entry file with
  | some bytes => .ok bytes
  | none => .error (.io "No such file or directory (os error 2)" none)

/-- A cached file the lookup need not have found. -/
def EntryDir.readIf (entry : EntryDir) (file : EntryFile) (found : Bool) : Except DynInferError (Option Bytes) :=
  if found then (entry.read file).map some else .ok none

/-- `serde_json` on the records a bundle holds. -/
structure BundleCodec where
  renderManifest : ExecutableManifest → Bytes
  parseManifest : Bytes → Except String ExecutableManifest
  renderPlan : BindingPlan → Bytes
  parsePlan : Bytes → Except String BindingPlan
  renderSchema : SchemaFingerprint → Bytes

/-- A `serde_json::Error` as the crate's own. -/
def jsonError {α : Type} : Except String α → Except DynInferError α
  | .ok a => .ok a
  | .error e => .error (.config s!"JSON error: {e}")

/-- The modules, the manifest and the bindings of a bundle. -/
structure BundleArtifacts where
  vmfb : Bytes
  decodeVmfb : Option Bytes
  manifest : ExecutableManifest
  plan : BindingPlan
  deriving DecidableEq

section writers

variable (codec : BundleCodec)

def writeBundle (output : OutputDir) (vmfb : Bytes) (decodeVmfb : Option Bytes) (manifest : ExecutableManifest)
    (plan : BindingPlan) (schema : SchemaFingerprint) : Except DynInferError OutputDir := do
  let dir ← output.createDirAll .executables
  let dir ← dir.write .model vmfb
  let dir ← dir.writeSome .decode decodeVmfb
  let dir ← dir.write .manifest (codec.renderManifest manifest)
  let dir ← dir.write .bindings (codec.renderPlan plan)
  dir.write .checkpointSchema (codec.renderSchema schema)

def materializeBundleFromCache (entry : EntryDir) (hasDecode : Bool) (plan : BindingPlan) (output : OutputDir) :
    Except DynInferError OutputDir := do
  let manifest ← jsonError (codec.parseManifest (← entry.read .manifest))
  let vmfb ← entry.read .model
  let dir ← output.createDirAll .executables
  let dir ← dir.write .model vmfb
  let decodeVmfb ← entry.readIf .decode hasDecode
  let dir ← dir.writeSome .decode decodeVmfb
  let dir ← dir.write .manifest (codec.renderManifest manifest)
  dir.write .bindings (codec.renderPlan plan)

end writers

/-! ## Loading -/

/-- The ABI versions for which a decode module is looked for. -/
def looksForDecode (manifest : ExecutableManifest) : Bool :=
  manifest.version == 10 || manifest.version == 11

/-- What `load_bundle` resolves; `admits` is everything it goes on to check against the checkpoint, the
target and the runtime. -/
def loadBundle (codec : BundleCodec) (admits : BundleArtifacts → Except DynInferError Unit) (bundle : String)
    (dir : OutputDir) : Except DynInferError BundleArtifacts := do
  let manifest ← jsonError (codec.parseManifest (← dir.read .manifest))
  validateExecutableAbi manifest bundle
  let plan ← jsonError (codec.parsePlan (← dir.read .bindings))
  let vmfb ← dir.read .model
  let decodeVmfb ← dir.readIf .decode (looksForDecode manifest)
  let artifacts : BundleArtifacts := { vmfb, decodeVmfb, manifest, plan }
  admits artifacts
  return artifacts

end Dyninfer
