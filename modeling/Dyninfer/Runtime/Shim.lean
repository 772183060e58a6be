/-
The paged half of the C shim (`third_party/iree_runtime_c_api/wrapper.c`): the
pool of packed K/V planes a session owns, and the four calls on it.

A plane is the list of its rows; the K row and the V row of one position are
one `Row`, over all heads, and `planes l` is layer `l`'s. What the compiled
module keeps between invocations beside the planes (the rolling state of its
short convolutions) is `recurrent`. The module itself is a parameter: `run`
says what one invocation that succeeds computes.

Every call may fail at its own points. Which one does is read off a script in
the state, so that a run over the script is a run of the shim under some
pattern of failures and every pattern has its script. `early` is a failure
before anything is touched (the session lock, an argument view, preparing the
call). `late` is one after: a plane that cannot be allocated or cleared, a
dispatch that stops half way, an output that cannot be taken over. A dispatch
writes rows of its own chunk only, so a late failure of an invocation leaves
whatever the script says in those rows, and in `recurrent`.
-/
import Dyninfer.Runtime.Abi
import Dyninfer.Runtime.Session

namespace Dyninfer

/-- The geometry `configure_paged_kv` records; all zero before. -/
structure KvPoolConfig where
  layerCount : Nat := 0
  pageSize : Nat := 0
  kvHeadCount : Nat := 0
  headDim : Nat := 0
  elementByteCount : Nat := 0
  chunkSize : Nat := 0
  vocabSize : Nat := 0
  deriving DecidableEq, Repr

/-- Where a call fails, if it does. -/
inductive Fault (Row ρ : Type) where
  | none
  | early
  | late (junk : Nat → Nat → Row) (recurrent : ρ)

structure Shim (Row ρ : Type) where
  config : KvPoolConfig
  /-- `kv_layer_n`: none, or all the layers hold planes. -/
  layerN : Nat
  pageCount : Nat
  allocatedBytes : Nat
  planes : Nat → List Row
  recurrent : ρ
  faults : List (Fault Row ρ)

/-- What an invocation that succeeds gives: outputs, planes and recurrent state. -/
structure ChunkResult (F Row ρ : Type) where
  logits : List F
  token : Int
  planes : Nat → List Row
  recurrent : ρ

/-- The compiled module: from the window, the index of its last valid row and the start position,
over the recurrent state and the planes. -/
structure ChunkExecutable (F Row ρ : Type) where
  zeroRow : Row
  run : List Int → Nat → Nat → ρ → (Nat → List Row) → ChunkResult F Row ρ

/-- The K and V arguments are tied to the results: planes of `rows` rows are given back as such. -/
def ChunkExecutable.KeepsPlanes {F Row ρ : Type} (rows : Nat) (exe : ChunkExecutable F Row ρ) : Prop :=
  ∀ window last start recurrent planes, (∀ l, (planes l).length = rows) →
    ∀ l, ((exe.run window last start recurrent planes).planes l).length = rows

/-- `native_error`: the message of the shim with the return code all its failures share. -/
def nativeError (message : String) : DynInferError :=
  .ireeRuntime { message, statusCode := some 1 }

/-- `SIZE_MAX`. -/
def sizeMax : Nat := 2 ^ 64 - 1

namespace KvPoolConfig

/-- The guard of `configure_paged_kv`. -/
def valid (c : KvPoolConfig) : Bool :=
  c.layerCount != 0 && c.pageSize != 0 && c.kvHeadCount != 0 && c.headDim != 0 &&
    (c.elementByteCount == 2 || c.elementByteCount == 4) && c.chunkSize != 0 && c.vocabSize != 0 &&
    (c.pageSize % c.chunkSize == 0 || c.chunkSize % c.pageSize == 0)

/-- The bytes of one plane of `pageCount` pages, unless a product of the way overflows. -/
def planeBytes (c : KvPoolConfig) (pageCount : Nat) : Except String Nat :=
  let kvLen := pageCount * c.pageSize
  if c.layerCount = 0 then .error "KV layer arrays are not configured"
  else if sizeMax / c.pageSize < pageCount then .error "KV packed length overflow"
  else if kvLen = 0 ∨ sizeMax / kvLen < c.kvHeadCount ∨ c.headDim = 0 ∨
      sizeMax / c.headDim < c.kvHeadCount * kvLen then
    .error "KV packed size overflow"
  else if sizeMax / c.elementByteCount < c.kvHeadCount * kvLen * c.headDim then
    .error "KV packed byte size overflow"
  else
    let planeBytes := c.kvHeadCount * kvLen * c.headDim * c.elementByteCount
    if sizeMax / 2 < c.layerCount ∨ sizeMax / planeBytes < c.layerCount * 2 then
      .error "KV pool byte size overflow"
    else .ok planeBytes

end KvPoolConfig

namespace Shim

variable {F Row ρ : Type}

/-- A session as it is opened: nothing configured, no planes. -/
def opened (recurrent : ρ) (faults : List (Fault Row ρ)) : Shim Row ρ where
  config := {}
  layerN := 0
  pageCount := 0
  allocatedBytes := 0
  planes := fun _ => []
  recurrent := recurrent
  faults := faults

/-- The next call's fault, and the state in which it is spent. -/
def nextFault (d : Shim Row ρ) : Fault Row ρ × Shim Row ρ :=
  match d.faults with
  | [] => (.none, d)
  | fault :: faults => (fault, { d with faults })

/-- Every plane given back. -/
def release (d : Shim Row ρ) : Shim Row ρ :=
  { d with layerN := 0, pageCount := 0, allocatedBytes := 0, planes := fun _ => [] }

/-- The pool behind an `ensure` that allocates. -/
def allocate (zeroRow : Row) (pageCount planeBytes : Nat) (d : Shim Row ρ) : Shim Row ρ :=
  { d with
    layerN := d.config.layerCount
    pageCount := pageCount
    allocatedBytes := planeBytes * 2 * d.config.layerCount
    planes := fun _ => List.replicate (pageCount * d.config.pageSize) zeroRow }

/-- Every plane cleared in place. -/
def clear (zeroRow : Row) (d : Shim Row ρ) : Shim Row ρ :=
  { d with planes := fun l => List.replicate (d.planes l).length zeroRow }

/-- `dyninfer_iree_session_configure_paged_kv`. -/
def configurePagedKv (config : KvPoolConfig) : EStateM DynInferError (Shim Row ρ) Unit := fun d =>
  let (fault, d) := d.nextFault
  match fault with
  | .early => .error (nativeError "IREE session") d
  | _ =>
    if !config.valid then .error (nativeError "invalid paged KV configuration") d
    else if d.layerN ≠ 0 then .error (nativeError "cannot reconfigure paged KV after allocation") d
    else match fault with
      | .late _ _ => .error (nativeError "allocating paged KV layer arrays") d
      | _ => .ok () { d with config }

/-- `dyninfer_iree_session_ensure_kv_pages`. -/
def ensureKvPages (zeroRow : Row) (pageCount : Nat) : EStateM DynInferError (Shim Row ρ) Unit := fun d =>
  let (fault, d) := d.nextFault
  match fault with
  | .early => .error (nativeError "IREE session") d
  | _ =>
    if d.config.pageSize = 0 then .error (nativeError "paged KV is not configured") d
    else if pageCount = 0 then .error (nativeError "paged KV pool requires page_count > 0") d
    else if d.layerN = d.config.layerCount ∧ pageCount ≤ d.pageCount then .ok () d
    else
      let d := d.release
      match d.config.planeBytes pageCount with
      | .error message => .error (nativeError message) d
      | .ok planeBytes =>
        match fault with
        | .late _ _ => .error (nativeError "allocating packed KV layer: see IREE status") d
        | _ => .ok () (d.allocate zeroRow pageCount planeBytes)

/-- `dyninfer_iree_session_reset_paged_kv`: the planes are cleared in place, or all given back when
one cannot be. -/
def resetPagedKv (zeroRow : Row) : EStateM DynInferError (Shim Row ρ) Unit := fun d =>
  let (fault, d) := d.nextFault
  match fault with
  | .early => .error (nativeError "IREE session") d
  | _ =>
    if d.layerN = 0 then .ok () { d with pageCount := 0, allocatedBytes := 0 }
    else match fault with
      | .late _ _ => .error (nativeError "see IREE status") d.release
      | _ => .ok () (d.clear zeroRow)

/-- The argument check of `dyninfer_iree_session_invoke_paged_chunk`. -/
def acceptsChunk (chunkSize : Nat) (tokens : List Int) (last start : Int) : Bool :=
  !((tokens.length != chunkSize && tokens.length != 1) ||
    last < 0 || (tokens.length : Int) ≤ last || start < 0)

/-- Rows `start..=start+last` of a plane as a dispatch that stopped left them. -/
def torn (junk : Nat → Nat → Row) (start last : Nat) (planes : Nat → List Row) (l : Nat) : List Row :=
  (planes l).mapIdx fun r row => if start ≤ r ∧ r ≤ start + last then junk l r else row

/-- `dyninfer_iree_session_invoke_paged_chunk`. -/
def invokePagedChunk (exe : ChunkExecutable F Row ρ) (tokens : List Int) (last start : Int)
    (wantLogits : Bool) : EStateM DynInferError (Shim Row ρ) (Option (List F) × Int) := fun d =>
  let (fault, d) := d.nextFault
  match fault with
  | .early => .error (nativeError "IREE session") d
  | _ =>
    if !acceptsChunk d.config.chunkSize tokens last start then
      .error (nativeError "invalid paged chunk invocation") d
    else if d.layerN = 0 then .error (nativeError "paged KV hist is not allocated") d
    else match fault with
      | .late junk recurrent =>
        .error (nativeError "see IREE status")
          { d with planes := torn junk start.toNat last.toNat d.planes, recurrent }
      | _ =>
        let r := exe.run tokens last.toNat start.toNat d.recurrent d.planes
        .ok (if wantLogits then some r.logits else none, r.token)
          { d with planes := r.planes, recurrent := r.recurrent }

/-- The shim as the context of a session. A paged executable has no `prefill` or `decode`
entrypoint. -/
def context (exe : ChunkExecutable F Row ρ) : Context F (Shim Row ρ) where
  resetPagedKv := resetPagedKv exe.zeroRow
  ensureKvPages := ensureKvPages exe.zeroRow
  invokePagedChunkEx := invokePagedChunk exe
  invokePrefill _ _ := throw (nativeError "IREE function not found")
  invokeDecode _ _ _ := throw (nativeError "IREE function not found")

end Shim

/-- The geometry `LoadedModel::create_session` configures the shim with, for a paged manifest. -/
def sessionPoolConfig (manifest : ExecutableManifest) (vocabularySize pageSize chunkSize : Nat) :
    KvPoolConfig where
  layerCount := manifest.kvCache.layerCount
  pageSize := pageSize
  kvHeadCount := manifest.kvCache.kvHeadCount
  headDim := manifest.kvCache.headDimension
  elementByteCount := manifest.kvCache.elementType.sizeBytes
  chunkSize := chunkSize
  vocabSize := vocabularySize

/-- `LoadedModel::create_session` on a context just opened. -/
def createSession {Row ρ : Type} (metadata : ModelMetadata) (manifest : ExecutableManifest)
    (config : SessionConfig) (opened : Shim Row ρ) :
    Except DynInferError (IreeSession × SessionState (Shim Row ρ)) :=
  let session := IreeSession.new metadata config manifest.kvCache manifest.prefillWindow
  match manifest.kvCache.storage with
  | .staticGlobals => .ok (session, .new opened)
  | .paged pageSize chunkSize =>
    match (Shim.configurePagedKv
        (sessionPoolConfig manifest metadata.vocabularySize pageSize chunkSize)).run opened with
    | .ok () context => .ok (session, .new context)
    | .error e _ => .error e

end Dyninfer
