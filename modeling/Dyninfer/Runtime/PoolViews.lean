/-
The buffer views of the C shim (`third_party/iree_runtime_c_api/wrapper.c`): the
layer arrays of the K/V pool entry by entry, the scratch views of an
invocation, and the lists of a cached call, with every reference that is taken
and given back on the way.

`Shim` is the same calls over the contents of the planes; here a view is its
handle, the buffer it is over and its size. What can fail is read off a script,
one entry for each thing that can, in the order of the calls: so a run over a
script is a run of the shim under some failures, and any failures have their
script. IREE releases nothing on NULL, leaves an out view NULL when it fails,
and hands a popped output over. Sizes wrap at `SIZE_MAX`, and a product that
does is remembered. Host memory, statuses and counters for debugging are left
out.
-/
import Dyninfer.Lib.Ledger
import Dyninfer.Runtime.Shim

namespace Dyninfer

open Effect

structure BufferView where
  handle : Nat
  buffer : Nat
  byteLength : Nat
  deriving DecidableEq, Repr

/-- A reference: to a view, or to a buffer. -/
inductive HalRef where
  | view (view : BufferView)
  | buffer (buffer : Nat)
  deriving DecidableEq, Repr

/-- The device side: references, the next handle, what fails, and whether a size has wrapped. -/
structure Hal where
  refs : Ledger HalRef := {}
  nextHandle : Nat := 0
  faults : List Bool
  wrapped : Bool := false

/-- `dyninfer_cached_call_t`; a call retains its inputs and outputs until it is reset. -/
structure CachedCall where
  ready : Bool := false
  inputs : List BufferView := []
  outputs : List BufferView := []

/-- The fields of `dyninfer_iree_session_t` that the paged calls use. An array that is NULL is empty. -/
structure PagedFields where
  config : KvPoolConfig := {}
  kvK : List (Option BufferView) := []
  kvV : List (Option BufferView) := []
  kvLayerN : Nat := 0
  kvPageCount : Nat := 0
  kvAllocatedBytes : Nat := 0
  pagedTokens : Option BufferView := none
  pagedTokensLen : Nat := 0
  pagedLast : Option BufferView := none
  pagedStartPos : Option BufferView := none
  pagedLogits : Option BufferView := none
  callPagedPrefill : CachedCall := {}
  callPagedDecode : CachedCall := {}

structure KvSession where
  hal : Hal
  fields : PagedFields := {}

abbrev KvM := EStateM String KvSession

/-- `DYNINFER_MAX_KV_HOST_STAGING_BYTES`. -/
def maxKvHostStagingBytes : Nat := 4 * 1024 * 1024

namespace PagedFields

/-- `call_paged_decode` or `call_paged_prefill`. -/
def call (f : PagedFields) (decode : Bool) : CachedCall := if decode then f.callPagedDecode else f.callPagedPrefill

def setCall (f : PagedFields) (decode : Bool) (call : CachedCall) : PagedFields :=
  if decode then { f with callPagedDecode := call } else { f with callPagedPrefill := call }

def setK (f : PagedFields) (layer : Nat) (view : Option BufferView) : PagedFields :=
  { f with kvK := f.kvK.set layer view }

def setV (f : PagedFields) (layer : Nat) (view : Option BufferView) : PagedFields :=
  { f with kvV := f.kvV.set layer view }

/-- No pool. -/
def dropPool (f : PagedFields) : PagedFields := { f with kvLayerN := 0, kvPageCount := 0, kvAllocatedBytes := 0 }

end PagedFields

namespace KvSession

/-- A session as it is created. -/
def created (faults : List Bool) : KvSession := { hal := { faults } }

def getFields : KvM PagedFields := do return (← get).fields

def modifyFields (g : PagedFields → PagedFields) : KvM Unit := modify fun s => { s with fields := g s.fields }

def modifyHal (g : Hal → Hal) : KvM Unit := modify fun s => { s with hal := g s.hal }

/-! ## References and sizes -/

/-- Whether the next thing that can fail does. -/
def fails : KvM Bool := do
  let s ← get
  modifyHal fun h => { h with faults := h.faults.tail }
  return s.hal.faults.headD false

/-- A call of IREE or the allocator that changes nothing when it fails. -/
def attempt (message : String) : KvM Unit := do
  let failed ← fails
  require (!failed) message

def retain (r : HalRef) : KvM Unit := modifyHal fun h => { h with refs := h.refs.retain r }

def release (r : HalRef) : KvM Unit := modifyHal fun h => { h with refs := h.refs.release r }

/-- `iree_hal_buffer_view_release`. -/
def releaseView : Option BufferView → KvM Unit
  | none => pure ()
  | some view => release (.view view)

def releaseViews : List BufferView → KvM Unit
  | [] => pure ()
  | view :: views => do
    release (.view view)
    releaseViews views

/-- A product of sizes. -/
def mulSize (a b : Nat) : KvM Nat := do
  modifyHal fun h => { h with wrapped := h.wrapped || decide (sizeMax < a * b) }
  return a * b % 2 ^ 64

def nextHandle : KvM Nat := do
  let s ← get
  modifyHal fun h => { h with nextHandle := h.nextHandle + 1 }
  return s.hal.nextHandle

/-- A view over a buffer. -/
def newView (buffer byteLength : Nat) : KvM BufferView := do
  let handle ← nextHandle
  let view : BufferView := { handle, buffer, byteLength }
  retain (.view view)
  return view

/-- `iree_hal_buffer_view_allocate_buffer_copy`. -/
def allocateBufferCopy (byteLength : Nat) : KvM BufferView := do
  attempt "allocating a buffer copy"
  let buffer ← nextHandle
  newView buffer byteLength

/-- `zero_device_buffer`: neither the fill nor the staged copies behind it. -/
def zeroDeviceBuffer (byteLength : Nat) : KvM Unit :=
  if byteLength = 0 then pure () else attempt "zeroing a buffer"

/-- `allocate_float_tensor`. -/
def allocateFloatTensor (elementCount elementByteCount : Nat) : KvM BufferView := do
  let byteLength ← mulSize elementCount elementByteCount
  allocateBufferCopy byteLength

/-- `allocate_empty_float_tensor`; the view keeps the buffer, whose own reference goes. -/
def allocateEmptyFloatTensor (elementCount elementByteCount : Nat) : KvM BufferView := do
  let byteLength ← mulSize elementCount elementByteCount
  require (elementCount == 0 || byteLength / elementByteCount == elementCount) "float tensor byte length overflow"
  attempt "allocating a buffer"
  let buffer ← nextHandle
  retain (.buffer buffer)
  onError (zeroDeviceBuffer byteLength) (release (.buffer buffer))
  onError (attempt "creating a view") (release (.buffer buffer))
  let view ← newView buffer byteLength
  release (.buffer buffer)
  return view

/-! ## The pool -/

/-- `dyninfer_iree_session_configure_paged_kv`. -/
def configurePagedKv (config : KvPoolConfig) : KvM Unit := do
  let f ← getFields
  require config.valid "invalid paged KV configuration"
  require (f.kvLayerN == 0) "cannot reconfigure paged KV after allocation"
  require (config.layerCount ≤ sizeMax / 8) "paged KV layer array size overflow"
  attempt "allocating paged KV layer arrays"
  modifyFields fun f => { f with
    config
    kvK := List.replicate config.layerCount none
    kvV := List.replicate config.layerCount none }

/-- The entries of a layer are given back and set to NULL. -/
def releaseLayer (layer : Nat) : KvM Unit := do
  let f ← getFields
  releaseView (f.kvK.getD layer none)
  modifyFields (·.setK layer none)
  releaseView (f.kvV.getD layer none)
  modifyFields (·.setV layer none)

/-- The first `n` layers. -/
def releaseLayers : Nat → KvM Unit
  | 0 => pure ()
  | n + 1 => do
    releaseLayers n
    releaseLayer n

/-- A factor of the elements of a plane. -/
def mulElems (planeElems factor : Nat) : KvM Nat := do
  require (factor != 0 && planeElems ≤ sizeMax / factor) "KV packed size overflow"
  mulSize planeElems factor

/-- The elements of a plane and its bytes. -/
def planeSize (c : KvPoolConfig) (pageCount : Nat) : KvM (Nat × Nat) := do
  require (c.pageSize != 0 && pageCount ≤ sizeMax / c.pageSize) "KV packed length overflow"
  let kvLen ← mulSize pageCount c.pageSize
  let planeElems ← mulElems c.kvHeadCount kvLen
  let planeElems ← mulElems planeElems c.headDim
  require (planeElems ≤ sizeMax / c.elementByteCount) "KV packed byte size overflow"
  let planeBytes ← mulSize planeElems c.elementByteCount
  require (c.layerCount ≤ sizeMax / 2) "KV pool byte size overflow"
  let planes ← mulSize c.layerCount 2
  require (planes ≤ sizeMax / planeBytes) "KV pool byte size overflow"
  return (planeElems, planeBytes)

/-- The two planes of a layer. -/
def allocateLayer (zeros : Bool) (planeElems elementByteCount : Nat) : KvM (BufferView × BufferView) := do
  let allocate := if zeros then allocateFloatTensor else allocateEmptyFloatTensor
  let k ← allocate planeElems elementByteCount
  let v ← onError (allocate planeElems elementByteCount) (release (.view k))
  return (k, v)

/-- Whether the planes are without a zeroed staging copy; one that cannot be allocated is done without. -/
def unstaged (planeBytes : Nat) : KvM Bool :=
  if planeBytes ≤ maxKvHostStagingBytes then fails else pure true

/-- Planes for the first `n` layers, or for none. -/
def allocateLayers (zeros : Bool) (planeElems elementByteCount planeBytes : Nat) : Nat → KvM Unit
  | 0 => pure ()
  | n + 1 => do
    allocateLayers zeros planeElems elementByteCount planeBytes n
    let planes ← onError (allocateLayer zeros planeElems elementByteCount) do
      releaseLayers n
      -- the size in the message
      let _ ← mulSize planeBytes 2
    modifyFields (·.setK n (some planes.1))
    modifyFields (·.setV n (some planes.2))

/-- `dyninfer_iree_session_ensure_kv_pages`. -/
def ensureKvPages (pageCount : Nat) : KvM Unit := do
  let f ← getFields
  let c := f.config
  require (c.pageSize != 0) "paged KV is not configured"
  require (pageCount != 0) "paged KV pool requires page_count > 0"
  if f.kvLayerN = c.layerCount ∧ pageCount ≤ f.kvPageCount then pure ()
  else
    releaseLayers f.kvLayerN
    modifyFields (·.dropPool)
    require (c.layerCount != 0) "KV layer arrays are not configured"
    let size ← planeSize c pageCount
    let unstaged ← unstaged size.2
    allocateLayers (!unstaged) size.1 c.elementByteCount size.2 c.layerCount
    let planes ← mulSize size.2 2
    let bytes ← mulSize planes c.layerCount
    modifyFields fun f => { f with kvLayerN := c.layerCount, kvPageCount := pageCount, kvAllocatedBytes := bytes }

/-- The planes of the first `n` layers are cleared in place. -/
def zeroLayers : Nat → KvM Unit
  | 0 => pure ()
  | n + 1 => do
    zeroLayers n
    let f ← getFields
    zeroDeviceBuffer ((f.kvK.getD n none).elim 0 (·.byteLength))
    zeroDeviceBuffer ((f.kvV.getD n none).elim 0 (·.byteLength))

/-- `dyninfer_iree_session_reset_paged_kv`. -/
def resetPagedKv : KvM Unit := do
  let f ← getFields
  if f.kvLayerN = 0 then modifyFields (·.dropPool)
  else
    onError (zeroLayers f.kvLayerN) do
      releaseLayers f.kvLayerN
      modifyFields (·.dropPool)

/-! ## Invocations -/

/-- What an invocation's inputs make of its outputs, whose handles the device chooses. -/
abbrev ViewModule := List BufferView → Nat → List BufferView

/-- The four inputs before the planes; one output is before them. -/
def planeInputs : Nat := 4

/-- `iree_runtime_call_reset`. -/
def callReset (decode : Bool) : KvM Unit := do
  let f ← getFields
  releaseViews ((f.call decode).inputs ++ (f.call decode).outputs)
  modifyFields (·.setCall decode { ready := true })

/-- `cached_call_prepare`; an entry point keeps its name for the session. -/
def cachedCallPrepare (decode : Bool) : KvM Unit := do
  let f ← getFields
  if (f.call decode).ready then callReset decode
  else
    attempt "initializing a call"
    modifyFields (·.setCall decode { ready := true })

/-- `ensure_paged_logits`. -/
def ensurePagedLogits : KvM Unit := do
  let f ← getFields
  if f.pagedLogits.isSome then pure ()
  else
    require (f.config.vocabSize != 0) "paged logits buffer requires vocab_size"
    attempt "allocating zero-filled logits staging"
    let view ← allocateBufferCopy (f.config.vocabSize * 4)
    modifyFields fun f => { f with pagedLogits := some view }

/-- `iree_runtime_call_inputs_push_back_buffer_view`. -/
def pushInput (decode : Bool) (view : Option BufferView) : KvM Unit := do
  attempt "pushing an input"
  match view with
  | none => throw "null view"
  | some view =>
    retain (.view view)
    modifyFields fun f => f.setCall decode { f.call decode with inputs := (f.call decode).inputs ++ [view] }

def pushLayers (decode : Bool) : Nat → KvM Unit
  | 0 => pure ()
  | n + 1 => do
    pushLayers decode n
    let f ← getFields
    pushInput decode (f.kvK.getD n none)
    pushInput decode (f.kvV.getD n none)

def retainViews : List BufferView → KvM Unit
  | [] => pure ()
  | view :: views => do
    retain (.view view)
    retainViews views

/-- `iree_runtime_call_invoke`. -/
def invoke (exe : ViewModule) (decode : Bool) : KvM Unit := do
  attempt "invoking"
  let f ← getFields
  let handle ← nextHandle
  let outputs := exe (f.call decode).inputs handle
  retainViews outputs
  modifyFields (·.setCall decode { f.call decode with outputs })

/-- `iree_runtime_call_outputs_pop_front_buffer_view`. -/
def popOutput (decode : Bool) : KvM BufferView := do
  attempt "popping an output"
  let f ← getFields
  match (f.call decode).outputs with
  | [] => throw "no output"
  | view :: rest =>
    modifyFields (·.setCall decode { f.call decode with outputs := rest })
    return view

/-- `adopt_tied_kv_view`. -/
def adoptTiedKvView (stored : Option BufferView) (out : BufferView) : KvM (Option BufferView) :=
  if stored.map (·.buffer) ≠ some out.buffer then do
    releaseView stored
    return some out
  else do
    release (.view out)
    return stored

def adoptLayer (decode : Bool) (layer : Nat) : KvM Unit := do
  let k ← popOutput decode
  let v ← onError (popOutput decode) (release (.view k))
  let f ← getFields
  let stored ← adoptTiedKvView (f.kvK.getD layer none) k
  modifyFields (·.setK layer stored)
  let stored ← adoptTiedKvView (f.kvV.getD layer none) v
  modifyFields (·.setV layer stored)

def adoptLayers (decode : Bool) : Nat → KvM Unit
  | 0 => pure ()
  | n + 1 => do
    adoptLayers decode n
    adoptLayer decode n

/-- An output that is copied to the host, where that is asked for. -/
def readOutput (decode wanted : Bool) : KvM Unit := do
  let view ← popOutput decode
  andFinally (if wanted then attempt "copying an output" else pure ()) (release (.view view))

/-- `invoke_paged_chunk_once`. -/
def invokePagedChunkOnce (exe : ViewModule) (decode wantLogits : Bool) : KvM Unit := do
  let f ← getFields
  require (f.kvLayerN != 0) "paged KV hist is not allocated"
  cachedCallPrepare decode
  ensurePagedLogits
  andFinally (do
      let f ← getFields
      pushInput decode f.pagedTokens
      pushInput decode f.pagedLast
      pushInput decode f.pagedStartPos
      pushInput decode f.pagedLogits
      pushLayers decode f.kvLayerN
      invoke exe decode
      readOutput decode wantLogits
      adoptLayers decode f.kvLayerN
      readOutput decode true)
    (callReset decode)

/-- `ensure_i64_vector_view`, of the tokens. -/
def ensureTokens (count : Nat) : KvM Unit := do
  let f ← getFields
  if f.pagedTokens = none ∨ f.pagedTokensLen ≠ count then
    releaseView f.pagedTokens
    modifyFields fun f => { f with pagedTokens := none, pagedTokensLen := 0 }
    let view ← allocateBufferCopy (count * 8)
    modifyFields fun f => { f with pagedTokens := some view, pagedTokensLen := count }
  else attempt "transferring the tokens"

/-- `ensure_i64_scalar_view`. -/
def ensureI64ScalarView (slot : Option BufferView) : KvM BufferView :=
  match slot with
  | none => allocateBufferCopy 8
  | some view => do
    attempt "transferring a scalar"
    return view

def ensureLast : KvM Unit := do
  let f ← getFields
  let view ← ensureI64ScalarView f.pagedLast
  modifyFields fun f => { f with pagedLast := some view }

def ensureStartPos : KvM Unit := do
  let f ← getFields
  let view ← ensureI64ScalarView f.pagedStartPos
  modifyFields fun f => { f with pagedStartPos := some view }

/-- `dyninfer_iree_session_invoke_paged_chunk`. -/
def invokePagedChunk (exe : ViewModule) (tokens : List Int) (last startPos : Int) (wantLogits : Bool) : KvM Unit := do
  let f ← getFields
  require (Shim.acceptsChunk f.config.chunkSize tokens last startPos) "invalid paged chunk invocation"
  ensureTokens tokens.length
  ensureLast
  ensureStartPos
  invokePagedChunkOnce exe (tokens.length == 1) wantLogits

/-- `dyninfer_iree_session_destroy`, of these fields. -/
def destroy : KvM Unit := do
  let f ← getFields
  releaseViews ((f.call false).inputs ++ (f.call false).outputs)
  releaseViews ((f.call true).inputs ++ (f.call true).outputs)
  releaseView f.pagedTokens
  releaseView f.pagedLast
  releaseView f.pagedStartPos
  releaseView f.pagedLogits
  releaseLayers f.kvLayerN

/-! ## Runs -/

/-- A call on a session. -/
inductive Op where
  | configure (config : KvPoolConfig)
  | ensure (pageCount : Nat)
  | reset
  | invoke (tokens : List Int) (last startPos : Int) (wantLogits : Bool)

def Op.program (exe : ViewModule) : Op → KvM Unit
  | .configure config => configurePagedKv config
  | .ensure pageCount => ensureKvPages pageCount
  | .reset => resetPagedKv
  | .invoke tokens last startPos wantLogits => invokePagedChunk exe tokens last startPos wantLogits

/-- The session behind a program, whether or not it fails. -/
def after (x : KvM Unit) (s : KvSession) : KvSession :=
  match x.run s with
  | .ok _ s' => s'
  | .error _ s' => s'

def run (exe : ViewModule) (s : KvSession) (ops : List Op) : KvSession :=
  ops.foldl (fun s op => after (op.program exe) s) s

end KvSession

end Dyninfer
