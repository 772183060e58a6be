/-
Target discovery (`dyninfer-target`): the devices of a dump of
`iree-run-module --dump_devices`, read line by line, their order of
preference, and the target that a specification names. The dump is a
parameter, as is what the host detects of itself.
-/
import Dyninfer.Target.Profile
import Mathlib.Data.Prod.Lex

namespace Dyninfer

structure DiscoveredDevice where
  driver : String
  deviceId : Nat
  name : String
  uri : String
  arch : Option String
  profile : TargetProfile

/-- What the dump has said of a device so far. -/
structure PendingDevice where
  driver : String
  uri : String
  name : String := ""
  arch : Option String := none
  features : List String := []
  subgroupSize : Option Nat := none
  maxWorkgroupInvocations : Option Nat := none

namespace TargetDiscovery

/-- `nonempty_name`. -/
def nonemptyName (name fallback : String) : String := if (trimSpace name).isEmpty then fallback else name

/-! ## The dump -/

/-- The scheme of a URI; the whole of a text that has none. -/
def uriScheme (uri : String) : String :=
  match Text.find "://".toList uri.toList with
  | some i => String.ofList (uri.toList.take i)
  | none => uri

/-- `trim_start_matches('#')`. -/
def dropHashes (s : String) : String := String.ofList (s.toList.dropWhile (· == '#'))

/-- A line of a device's description; the first name counts, of the other facts the last. -/
def readFact (p : PendingDevice) (trimmed : String) : PendingDevice :=
  if Text.startsWith trimmed "#   " && p.name.isEmpty then { p with name := trimSpace (dropHashes trimmed) }
  else match Text.strip trimmed "- gpu-arch-name:" with
  | some arch => { p with arch := some (trimSpace arch) }
  | none => match Text.strip trimmed "- gpu-compute-capability:" with
  | some capability => { p with features := p.features ++ ["compute_capability=" ++ trimSpace capability] }
  | none => match Text.strip trimmed "- gpu-subgroup-size:" with
  | some value => { p with subgroupSize := Text.parseUnsigned (2 ^ 32) (trimSpace value) }
  | none => match Text.strip trimmed "- gpu-max-workgroup-invocations:" with
  | some value => { p with maxWorkgroupInvocations := Text.parseUnsigned (2 ^ 32) (trimSpace value) }
  | none => p

/-- The reader of a dump. -/
structure DumpState where
  devices : List DiscoveredDevice := []
  currentDriver : Option String := none
  pending : Option PendingDevice := none
  hipIndex : Nat := 0
  cudaIndex : Nat := 0

section discovery

variable (host : HostFacts) (digests : ContentDigests)

/-- `cpu_device`. -/
def cpuDevice : DiscoveredDevice where
  driver := "local-task"
  deviceId := 0
  name := "host-cpu"
  uri := "local-task://"
  arch := none
  profile := .llvmCpuHost digests host

/-- The local device of a dump. -/
def localDevice (p : PendingDevice) : DiscoveredDevice where
  driver := "local-task"
  deviceId := 0
  name := nonemptyName p.name "host-cpu"
  uri := p.uri
  arch := none
  profile := .llvmCpuHost digests host

/-- A GPU of a dump: `word` is what a device without a name is called after, `ofArch` the profile of an
architecture. -/
def gpuDevice (driver word : String) (ofArch : String → TargetProfile) (id : Nat) (p : PendingDevice) :
    DiscoveredDevice :=
  let arch := p.arch.filter (!·.isEmpty)
  let name := nonemptyName p.name ((arch.map (word ++ "-" ++ ·)).getD (word ++ "-device"))
  { driver
    deviceId := id
    name
    uri := p.uri
    arch
    profile := (((ofArch (arch.getD "")).withDeviceIdentity digests id p.uri name).withDiscoveredFeatures digests
      p.features).withExecutionLimits digests p.subgroupSize p.maxWorkgroupInvocations }

def cudaDevice : Nat → PendingDevice → DiscoveredDevice := gpuDevice digests "cuda" "cuda" (.cuda digests)

def hipDevice : Nat → PendingDevice → DiscoveredDevice := gpuDevice digests "hip" "rocm" (.hipRocm digests)

/-- `flush`, with `pending_to_device`: a device of another driver is dropped. -/
def flush (s : DumpState) : DumpState :=
  match s.pending with
  | none => s
  | some p =>
    if p.driver = "cuda" then
      { s with pending := none, devices := s.devices ++ [cudaDevice digests s.cudaIndex p], cudaIndex := s.cudaIndex + 1 }
    else if p.driver = "hip" ∨ p.driver = "rocm" then
      { s with pending := none, devices := s.devices ++ [hipDevice digests s.hipIndex p], hipIndex := s.hipIndex + 1 }
    else if p.driver = "local-task" then
      { s with pending := none, devices := s.devices ++ [localDevice host digests p] }
    else { s with pending := none }

/-- One line of the dump. -/
def readLine (s : DumpState) (line : String) : DumpState :=
  let trimmed := trimSpace line
  match (Text.strip trimmed "# Enumerated devices for driver '").bind (Text.stripEnd · "'") with
  | some driver => { flush host digests s with currentDriver := some driver }
  | none => match Text.strip trimmed "# --device=" with
  | some rest =>
    let uri := trimSpace rest
    { flush host digests s with pending := some { driver := s.currentDriver.getD (uriScheme uri), uri } }
  | none => { s with pending := s.pending.map (readFact · trimmed) }

/-- `parse_dump_devices`. -/
def parseDumpDevices (dump : String) : List DiscoveredDevice :=
  let devices := (flush host digests ((Text.lines dump).foldl (readLine host digests) {})).devices
  if devices.any (Text.startsWith ·.driver "local") then devices else devices ++ [cpuDevice host digests]

/-! ## Preference -/

/-- `driver_rank`. -/
def driverRank (driver : String) : Nat :=
  if driver = "cuda" then 0
  else if driver = "hip" ∨ driver = "rocm" then 1
  else if driver = "local-task" ∨ driver = "local-sync" ∨ driver = "local" then 2
  else 3

/-- `sort_by_preference`. -/
def sortByPreference (devices : List DiscoveredDevice) : List DiscoveredDevice :=
  Sorting.sortByKey (fun d => toLex (driverRank d.driver, d.deviceId)) devices

/-- `TargetDiscovery::discover`, from what the tool printed or failed with. -/
def discover (dump : Except DynInferError String) : List DiscoveredDevice :=
  match dump with
  | .ok dump =>
    let devices := parseDumpDevices host digests dump
    sortByPreference (if devices.isEmpty then [cpuDevice host digests] else devices)
  | .error _ => [cpuDevice host digests]

/-! ## Specifications -/

/-- `unverified_target_error`. -/
def unverifiedTargetError (device : DiscoveredDevice) : DynInferError :=
  .config s!"selected local device `{device.name}` ({device.uri}) did not report an exact compile architecture; refusing to guess target flags"

/-- The profile of a device that can be compiled for. -/
def readyProfile (device : DiscoveredDevice) : Except DynInferError TargetProfile :=
  if device.profile.isCompileReady then .ok device.profile else .error (unverifiedTargetError device)

/-- `TargetDiscovery::select_best`. -/
def selectBest (dump : Except DynInferError String) : Except DynInferError TargetProfile :=
  readyProfile ((discover host digests dump).head?.getD (cpuDevice host digests))

/-- `canonical_driver`. -/
def canonicalDriver (driver : String) : String := if driver = "rocm" then "hip" else driver

structure GpuRequest where
  driver : String
  architecture : Option String := none
  uri : Option String := none

/-- A specification that begins with the word of a driver, alone or before an architecture. -/
def wordRequest (spec word driver : String) : Option (Option GpuRequest) :=
  let lower := Text.toAsciiLowercase spec
  if lower = word then some (some { driver })
  else if Text.startsWith lower (word ++ ":") || Text.startsWith lower (word ++ "/") then
    let raw := trimSpace (String.ofList (spec.toList.drop (word.toList.length + 1)))
    some (if raw.isEmpty then none else some { driver, architecture := some raw })
  else none

/-- `parse_gpu_request`. -/
def parseGpuRequest (spec : String) : Option GpuRequest :=
  let lower := Text.toAsciiLowercase spec
  if Text.startsWith lower "hip://" || Text.startsWith lower "rocm://" then some { driver := "hip", uri := some spec }
  else if Text.startsWith lower "cuda://" then some { driver := "cuda", uri := some spec }
  else match (wordRequest spec "rocm" "hip").or ((wordRequest spec "hip" "hip").or (wordRequest spec "cuda" "cuda")) with
  | some request => request
  | none =>
    if Text.startsWith lower "gfx" || Text.startsWith lower "mi" || Text.startsWith lower "rdna" then
      some { driver := "hip", architecture := some spec }
    else if Text.startsWith lower "sm_" then some { driver := "cuda", architecture := some spec }
    else none

/-- A device that a request is for. -/
def GpuRequest.admits (request : GpuRequest) (device : DiscoveredDevice) : Bool :=
  canonicalDriver device.driver == request.driver &&
    request.architecture.all (device.arch == some ·) && request.uri.all (device.uri == ·)

def unknownSpecError (spec : String) : DynInferError :=
  .config s!"unknown target specification: {spec} (expected auto|cpu|rocm|hip|cuda|rocm:<gfx>|cuda:<sm>|hip://<device>|cuda://<device>)"

def noDeviceError (spec : String) : DynInferError :=
  .config s!"target `{spec}` does not match a locally discovered device; cross-target or guessed GPU compilation is not supported"

/-- The specifications of the host's processor. -/
def isLocalSpec (spec : String) : Bool := spec == "cpu" || spec == "llvm-cpu" || Text.startsWith spec "local"

/-- `TargetDiscovery::resolve`, of a trimmed specification. -/
def resolveTrimmed (dump : Except DynInferError String) (spec : String) : Except DynInferError TargetProfile :=
  if spec = "auto" then selectBest host digests dump
  else if isLocalSpec spec then .ok (.llvmCpuHost digests host)
  else match parseGpuRequest spec with
  | none => .error (unknownSpecError spec)
  | some request => match (discover host digests dump).find? request.admits with
  | none => .error (noDeviceError spec)
  | some device => readyProfile device

/-- `TargetDiscovery::resolve`. -/
def resolve (dump : Except DynInferError String) (spec : String) : Except DynInferError TargetProfile :=
  resolveTrimmed host digests dump (trimSpace spec)

end discovery

end TargetDiscovery

end Dyninfer
