/-
What the inventory says of a machine, whatever the tool prints: the host is in
it, the devices stand in their order of preference, those of a GPU driver are
numbered as they were printed and carry what was printed of them and nothing
else, and a profile has exactly the facts of its device, so that a GPU without
an architecture is never compiled for.
-/
import Dyninfer.Runtime.LoadedModel
import Dyninfer.Target.DumpFacts

namespace Dyninfer

open TargetProfile

theorem nonempty_eq {s : String} (htrim : trimSpace s = s) (hs : s ≠ "") : nonempty s = some s := by
  unfold nonempty
  rw [htrim, if_neg (by simpa using hs)]

namespace TargetDiscovery

theorem known_of_gpu {driver : String} (h : driver ∈ ["cuda", "hip"]) : driver ∈ ["cuda", "hip", "local-task"] :=
  List.mem_append_left ["local-task"] h

theorem not_localTask_of_gpu {driver : String} (h : driver ∈ ["cuda", "hip"]) : driver ≠ "local-task" := by
  rintro rfl
  exact absurd h (by decide)

section inventory

variable (host : HostFacts) (digests : ContentDigests)

/-! ## Devices -/

/-- A device of an inventory. -/
inductive Reported : DiscoveredDevice → Prop where
  | cuda (id : Nat) (p : PendingDevice) (hp : p.Trimmed) : Reported (cudaDevice digests id p)
  | hip (id : Nat) (p : PendingDevice) (hp : p.Trimmed) : Reported (hipDevice digests id p)
  | localTask (p : PendingDevice) : Reported (localDevice host digests p)

theorem reported_cpuDevice : Reported host digests (cpuDevice host digests) :=
  .localTask { driver := "local-task", uri := "local-task://", name := "host-cpu" }

/-- The flags of a GPU of an architecture; there are none for one that was not reported. -/
def gpuFlags (device target : String) (arch : Option String) : List String :=
  (arch.map fun arch => [device, target ++ arch]).getD []

/-- The flags a device is compiled with. -/
def compileFacts (driver : String) (arch : Option String) : List String :=
  if driver = "cuda" then gpuFlags "--iree-hal-target-device=cuda" "--iree-cuda-target=" arch
  else if driver = "hip" then gpuFlags "--iree-hal-target-device=hip" "--iree-rocm-target=" arch
  else
    ["--iree-hal-target-device=local", "--iree-hal-local-target-device-backends=llvm-cpu",
      "--iree-llvmcpu-target-cpu=host"]

/-- The features that an architecture stands for. -/
def archFeatures (driver : String) (arch : Option String) : List String :=
  if driver = "cuda" then
    (arch.map ("cuda-target=" ++ ·)).toList ++
      ((arch.bind cudaSm).map fun sm => (cudaFeatures.filter (·.1 ≤ sm)).map (·.2)).getD []
  else (arch.map ("rocm-target=" ++ ·)).toList

/-- What a GPU is called that was printed without a name. -/
def unnamed (driver : String) (arch : Option String) : String :=
  let word := if driver = "cuda" then "cuda" else "rocm"
  (arch.map (word ++ "-" ++ ·)).getD (word ++ "-device")

/-- A device whose profile says what was reported of it. -/
structure Faithful (d : DiscoveredDevice) : Prop where
  known : d.driver ∈ ["cuda", "hip", "local-task"]
  driver : d.profile.driver = d.driver
  deviceId : d.profile.deviceId = some d.deviceId
  architecture : d.profile.architecture = d.arch
  ready : d.driver ≠ "local-task" → (d.profile.isCompileReady = true ↔ d.arch.isSome)
  flags : d.profile.executableTargetFlags.Perm (compileFacts d.driver d.arch)
  runtimeDevice : d.driver ≠ "local-task" → d.profile.runtimeDevice = if d.uri = "" then d.driver else d.uri
  localTask : d.driver = "local-task" → d.profile = .llvmCpuHost digests host
  refreshed : d.profile.Refreshed digests

/-- A GPU that carries the facts printed of it, and beyond those only what its architecture stands for. -/
structure Carries (gpu : String) (id : Nat) (p : PrintedDevice) (d : DiscoveredDevice) : Prop where
  driver : d.driver = gpu
  deviceId : d.deviceId = id
  uri : d.uri = p.uri
  name : d.name = if p.name = "" then unnamed gpu p.arch else p.name
  arch : d.arch = p.arch
  features : ∀ feature, feature ∈ d.profile.features ↔ feature ∈ archFeatures gpu p.arch ∨ feature ∈ p.features
  subgroupSize : d.profile.subgroupSize = p.subgroupSize.or (if gpu = "cuda" then some 32 else none)
  maxWorkgroupInvocations : d.profile.maxWorkgroupInvocations = p.maxWorkgroupInvocations
  triple : d.profile.triple = none
  deviceUri : d.profile.deviceUri = nonempty p.uri
  deviceName : d.profile.deviceName = nonempty d.name

/-- What the profile of an architecture says, before a device is known. -/
structure OfArch (gpu device target : String) (arch : Option String) (profile : TargetProfile) : Prop where
  driver : profile.driver = gpu
  architecture : profile.architecture = arch
  verified : profile.verified = arch.isSome
  flags : profile.executableTargetFlags = sortDedup (gpuFlags device target arch)
  features : profile.features = sortDedup (archFeatures gpu arch)
  subgroupSize : profile.subgroupSize = if gpu = "cuda" then some 32 else none
  maxWorkgroupInvocations : profile.maxWorkgroupInvocations = none
  triple : profile.triple = none

variable {host} {digests}

theorem cuda_ofArch (arch : String) :
    OfArch "cuda" "--iree-hal-target-device=cuda" "--iree-cuda-target=" (nonempty arch) (.cuda digests arch) := by
  constructor <;> simp [TargetProfile.cuda, gpuFlags, archFeatures]

theorem hipRocm_ofArch (arch : String) :
    OfArch "hip" "--iree-hal-target-device=hip" "--iree-rocm-target=" (nonempty arch) (.hipRocm digests arch) := by
  constructor <;> simp [TargetProfile.hipRocm, gpuFlags, archFeatures]

/-- An architecture as it is kept. -/
theorem nonempty_arch {p : PendingDevice} (hp : p.Trimmed) :
    nonempty ((p.arch.filter (!·.isEmpty)).getD "") = p.arch.filter (!·.isEmpty) := by
  cases harch : p.arch with
  | none => rfl
  | some arch =>
    by_cases hempty : arch = ""
    · subst hempty
      rfl
    · have hfilter : (some arch).filter (!·.isEmpty) = some arch := by simp [hempty]
      rw [hfilter]
      exact nonempty_eq (hp.arch arch harch) hempty

theorem nodup_gpuFlags {device target : String} (hne : ∀ arch, device ≠ target ++ arch) (arch : Option String) :
    (gpuFlags device target arch).Nodup := by
  cases arch with
  | none => exact List.nodup_nil
  | some arch => exact List.nodup_cons.mpr ⟨fun h => hne arch (List.mem_singleton.mp h), List.nodup_singleton _⟩

/-- A GPU, from what the profile of an architecture says. -/
theorem gpuDevice_faithful {driver word device target : String} {ofArch : String → TargetProfile} (id : Nat)
    {p : PendingDevice} (hp : p.Trimmed) (hdriver : driver ∈ ["cuda", "hip"])
    (hfacts : compileFacts driver = gpuFlags device target) (hne : ∀ arch, device ≠ target ++ arch)
    (hofArch : ∀ arch, OfArch driver device target (nonempty arch) (ofArch arch)) :
    Faithful host digests (gpuDevice digests driver word ofArch id p) := by
  have hprofile := hofArch ((p.arch.filter (!·.isEmpty)).getD "")
  rw [nonempty_arch hp] at hprofile
  refine ⟨known_of_gpu hdriver, hprofile.driver, rfl, hprofile.architecture, fun _ => ?_, ?_, fun _ => ?_,
    fun h => absurd h (not_localTask_of_gpu hdriver), refreshed_withExecutionLimits _ _ _ _⟩
  · have hgpu : ["cuda", "hip", "rocm"].contains driver = true :=
      List.contains_iff_mem.mpr (List.mem_append_left ["rocm"] hdriver)
    simp only [gpuDevice, isCompileReady, withExecutionLimits, withDiscoveredFeatures, withDeviceIdentity,
      refreshFingerprint_verified, refreshFingerprint_driver, refreshFingerprint_architecture, hprofile.driver,
      hprofile.architecture, hprofile.verified, hgpu, Bool.not_true, Bool.false_or, Bool.and_self]
  · simp only [gpuDevice, withExecutionLimits, withDiscoveredFeatures, withDeviceIdentity, refreshFingerprint_flags,
      hprofile.flags, hfacts, sortDedup_sortDedup]
    exact perm_sortDedup (nodup_gpuFlags hne _)
  · simp only [gpuDevice, runtimeDevice, withExecutionLimits, withDiscoveredFeatures, withDeviceIdentity,
      refreshFingerprint_driver, refreshFingerprint_deviceUri, hprofile.driver]
    split
    · next huri =>
      rw [huri]
      rfl
    · next huri => rw [nonempty_eq hp.uri huri, Option.filter_some, if_pos (by simpa using huri), Option.getD_some]

theorem llvmCpuHost_flags : (TargetProfile.llvmCpuHost digests host).executableTargetFlags =
    sortDedup (compileFacts "local-task" none) := by
  simp only [TargetProfile.llvmCpuHost, refreshFingerprint_flags]
  rfl

theorem cudaDevice_faithful (id : Nat) {p : PendingDevice} (hp : p.Trimmed) :
    Faithful host digests (cudaDevice digests id p) := by
  refine gpuDevice_faithful id hp (by decide) (funext fun _ => if_pos rfl) (fun arch h => ?_) cuda_ofArch
  have hchars := congrArg String.toList h
  simp at hchars

theorem hipDevice_faithful (id : Nat) {p : PendingDevice} (hp : p.Trimmed) :
    Faithful host digests (hipDevice digests id p) := by
  refine gpuDevice_faithful id hp (by decide) (funext fun _ => rfl) (fun arch h => ?_) hipRocm_ofArch
  have hchars := congrArg String.toList h
  simp at hchars

theorem localDevice_faithful (p : PendingDevice) : Faithful host digests (localDevice host digests p) := by
  refine ⟨List.mem_append_right ["cuda", "hip"] (List.mem_singleton_self _), rfl, rfl, rfl, fun h => absurd rfl h, ?_,
    fun h => absurd rfl h, fun _ => rfl, refreshed_refreshFingerprint digests _⟩
  rw [localDevice, llvmCpuHost_flags]
  exact perm_sortDedup (by decide)

theorem Reported.faithful {d : DiscoveredDevice} (h : Reported host digests d) : Faithful host digests d := by
  cases h with
  | cuda id p hp => exact cudaDevice_faithful id hp
  | hip id p hp => exact hipDevice_faithful id hp
  | localTask p => exact localDevice_faithful p

/-! ## What a GPU carries -/

/-- A name that was printed is kept. -/
theorem nonemptyName_name (p : PrintedDevice) (fallback : String) :
    nonemptyName p.pending.name fallback = if p.name = "" then fallback else p.name := by
  have htrim : trimSpace p.pending.name = p.name := p.trimSpace_name
  simp only [nonemptyName, htrim, String.isEmpty_iff]
  rfl

/-- A GPU with its facts, from what the profile of an architecture says. -/
theorem gpuDevice_carries {driver word device target : String} {ofArch : String → TargetProfile} (id : Nat)
    {p : PrintedDevice} (hp : p.pending.Trimmed) (hword : word = if driver = "cuda" then "cuda" else "rocm")
    (hofArch : ∀ arch, OfArch driver device target (nonempty arch) (ofArch arch)) :
    Carries driver id p (gpuDevice digests driver word ofArch id p.pending) := by
  have harch : p.pending.arch.filter (!·.isEmpty) = p.arch := rfl
  have hprofile := hofArch (p.arch.getD "")
  have hkept := nonempty_arch hp
  rw [harch] at hkept
  rw [hkept] at hprofile
  have hname : nonemptyName p.pending.name ((p.arch.map (word ++ "-" ++ ·)).getD (word ++ "-device")) =
      if p.name = "" then unnamed driver p.arch else p.name := by
    rw [nonemptyName_name, unnamed, ← hword]
  unfold gpuDevice
  rw [harch]
  constructor <;> dsimp only
  case name => exact hname
  case features =>
    intro feature
    simp only [withExecutionLimits, withDiscoveredFeatures, withDeviceIdentity, refreshFingerprint_features, mem_sortDedup,
      List.mem_append, hprofile.features]
    rfl
  case subgroupSize =>
    simp only [withExecutionLimits, withDiscoveredFeatures, withDeviceIdentity, refreshFingerprint_subgroupSize,
      hprofile.subgroupSize]
    rfl
  case maxWorkgroupInvocations =>
    simp only [withExecutionLimits, withDiscoveredFeatures, withDeviceIdentity,
      refreshFingerprint_maxWorkgroupInvocations, hprofile.maxWorkgroupInvocations, Option.or_none]
    rfl
  case triple =>
    simp only [withExecutionLimits, withDiscoveredFeatures, withDeviceIdentity, refreshFingerprint_triple, hprofile.triple]
  case deviceUri =>
    simp only [withExecutionLimits, withDiscoveredFeatures, withDeviceIdentity, refreshFingerprint_deviceUri]
    rfl
  case deviceName =>
    simp only [withExecutionLimits, withDiscoveredFeatures, withDeviceIdentity, refreshFingerprint_deviceName]
  all_goals rfl

section made

variable {driver : String} (id : Nat) {p : PrintedDevice}

theorem made_uri : (made host digests driver id p).uri = p.uri := by
  unfold made
  split
  · rfl
  · split <;> rfl

theorem reported_made (huri : trimSpace p.uri = p.uri) : Reported host digests (made host digests driver id p) := by
  unfold made
  split
  · exact .cuda id _ (PrintedDevice.pending_trimmed huri)
  · split
    · exact .hip id _ (PrintedDevice.pending_trimmed huri)
    · exact .localTask _

theorem carries_made (hdriver : driver ∈ ["cuda", "hip"]) (huri : trimSpace p.uri = p.uri) :
    Carries driver id p (made host digests driver id p) := by
  have htrimmed := PrintedDevice.pending_trimmed huri
  simp only [List.mem_cons, List.not_mem_nil, or_false] at hdriver
  rcases hdriver with rfl | rfl
  · rw [made_cuda]
    exact gpuDevice_carries id htrimmed (if_pos rfl).symm cuda_ofArch
  · rw [made_hip]
    exact gpuDevice_carries id htrimmed (if_neg (by decide)).symm hipRocm_ofArch

/-- What a device takes from its description alone does not depend on its number. -/
theorem map_made {driver : String} {β : Type} {f : DiscoveredDevice → β} {g : PrintedDevice → β}
    (h : ∀ id p, f (made host digests driver id p) = g p) (devices : List PrintedDevice) :
    (devices.mapIdx (made host digests driver)).map f = devices.map g := by
  refine List.ext_getElem (by simp) fun i _ _ => ?_
  rw [List.getElem_map, List.getElem_mapIdx, List.getElem_map, h]

/-- The devices of a driver are made in the order of their numbers. -/
theorem pairwise_made (driver : String) (devices : List PrintedDevice) :
    (devices.mapIdx (made host digests driver)).Pairwise fun a b => a.deviceId ≤ b.deviceId := by
  refine List.pairwise_iff_getElem.mpr fun i j hi hj hij => ?_
  rw [List.getElem_mapIdx, List.getElem_mapIdx]
  unfold made
  split
  · exact hij.le
  · split
    · exact hij.le
    · exact le_rfl

end made

/-! ## The inventory -/

/-- The devices printed; there are none where the tool failed. -/
def printedBy (dump : Except DynInferError String) : List PrintedDevice :=
  match dump with
  | .ok dump => printed none (Text.lines dump)
  | .error _ => []

variable (host) (digests) in
/-- What a list of discovered devices is, of those that were printed. -/
structure Inventory (devices : List DiscoveredDevice) (printed : List PrintedDevice) : Prop where
  known : ∀ d ∈ devices, d.driver ∈ ["cuda", "hip", "local-task"]
  gpus : ∀ driver ∈ ["cuda", "hip"],
    ofDriver driver devices = (printedFor driver printed).mapIdx (made host digests driver)
  /-- The host is offered where it is not printed. -/
  hosts : ofDriver "local-task" devices =
    if printedFor "local-task" printed = [] then [cpuDevice host digests]
    else (printedFor "local-task" printed).mapIdx (made host digests "local-task")

/-- Of the drivers that are known, the host's alone has the name of a local one. -/
theorem any_local_iff {devices : List DiscoveredDevice} (hknown : ∀ d ∈ devices, d.driver ∈ ["cuda", "hip", "local-task"]) :
    devices.any (Text.startsWith ·.driver "local") = true ↔ ofDriver "local-task" devices ≠ [] := by
  rw [List.any_eq_true]
  constructor
  · rintro ⟨d, hmem, hlocal⟩
    have hdriver := hknown d hmem
    simp only [List.mem_cons, List.not_mem_nil, or_false] at hdriver
    rcases hdriver with hcuda | hhip | htask
    · rw [hcuda] at hlocal
      exact absurd hlocal (by decide)
    · rw [hhip] at hlocal
      exact absurd hlocal (by decide)
    · exact List.ne_nil_of_mem (htask ▸ mem_ofDriver_self hmem)
  · intro hne
    obtain ⟨d, hd⟩ := List.exists_mem_of_ne_nil _ hne
    refine ⟨d, (List.mem_filter.mp hd).1, ?_⟩
    rw [driver_of_mem_ofDriver hd]
    decide

/-- The host is added where no device is printed for it. -/
theorem inventory_of_reads {s : DumpState} {printed : List PrintedDevice} (h : s.Reads host digests printed) :
    Inventory host digests
      (if s.devices.any (Text.startsWith ·.driver "local") then s.devices else s.devices ++ [cpuDevice host digests])
      printed := by
  have hhosts := h.made "local-task" (by decide)
  split
  · next hlocal =>
    rw [any_local_iff h.known, hhosts, ne_eq, List.mapIdx_eq_nil_iff] at hlocal
    exact ⟨h.known, fun driver hdriver => h.made driver (known_of_gpu hdriver), by rw [if_neg hlocal, hhosts]⟩
  · next hlocal =>
    rw [any_local_iff h.known, not_not, hhosts, List.mapIdx_eq_nil_iff] at hlocal
    refine ⟨fun d hd => ?_, fun driver hdriver => ?_, ?_⟩
    · rcases List.mem_append.mp hd with hold | hnew
      · exact h.known d hold
      · rw [List.mem_singleton.mp hnew, cpuDevice_driver]
        decide
    · have hne : (cpuDevice host digests).driver ≠ driver := (not_localTask_of_gpu hdriver).symm
      rw [ofDriver_append, if_neg hne, List.append_nil, h.made driver (known_of_gpu hdriver)]
    · rw [ofDriver_append, cpuDevice_driver, if_pos rfl, if_pos hlocal, hhosts, hlocal]
      rfl

theorem parseDumpDevices_inventory (dump : String) :
    Inventory host digests (parseDumpDevices host digests dump) (printed none (Text.lines dump)) := by
  have hstart : DumpState.Reads host digests {} [] := ⟨by simp, fun _ _ => rfl, rfl, rfl⟩
  exact inventory_of_reads (@foldl_readLine_reads host digests (Text.lines dump) {} [] none hstart rfl)

/-! ## The order of preference -/

theorem pairwise_sortByPreference (devices : List DiscoveredDevice) : (sortByPreference devices).Pairwise fun a b =>
    driverRank a.driver < driverRank b.driver ∨ driverRank a.driver = driverRank b.driver ∧ a.deviceId ≤ b.deviceId := by
  have hsorted : (sortByPreference devices).Pairwise fun a b =>
      toLex (driverRank a.driver, a.deviceId) ≤ toLex (driverRank b.driver, b.deviceId) := Sorting.pairwise_sortByKey devices
  exact hsorted.imp Prod.Lex.toLex_le_toLex.mp

/-- The order of preference keeps that of the devices of a driver. -/
theorem ofDriver_sortByPreference {driver : String} {devices : List DiscoveredDevice}
    (h : (ofDriver driver devices).Pairwise fun a b => a.deviceId ≤ b.deviceId) :
    ofDriver driver (sortByPreference devices) = ofDriver driver devices := by
  refine Sorting.filter_sortByKey_of_pairwise (h.imp_of_mem fun {a b} ha hb hab => ?_)
  rw [Prod.Lex.toLex_le_toLex, driver_of_mem_ofDriver ha, driver_of_mem_ofDriver hb]
  exact .inr ⟨rfl, hab⟩

theorem sortByPreference_inventory {devices : List DiscoveredDevice} {printed : List PrintedDevice}
    (h : Inventory host digests devices printed) : Inventory host digests (sortByPreference devices) printed := by
  have hperm : (sortByPreference devices).Perm devices := Sorting.perm_sortByKey _ _
  refine ⟨fun d hd => h.known d (hperm.mem_iff.mp hd), fun driver hdriver => ?_, ?_⟩
  · rw [ofDriver_sortByPreference, h.gpus driver hdriver]
    rw [h.gpus driver hdriver]
    exact pairwise_made driver _
  · rw [ofDriver_sortByPreference, h.hosts]
    rw [h.hosts]
    split
    · exact List.pairwise_singleton _ _
    · exact pairwise_made _ _

theorem Inventory.local_mem {devices : List DiscoveredDevice} {printed : List PrintedDevice}
    (h : Inventory host digests devices printed) : ∃ d ∈ devices, d.driver = "local-task" := by
  have hne : ofDriver "local-task" devices ≠ [] := by
    rw [h.hosts]
    split
    · exact List.cons_ne_nil _ _
    · next hprinted => rwa [ne_eq, List.mapIdx_eq_nil_iff]
  obtain ⟨d, hd⟩ := List.exists_mem_of_ne_nil _ hne
  exact ⟨d, (List.mem_filter.mp hd).1, driver_of_mem_ofDriver hd⟩

/-- The dump always has a device, at least the host. -/
theorem discover_ok (dump : String) :
    discover host digests (.ok dump) = sortByPreference (parseDumpDevices host digests dump) := by
  obtain ⟨d, hmem, -⟩ := (@parseDumpDevices_inventory host digests dump).local_mem
  unfold discover
  dsimp only
  rw [if_neg (by simpa using List.ne_nil_of_mem hmem)]

theorem discover_inventory (dump : Except DynInferError String) :
    Inventory host digests (discover host digests dump) (printedBy dump) := by
  cases dump with
  | error e => exact inventory_of_reads (s := {}) ⟨by simp, fun _ _ => rfl, rfl, rfl⟩
  | ok dump =>
    rw [discover_ok]
    exact sortByPreference_inventory (parseDumpDevices_inventory dump)

theorem trimSpace_uri_of_mem_printedFor {driver : String} {dump : Except DynInferError String} {p : PrintedDevice}
    (h : p ∈ printedFor driver (printedBy dump)) : trimSpace p.uri = p.uri := by
  have hmem := (List.mem_filter.mp h).1
  cases dump with
  | error e => cases hmem
  | ok dump => exact trimSpace_uri_of_mem_printed hmem

theorem discover_reported {dump : Except DynInferError String} {d : DiscoveredDevice}
    (h : d ∈ discover host digests dump) : Reported host digests d := by
  have hinventory := @discover_inventory host digests dump
  have hmem := mem_ofDriver_self h
  have hmade {driver : String} (hd : d ∈ (printedFor driver (printedBy dump)).mapIdx (made host digests driver)) :
      Reported host digests d := by
    obtain ⟨i, hi, rfl⟩ := List.mem_mapIdx.mp hd
    exact reported_made i (trimSpace_uri_of_mem_printedFor (List.getElem_mem hi))
  have hknown := hinventory.known d h
  simp only [List.mem_cons, List.not_mem_nil, or_false] at hknown
  rcases hknown with hcuda | hhip | htask
  · rw [hcuda, hinventory.gpus "cuda" (by decide)] at hmem
    exact hmade hmem
  · rw [hhip, hinventory.gpus "hip" (by decide)] at hmem
    exact hmade hmem
  · rw [htask, hinventory.hosts] at hmem
    split at hmem
    · rw [List.mem_singleton.mp hmem]
      exact reported_cpuDevice host digests
    · exact hmade hmem

theorem pairwise_discover (dump : Except DynInferError String) : (discover host digests dump).Pairwise fun a b =>
    driverRank a.driver < driverRank b.driver ∨ driverRank a.driver = driverRank b.driver ∧ a.deviceId ≤ b.deviceId := by
  cases dump with
  | error e => exact List.pairwise_singleton _ _
  | ok dump =>
    rw [discover_ok]
    exact pairwise_sortByPreference _

/-- The GPUs of a driver are those printed for it. -/
theorem ofDriver_discover (dump : String) {driver : String} (hdriver : driver ∈ ["cuda", "hip"]) :
    (ofDriver driver (discover host digests (.ok dump))).map (·.uri) = urisFor driver (printed none (Text.lines dump)) := by
  rw [(@discover_inventory host digests (.ok dump)).gpus driver hdriver]
  exact map_made (fun id _ => made_uri id) _

/-- **The inventory of a machine.** Whatever the tool prints, or where it fails, the host is among the devices; they
stand in the order of preference; the GPUs of a driver are those printed for it, each once, in order and numbered
from zero, and each carries the facts printed between its header and the next, and no others; and a profile has
the facts of its device, so that one without an architecture is not ready. -/
theorem discover_faithful (dump : Except DynInferError String) :
    (∃ d ∈ discover host digests dump, d.driver = "local-task") ∧
      ((discover host digests dump).Pairwise fun a b => driverRank a.driver < driverRank b.driver ∨
        driverRank a.driver = driverRank b.driver ∧ a.deviceId ≤ b.deviceId) ∧
      (∀ driver ∈ ["cuda", "hip"], List.Forall₂ (fun (p, id) d => Carries driver id p d)
        (printedFor driver (printedBy dump)).zipIdx (ofDriver driver (discover host digests dump))) ∧
      (ofDriver "local-task" (discover host digests dump)).map (fun d => (d.uri, d.name)) =
        (if printedFor "local-task" (printedBy dump) = [] then [("local-task://", "host-cpu")]
        else (printedFor "local-task" (printedBy dump)).map fun p => (p.uri, if p.name = "" then "host-cpu" else p.name)) ∧
      ∀ d ∈ discover host digests dump, Faithful host digests d := by
  have hinventory := @discover_inventory host digests dump
  refine ⟨hinventory.local_mem, pairwise_discover dump, fun driver hdriver => ?_, ?_,
    fun d hd => (discover_reported hd).faithful⟩
  · rw [hinventory.gpus driver hdriver, List.mapIdx_eq_zipIdx_map, List.forall₂_map_right_iff]
    exact List.forall₂_same.mpr fun entry hentry =>
      carries_made entry.2 hdriver (trimSpace_uri_of_mem_printedFor (List.fst_mem_of_mem_zipIdx hentry))
  · rw [hinventory.hosts]
    split
    · rfl
    · refine map_made (fun id p => ?_) _
      rw [made_local, localDevice, nonemptyName_name]
      rfl

end inventory

end TargetDiscovery

end Dyninfer
