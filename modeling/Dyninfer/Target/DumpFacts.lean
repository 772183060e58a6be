/-
What a dump prints of each device: its header, and the facts on the lines from
there to the next header. The reader goes through the dump once and keeps one
pending device; `foldl_readLine_reads` says that it makes the devices of what
was printed, driver by driver, and no others.
-/
import Dyninfer.Target.Discovery

namespace Dyninfer

@[simp] theorem trimSpace_trimSpace (s : String) : trimSpace (trimSpace s) = trimSpace s := Text.trim_trim _ s

/-- What is read of a device is trimmed. -/
structure PendingDevice.Trimmed (p : PendingDevice) : Prop where
  uri : trimSpace p.uri = p.uri
  arch : ∀ arch ∈ p.arch, trimSpace arch = arch

/-- The devices of a driver. -/
def ofDriver (driver : String) (devices : List DiscoveredDevice) : List DiscoveredDevice :=
  devices.filter (·.driver == driver)

theorem ofDriver_append (driver : String) (devices : List DiscoveredDevice) (d : DiscoveredDevice) :
    ofDriver driver (devices ++ [d]) = ofDriver driver devices ++ if d.driver = driver then [d] else [] := by
  unfold ofDriver
  rw [List.filter_append, List.filter_singleton]
  by_cases h : d.driver = driver
  · simp [h]
  · simp [beq_false_of_ne h, h]

theorem driver_of_mem_ofDriver {driver : String} {devices : List DiscoveredDevice} {d : DiscoveredDevice}
    (h : d ∈ ofDriver driver devices) : d.driver = driver := eq_of_beq (List.mem_filter.mp h).2

theorem mem_ofDriver_self {devices : List DiscoveredDevice} {d : DiscoveredDevice} (h : d ∈ devices) :
    d ∈ ofDriver d.driver devices := List.mem_filter.mpr ⟨h, beq_self_eq_true _⟩

namespace TargetDiscovery

/-! ## Headers -/

/-- The driver whose section a line begins. -/
def sectionOf (line : String) : Option String :=
  (Text.strip (trimSpace line) "# Enumerated devices for driver '").bind (Text.stripEnd · "'")

/-- The URI of a device that a line begins. -/
def deviceOf (line : String) : Option String := (Text.strip (trimSpace line) "# --device=").map trimSpace

/-- A line that begins a section or a device. -/
def isHeader (line : String) : Bool := (sectionOf line).isSome || (deviceOf line).isSome

section line

variable (host : HostFacts) (digests : ContentDigests) {line : String} (s : DumpState)

theorem readLine_section {driver : String} (h : sectionOf line = some driver) :
    readLine host digests s line = { flush host digests s with currentDriver := some driver } := by
  unfold sectionOf at h
  simp only [readLine, h]

theorem readLine_device {uri : String} (h : sectionOf line = none) (hdevice : deviceOf line = some uri) :
    readLine host digests s line =
      { flush host digests s with pending := some { driver := s.currentDriver.getD (uriScheme uri), uri } } := by
  unfold sectionOf at h
  obtain ⟨rest, hrest, rfl⟩ := Option.map_eq_some_iff.mp hdevice
  simp only [readLine, h, hrest]

theorem readLine_fact (h : sectionOf line = none) (hdevice : deviceOf line = none) :
    readLine host digests s line = { s with pending := s.pending.map (readFact · (trimSpace line)) } := by
  unfold sectionOf at h
  simp only [readLine, h, Option.map_eq_none_iff.mp hdevice]

end line

/-! ## What is printed of a device -/

/-- A device as it is printed: the driver of its section, and before the first one the scheme of the URI, with
the lines from its header to the next. -/
structure PrintedDevice where
  driver : String
  uri : String
  lines : List String
  deriving DecidableEq

namespace PrintedDevice

variable (p : PrintedDevice)

/-- What follows a label, on the lines that begin with it. -/
def values (label : String) : List String :=
  p.lines.filterMap fun line => (Text.strip (trimSpace line) label).map trimSpace

/-- The texts of the comment under the header. -/
def comments : List String :=
  (p.lines.map trimSpace).filterMap fun line =>
    if Text.startsWith line "#   " then some (trimSpace (dropHashes line)) else none

/-- The name is the first text of the comment. -/
def name : String := (p.comments.find? (!·.isEmpty)).getD ""

/-- The architecture is the last one printed, if that is not empty. -/
def arch : Option String := (p.values "- gpu-arch-name:").getLast?.filter (!·.isEmpty)

/-- Every compute capability is a feature. -/
def features : List String := (p.values "- gpu-compute-capability:").map ("compute_capability=" ++ ·)

/-- A number of 32 bits printed after a label; the last one counts. -/
def limit (label : String) : Option Nat := (p.values label).getLast?.bind (Text.parseUnsigned (2 ^ 32))

def subgroupSize : Option Nat := p.limit "- gpu-subgroup-size:"

def maxWorkgroupInvocations : Option Nat := p.limit "- gpu-max-workgroup-invocations:"

/-- What the reader keeps of the device. -/
def pending : PendingDevice where
  driver := p.driver
  uri := p.uri
  name := p.name
  arch := (p.values "- gpu-arch-name:").getLast?
  features := p.features
  subgroupSize := p.subgroupSize
  maxWorkgroupInvocations := p.maxWorkgroupInvocations

/-- The device with more lines. -/
def extend (lines : List String) : PrintedDevice := { p with lines := p.lines ++ lines }

@[simp] theorem extend_nil : p.extend [] = p := by simp [extend]

end PrintedDevice

/-- The devices of a dump. -/
def printed : Option String → List String → List PrintedDevice
  | _, [] => []
  | current, line :: lines =>
    match sectionOf line with
    | some driver => printed (some driver) lines
    | none => match deviceOf line with
    | some uri => ⟨current.getD (uriScheme uri), uri, lines.takeWhile (!isHeader ·)⟩ :: printed current lines
    | none => printed current lines

/-- The devices printed for a driver, by either of its names. -/
def printedFor (driver : String) (devices : List PrintedDevice) : List PrintedDevice :=
  devices.filter (canonicalDriver ·.driver == driver)

/-- The URIs printed for a driver. -/
def urisFor (driver : String) (devices : List PrintedDevice) : List String := (printedFor driver devices).map (·.uri)

theorem printedFor_append (driver : String) (devices : List PrintedDevice) (p : PrintedDevice) :
    printedFor driver (devices ++ [p]) =
      printedFor driver devices ++ if canonicalDriver p.driver = driver then [p] else [] := by
  unfold printedFor
  rw [List.filter_append, List.filter_singleton]
  by_cases h : canonicalDriver p.driver = driver
  · simp [h]
  · simp [beq_false_of_ne h, h]

theorem trimSpace_uri_of_mem_printed {p : PrintedDevice} {lines : List String} :
    ∀ {current : Option String}, p ∈ printed current lines → trimSpace p.uri = p.uri := by
  induction lines with
  | nil => intro current h; cases h
  | cons line lines ih =>
    intro current h
    unfold printed at h
    split at h
    · exact ih h
    · split at h
      · next uri huri =>
        rcases List.mem_cons.mp h with rfl | h
        · obtain ⟨rest, -, rfl⟩ := Option.map_eq_some_iff.mp huri
          exact trimSpace_trimSpace rest
        · exact ih h
      · exact ih h

/-! ## One line more -/

namespace PrintedDevice

section push

variable (p : PrintedDevice) {line : String}

theorem values_extend (label : String) (line : String) :
    (p.extend [line]).values label = p.values label ++ ((Text.strip (trimSpace line) label).map trimSpace).toList := by
  simp only [values, extend, List.filterMap_append, List.filterMap_cons, List.filterMap_nil]
  cases (Text.strip (trimSpace line) label).map trimSpace <;> rfl

theorem values_extend_of_some {label rest : String} (h : Text.strip (trimSpace line) label = some rest) :
    (p.extend [line]).values label = p.values label ++ [trimSpace rest] := by
  rw [values_extend, h]
  rfl

theorem values_extend_of_none {label : String} (h : Text.strip (trimSpace line) label = none) :
    (p.extend [line]).values label = p.values label := by
  rw [values_extend, h]
  exact List.append_nil _

theorem name_extend_of_comment (h : Text.startsWith (trimSpace line) "#   " = true) :
    (p.extend [line]).name = if p.name.isEmpty then trimSpace (dropHashes (trimSpace line)) else p.name := by
  have hcomments : (p.extend [line]).comments = p.comments ++ [trimSpace (dropHashes (trimSpace line))] := by
    simp [comments, extend, h]
  rw [name, hcomments, List.find?_append]
  unfold name
  cases hfind : p.comments.find? (!·.isEmpty) with
  | some name =>
    have hname := List.find?_some hfind
    simp only [Bool.not_eq_true'] at hname
    simp [hname]
  | none =>
    -- An empty text is no name, and the name is empty without one.
    by_cases hempty : trimSpace (dropHashes (trimSpace line)) = ""
    · simp [hempty]
    · simp [hempty]

theorem name_extend_of_not_comment (h : Text.startsWith (trimSpace line) "#   " = false) :
    (p.extend [line]).name = p.name := by
  simp [name, comments, extend, h]

end push

/-- What is kept once a line more is read, from its name and the values of the labels. -/
theorem pending_extend {p : PrintedDevice} {line name : String} {archs capabilities sizes invocations : List String}
    (hname : (p.extend [line]).name = name) (harchs : (p.extend [line]).values "- gpu-arch-name:" = archs)
    (hcapabilities : (p.extend [line]).values "- gpu-compute-capability:" = capabilities)
    (hsizes : (p.extend [line]).values "- gpu-subgroup-size:" = sizes)
    (hinvocations : (p.extend [line]).values "- gpu-max-workgroup-invocations:" = invocations) :
    (p.extend [line]).pending =
      { driver := p.driver, uri := p.uri, name, arch := archs.getLast?
        features := capabilities.map ("compute_capability=" ++ ·)
        subgroupSize := sizes.getLast?.bind (Text.parseUnsigned (2 ^ 32))
        maxWorkgroupInvocations := invocations.getLast?.bind (Text.parseUnsigned (2 ^ 32)) } := by
  subst hname harchs hcapabilities hsizes hinvocations
  rfl

/-- One line of a description, which begins with one label at most, and with none if it is a comment. -/
theorem readFact_pending (p : PrintedDevice) (line : String) :
    readFact p.pending (trimSpace line) = (p.extend [line]).pending := by
  have hother {start label : String} (h : Text.startsWith (trimSpace line) start = true)
      (hne : Text.startsWith start label = false) (hne' : Text.startsWith label start = false) :
      (p.extend [line]).values label = p.values label :=
    p.values_extend_of_none (Text.strip_eq_none_of_startsWith h hne hne')
  unfold readFact
  split
  · next hcomment =>
    obtain ⟨hstarts, hempty⟩ := Bool.and_eq_true_iff.mp hcomment
    have hname : (p.extend [line]).name = trimSpace (dropHashes (trimSpace line)) := by
      rw [p.name_extend_of_comment hstarts]
      exact if_pos hempty
    rw [pending_extend hname (hother hstarts rfl rfl) (hother hstarts rfl rfl) (hother hstarts rfl rfl)
      (hother hstarts rfl rfl)]
    rfl
  · next hcomment =>
    have hname : (p.extend [line]).name = p.name := by
      cases hstarts : Text.startsWith (trimSpace line) "#   " with
      | false => exact p.name_extend_of_not_comment hstarts
      | true =>
        rw [p.name_extend_of_comment hstarts]
        exact if_neg fun hempty => hcomment (Bool.and_eq_true_iff.mpr ⟨hstarts, hempty⟩)
    split
    · next arch harch =>
      have hstarts := Text.startsWith_of_strip harch
      rw [pending_extend hname (p.values_extend_of_some harch) (hother hstarts rfl rfl) (hother hstarts rfl rfl)
        (hother hstarts rfl rfl), List.getLast?_concat]
      rfl
    · next harch =>
      have harchs := p.values_extend_of_none harch
      split
      · next capability hcapability =>
        have hstarts := Text.startsWith_of_strip hcapability
        rw [pending_extend hname harchs (p.values_extend_of_some hcapability) (hother hstarts rfl rfl)
          (hother hstarts rfl rfl), List.map_append]
        rfl
      · next hcapability =>
        have hcapabilities := p.values_extend_of_none hcapability
        split
        · next size hsize =>
          have hstarts := Text.startsWith_of_strip hsize
          rw [pending_extend hname harchs hcapabilities (p.values_extend_of_some hsize) (hother hstarts rfl rfl),
            List.getLast?_concat, Option.bind_some]
          rfl
        · next hsize =>
          have hsizes := p.values_extend_of_none hsize
          split
          · next invocations hinvocations =>
            rw [pending_extend hname harchs hcapabilities hsizes (p.values_extend_of_some hinvocations),
              List.getLast?_concat, Option.bind_some]
            rfl
          · next hinvocations =>
            rw [pending_extend hname harchs hcapabilities hsizes (p.values_extend_of_none hinvocations)]
            rfl

theorem trimSpace_name (p : PrintedDevice) : trimSpace p.name = p.name := by
  unfold name
  cases hfind : p.comments.find? (!·.isEmpty) with
  | none => decide
  | some name =>
    obtain ⟨line, -, hline⟩ := List.mem_filterMap.mp (List.mem_of_find?_eq_some hfind)
    split at hline
    · rw [← Option.some.inj hline]
      exact trimSpace_trimSpace _
    · cases hline

theorem pending_trimmed {p : PrintedDevice} (huri : trimSpace p.uri = p.uri) : p.pending.Trimmed := by
  refine ⟨huri, fun arch harch => ?_⟩
  obtain ⟨line, -, hline⟩ := List.mem_filterMap.mp (List.mem_of_getLast? harch)
  obtain ⟨rest, -, rfl⟩ := Option.map_eq_some_iff.mp hline
  exact trimSpace_trimSpace rest

end PrintedDevice

/-! ## The reader -/

section reads

variable (host : HostFacts) (digests : ContentDigests)

@[simp] theorem cudaDevice_driver (id : Nat) (p : PendingDevice) : (cudaDevice digests id p).driver = "cuda" := rfl

@[simp] theorem hipDevice_driver (id : Nat) (p : PendingDevice) : (hipDevice digests id p).driver = "hip" := rfl

@[simp] theorem localDevice_driver (p : PendingDevice) : (localDevice host digests p).driver = "local-task" := rfl

@[simp] theorem cpuDevice_driver : (cpuDevice host digests).driver = "local-task" := rfl

/-- The device that is made of a printed one of a driver. -/
def made (driver : String) (id : Nat) (p : PrintedDevice) : DiscoveredDevice :=
  if driver = "cuda" then cudaDevice digests id p.pending
  else if driver = "hip" then hipDevice digests id p.pending
  else localDevice host digests p.pending

theorem made_cuda (id : Nat) (p : PrintedDevice) : made host digests "cuda" id p = cudaDevice digests id p.pending :=
  if_pos rfl

theorem made_hip (id : Nat) (p : PrintedDevice) : made host digests "hip" id p = hipDevice digests id p.pending :=
  (if_neg (by decide)).trans (if_pos rfl)

theorem made_local (id : Nat) (p : PrintedDevice) :
    made host digests "local-task" id p = localDevice host digests p.pending :=
  (if_neg (by decide)).trans (if_neg (by decide))

/-- The reader, once the devices made are those of what was printed. -/
structure DumpState.Reads (s : DumpState) (devices : List PrintedDevice) : Prop where
  known : ∀ d ∈ s.devices, d.driver ∈ ["cuda", "hip", "local-task"]
  made : ∀ driver ∈ ["cuda", "hip", "local-task"],
    ofDriver driver s.devices = (printedFor driver devices).mapIdx (made host digests driver)
  cuda : s.cudaIndex = (printedFor "cuda" devices).length
  hip : s.hipIndex = (printedFor "hip" devices).length

variable {host} {digests}

/-- A device more, of a driver that is known. -/
theorem DumpState.Reads.push {s s' : DumpState} {devices : List PrintedDevice} (h : s.Reads host digests devices)
    {p : PrintedDevice} {driver : String} {d : DiscoveredDevice} (hdriver : driver ∈ ["cuda", "hip", "local-task"])
    (hp : canonicalDriver p.driver = driver) (hd : d.driver = driver)
    (hmade : d = TargetDiscovery.made host digests driver (printedFor driver devices).length p)
    (hdevices : s'.devices = s.devices ++ [d]) (hcuda : s'.cudaIndex = s.cudaIndex + if driver = "cuda" then 1 else 0)
    (hhip : s'.hipIndex = s.hipIndex + if driver = "hip" then 1 else 0) : s'.Reads host digests (devices ++ [p]) := by
  have hlength (driver' : String) : (printedFor driver' (devices ++ [p])).length =
      (printedFor driver' devices).length + if driver = driver' then 1 else 0 := by
    rw [printedFor_append, List.length_append, hp]
    split <;> rfl
  refine ⟨fun d' hd' => ?_, fun driver' hdriver' => ?_, ?_, ?_⟩
  · rw [hdevices] at hd'
    rcases List.mem_append.mp hd' with hold | hnew
    · exact h.known d' hold
    · rwa [List.mem_singleton.mp hnew, hd]
  · rw [hdevices, ofDriver_append, printedFor_append, h.made driver' hdriver', hd, hp]
    by_cases heq : driver = driver'
    · subst heq
      rw [if_pos rfl, if_pos rfl, List.mapIdx_concat, hmade]
    · rw [if_neg heq, if_neg heq, List.append_nil, List.append_nil]
  · rw [hcuda, h.cuda, hlength]
  · rw [hhip, h.hip, hlength]

theorem flush_reads_some {s : DumpState} {devices : List PrintedDevice} (h : s.Reads host digests devices)
    {p : PrintedDevice} (hp : s.pending = some p.pending) : (flush host digests s).Reads host digests (devices ++ [p]) := by
  have hdriver : p.pending.driver = p.driver := rfl
  unfold flush
  rw [hp]
  dsimp only
  rw [hdriver]
  split
  · next hcuda =>
    refine h.push (by decide) (by rw [hcuda]; decide) (cudaDevice_driver ..) ?_ rfl rfl rfl
    rw [made_cuda, h.cuda]
  · next hcuda =>
    split
    · next hhip =>
      refine h.push (by decide) (by rcases hhip with h | h <;> rw [h] <;> decide) (hipDevice_driver ..) ?_ rfl rfl rfl
      rw [made_hip, h.hip]
    · next hhip =>
      split
      · next hlocal =>
        exact h.push (by decide) (by rw [hlocal]; decide) (localDevice_driver ..) (made_local ..).symm rfl rfl rfl
      · next hlocal =>
        -- A device of another driver is dropped, and is none of those printed for the drivers that are known.
        have hnone : ∀ driver ∈ ["cuda", "hip", "local-task"], printedFor driver (devices ++ [p]) = printedFor driver devices := by
          intro driver hmem
          have hcanonical : canonicalDriver p.driver = p.driver := if_neg fun hrocm => hhip (.inr hrocm)
          rw [printedFor_append, if_neg, List.append_nil]
          rintro rfl
          rw [hcanonical] at hmem
          simp only [List.mem_cons, List.not_mem_nil, or_false] at hmem
          rcases hmem with h | h | h
          · exact hcuda h
          · exact hhip (.inl h)
          · exact hlocal h
        refine ⟨h.known, fun driver hmem => ?_, ?_, ?_⟩
        · rw [hnone driver hmem]
          exact h.made driver hmem
        · rw [hnone "cuda" (by decide)]
          exact h.cuda
        · rw [hnone "hip" (by decide)]
          exact h.hip

theorem flush_reads {s : DumpState} {devices : List PrintedDevice} (h : s.Reads host digests devices)
    {current : Option PrintedDevice} (hpending : s.pending = current.map (·.pending)) :
    (flush host digests s).Reads host digests (devices ++ current.toList) := by
  cases current with
  | none =>
    have hflush : flush host digests s = s := by rw [flush, hpending]; rfl
    rw [hflush, Option.toList_none, List.append_nil]
    exact h
  | some p => exact flush_reads_some h hpending

theorem flush_pending (s : DumpState) : (flush host digests s).pending = none := by
  unfold flush
  split
  · next h => exact h
  · split
    · rfl
    · split
      · rfl
      · split <;> rfl

theorem flush_currentDriver (s : DumpState) : (flush host digests s).currentDriver = s.currentDriver := by
  unfold flush
  split
  · rfl
  · split
    · rfl
    · split
      · rfl
      · split <;> rfl

/-- **Reading a dump.** The device that is pending takes the lines up to the next header, and the devices made are
those of what is printed. -/
theorem foldl_readLine_reads (lines : List String) : ∀ {s : DumpState} {devices : List PrintedDevice}
    {current : Option PrintedDevice}, s.Reads host digests devices → s.pending = current.map (·.pending) →
    (flush host digests (lines.foldl (readLine host digests) s)).Reads host digests
      (devices ++ (current.toList.map (·.extend (lines.takeWhile (!isHeader ·))) ++ printed s.currentDriver lines)) := by
  induction lines with
  | nil =>
    intro s devices current h hpending
    simpa [printed] using flush_reads h hpending
  | cons line lines ih =>
    intro s devices current h hpending
    have hflush := flush_reads h hpending
    rw [List.foldl_cons]
    cases hsection : sectionOf line with
    | some driver =>
      have hheader : isHeader line = true := by simp [isHeader, hsection]
      have hread := @ih { flush host digests s with currentDriver := some driver } _ none
        ⟨hflush.known, hflush.made, hflush.cuda, hflush.hip⟩ (flush_pending s)
      rw [readLine_section host digests s hsection]
      simpa [printed, hsection, hheader] using hread
    | none =>
      cases hdevice : deviceOf line with
      | some uri =>
        have hheader : isHeader line = true := by simp [isHeader, hdevice]
        have hread := @ih { flush host digests s with
            pending := some { driver := s.currentDriver.getD (uriScheme uri), uri } } _
          (some ⟨s.currentDriver.getD (uriScheme uri), uri, []⟩)
          ⟨hflush.known, hflush.made, hflush.cuda, hflush.hip⟩ rfl
        rw [readLine_device host digests s hsection hdevice]
        simpa [printed, hsection, hdevice, hheader, PrintedDevice.extend, flush_currentDriver] using hread
      | none =>
        have hheader : isHeader line = false := by simp [isHeader, hsection, hdevice]
        have hread := @ih { s with pending := s.pending.map (readFact · (trimSpace line)) } _
          (current.map (·.extend [line])) ⟨h.known, h.made, h.cuda, h.hip⟩ (by
            simp only [hpending, Option.map_map, Function.comp_def, PrintedDevice.readFact_pending])
        rw [readLine_fact host digests s hsection hdevice]
        have hlines : current.toList.map (·.extend ((line :: lines).takeWhile (!isHeader ·))) =
            (current.map (·.extend [line])).toList.map (·.extend (lines.takeWhile (!isHeader ·))) := by
          cases current with
          | none => simp
          | some p => simp [PrintedDevice.extend, hheader]
        rw [hlines, printed]
        simpa [hsection, hdevice] using hread

end reads

end TargetDiscovery

end Dyninfer
