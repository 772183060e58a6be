/-
What a loader finds in a directory after a write. The writers leave alone
what they do not have, and the loader asks for `decode.vmfb` under the ABI
versions 10 and 11 alone; so a load resolves what was written exactly when a
written decode module comes with such a manifest, and a manifest of such a
version without one meets no decode module of an earlier bundle.

A cache hit writes what a compilation writes, except `checkpoint-schema.json`.
-/
import Dyninfer.Lib.Fallible
import Dyninfer.Runtime.Bundle
import Dyninfer.Cache.EntryFacts

namespace Dyninfer

namespace OutputDir

variable {dir dir' : OutputDir} {path : BundlePath} {bytes : Bytes}

theorem write_ok (h : dir.write path bytes = .ok dir') : dir' = dir.set path (.file bytes) := by
  unfold write at h
  split at h <;> cases h
  rfl

theorem createDirAll_ok (h : dir.createDirAll path = .ok dir') : dir' = dir.set path .directory := by
  unfold createDirAll at h
  split at h <;> cases h
  rfl

theorem set_self (dir : OutputDir) (path : BundlePath) (node : FsNode) : dir.set path node path = some node :=
  Function.update_self ..

theorem set_ne (dir : OutputDir) {path other : BundlePath} (node : FsNode) (h : other ≠ path) :
    dir.set path node other = dir other := Function.update_of_ne h ..

theorem read_eq (h : dir path = some (.file bytes)) : dir.read path = .ok bytes := by
  unfold read; rw [h]

theorem isFile_iff : dir.isFile path = true ↔ ∃ bytes, dir path = some (.file bytes) := by
  unfold isFile
  split
  · next bytes h => exact ⟨fun _ => ⟨bytes, h⟩, fun _ => rfl⟩
  · next h => exact ⟨nofun, fun ⟨bytes, hb⟩ => absurd hb (h bytes)⟩

end OutputDir

/-- The files a write leaves in a directory, over what was there. -/
def OutputDir.withBundle (codec : BundleCodec) (prior : OutputDir) (bundle : BundleArtifacts) : OutputDir :=
  let dir := (prior.set .executables .directory).set .model (.file bundle.vmfb)
  let dir := match bundle.decodeVmfb with
    | some bytes => dir.set .decode (.file bytes)
    | none => dir
  (dir.set .manifest (.file (codec.renderManifest bundle.manifest))).set .bindings (.file (codec.renderPlan bundle.plan))

section writers

variable {codec : BundleCodec} {prior dir : OutputDir}

theorem writeBundle_ok {vmfb : Bytes} {decodeVmfb : Option Bytes} {manifest : ExecutableManifest} {plan : BindingPlan}
    {schema : SchemaFingerprint} (h : writeBundle codec prior vmfb decodeVmfb manifest plan schema = .ok dir) :
    dir = (prior.withBundle codec ⟨vmfb, decodeVmfb, manifest, plan⟩).set .checkpointSchema
      (.file (codec.renderSchema schema)) := by
  obtain ⟨d₁, h₁, h⟩ := Fallible.bind_ok h
  obtain ⟨d₂, h₂, h⟩ := Fallible.bind_ok h
  obtain ⟨d₃, h₃, h⟩ := Fallible.bind_ok h
  obtain ⟨d₄, h₄, h⟩ := Fallible.bind_ok h
  obtain ⟨d₅, h₅, h⟩ := Fallible.bind_ok h
  have hd₂ : d₂ = (prior.set .executables .directory).set .model (.file vmfb) := by
    rw [OutputDir.write_ok h₂, OutputDir.createDirAll_ok h₁]
  rw [OutputDir.write_ok h, OutputDir.write_ok h₅, OutputDir.write_ok h₄]
  cases decodeVmfb with
  | none => cases h₃; rw [hd₂]; rfl
  | some bytes =>
    have hd₃ := OutputDir.write_ok (show d₂.write .decode bytes = .ok d₃ from h₃)
    rw [hd₃, hd₂]; rfl

theorem materializeBundleFromCache_ok {entry : EntryDir} {hasDecode : Bool} {plan : BindingPlan}
    (h : materializeBundleFromCache codec entry hasDecode plan prior = .ok dir) :
    ∃ vmfb manifestBytes manifest, entry .model = some vmfb ∧ entry .manifest = some manifestBytes ∧
      codec.parseManifest manifestBytes = .ok manifest ∧ (hasDecode = true → (entry .decode).isSome) ∧
      dir = prior.withBundle codec ⟨vmfb, if hasDecode then entry .decode else none, manifest, plan⟩ := by
  have read_some : ∀ {file bytes}, entry.read file = .ok bytes → entry file = some bytes := by
    intro file bytes hread
    unfold EntryDir.read at hread
    split at hread <;> cases hread
    assumption
  obtain ⟨manifestBytes, hbytes, h⟩ := Fallible.bind_ok h
  obtain ⟨manifest, hmanifest, h⟩ := Fallible.bind_ok h
  obtain ⟨vmfb, hvmfb, h⟩ := Fallible.bind_ok h
  obtain ⟨d₁, h₁, h⟩ := Fallible.bind_ok h
  obtain ⟨d₂, h₂, h⟩ := Fallible.bind_ok h
  obtain ⟨decodeVmfb, hdecode, h⟩ := Fallible.bind_ok h
  obtain ⟨d₃, h₃, h⟩ := Fallible.bind_ok h
  obtain ⟨d₄, h₄, h⟩ := Fallible.bind_ok h
  have hd₂ : d₂ = (prior.set .executables .directory).set .model (.file vmfb) := by
    rw [OutputDir.write_ok h₂, OutputDir.createDirAll_ok h₁]
  have hparse : codec.parseManifest manifestBytes = .ok manifest := by
    unfold jsonError at hmanifest
    split at hmanifest <;> cases hmanifest
    assumption
  refine ⟨vmfb, manifestBytes, manifest, read_some hvmfb, read_some hbytes, hparse, ?_⟩
  rw [OutputDir.write_ok h, OutputDir.write_ok h₄]
  cases hasDecode with
  | false => cases hdecode; cases h₃; rw [hd₂]; exact ⟨nofun, rfl⟩
  | true =>
    cases hbytes' : entry .decode with
    | none => simp [EntryDir.readIf, EntryDir.read, hbytes', Except.map] at hdecode
    | some bytes =>
      simp only [EntryDir.readIf, EntryDir.read, hbytes', Except.map, if_true, Except.ok.injEq] at hdecode
      subst hdecode
      have hd₃ := OutputDir.write_ok (show d₂.write .decode bytes = .ok d₃ from h₃)
      rw [hd₃, hd₂]
      exact ⟨fun _ => rfl, rfl⟩

/-- A bundle written into a directory by one of the two writers. -/
inductive Writes (codec : BundleCodec) (prior : OutputDir) : BundleArtifacts → OutputDir → Prop where
  | fresh {vmfb decodeVmfb manifest plan schema dir} :
    writeBundle codec prior vmfb decodeVmfb manifest plan schema = .ok dir →
      Writes codec prior ⟨vmfb, decodeVmfb, manifest, plan⟩ dir
  | cached {entry hasDecode plan vmfb manifestBytes manifest dir} :
    materializeBundleFromCache codec entry hasDecode plan prior = .ok dir → entry .model = some vmfb →
      entry .manifest = some manifestBytes → codec.parseManifest manifestBytes = .ok manifest →
      Writes codec prior ⟨vmfb, if hasDecode then entry .decode else none, manifest, plan⟩ dir

/-- The five files of a bundle after a write: the decode module stays where the write has none. -/
structure Holds (codec : BundleCodec) (prior : OutputDir) (bundle : BundleArtifacts) (dir : OutputDir) : Prop where
  model : dir .model = some (.file bundle.vmfb)
  decode : dir .decode = (bundle.decodeVmfb.map FsNode.file).or (prior .decode)
  manifest : dir .manifest = some (.file (codec.renderManifest bundle.manifest))
  bindings : dir .bindings = some (.file (codec.renderPlan bundle.plan))

theorem holds_withBundle (codec : BundleCodec) (prior : OutputDir) (bundle : BundleArtifacts) :
    Holds codec prior bundle (prior.withBundle codec bundle) := by
  obtain ⟨vmfb, decodeVmfb, manifest, plan⟩ := bundle
  cases decodeVmfb <;> constructor <;> simp [OutputDir.withBundle, OutputDir.set]

theorem Writes.holds {bundle : BundleArtifacts} (h : Writes codec prior bundle dir) : Holds codec prior bundle dir := by
  have hbase := holds_withBundle codec prior bundle
  cases h with
  | fresh h =>
    rw [writeBundle_ok h]
    exact ⟨(OutputDir.set_ne _ _ (by decide)).trans hbase.model, (OutputDir.set_ne _ _ (by decide)).trans hbase.decode,
      (OutputDir.set_ne _ _ (by decide)).trans hbase.manifest, (OutputDir.set_ne _ _ (by decide)).trans hbase.bindings⟩
  | cached h hmodel hbytes hparse =>
    obtain ⟨vmfb', bytes', manifest', hmodel', hbytes', hparse', -, rfl⟩ := materializeBundleFromCache_ok h
    rw [hmodel', Option.some_inj] at hmodel
    rw [hbytes', Option.some_inj] at hbytes
    subst hmodel hbytes
    rw [hparse', Except.ok.injEq] at hparse
    subst hparse
    exact hbase

end writers

/-! ## Write, then load -/

/-- The loader's rule for `decode.vmfb` gives what the write had. -/
def BundleArtifacts.DecodeFits (bundle : BundleArtifacts) (prior : OutputDir) : Prop :=
  match bundle.decodeVmfb with
  | some _ => looksForDecode bundle.manifest = true
  | none => looksForDecode bundle.manifest = true → prior.isFile .decode = false

section load

variable {codec : BundleCodec} {admits : BundleArtifacts → Except DynInferError Unit} {path : String}
  {prior dir : OutputDir} {bundle : BundleArtifacts}

/-- The decode module the loader pairs with a bundle. -/
def loadedDecode (bundle : BundleArtifacts) (dir : OutputDir) : Option Bytes :=
  if looksForDecode bundle.manifest then
    match dir .decode with
    | some (.file bytes) => some bytes
    | _ => none
  else none

theorem readIf_decode (dir : OutputDir) (bundle : BundleArtifacts) :
    dir.readIf .decode (looksForDecode bundle.manifest) = .ok (loadedDecode bundle dir) := by
  unfold OutputDir.readIf loadedDecode
  cases looksForDecode bundle.manifest with
  | false => rfl
  | true =>
    cases hnode : dir .decode with
    | none => simp [OutputDir.isFile, hnode]
    | some node => cases node <;> simp [OutputDir.isFile, OutputDir.read, hnode, Except.map]

/-- A load of a directory that holds a bundle checks that bundle, with the decode module found there. -/
theorem loadBundle_eq (h : Holds codec prior bundle dir)
    (hmanifest : codec.parseManifest (codec.renderManifest bundle.manifest) = .ok bundle.manifest)
    (hplan : codec.parsePlan (codec.renderPlan bundle.plan) = .ok bundle.plan) :
    loadBundle codec admits path dir = do
      validateExecutableAbi bundle.manifest path
      admits { bundle with decodeVmfb := loadedDecode bundle dir }
      return { bundle with decodeVmfb := loadedDecode bundle dir } := by
  simp only [loadBundle, OutputDir.read_eq h.manifest, OutputDir.read_eq h.bindings, OutputDir.read_eq h.model,
    hmanifest, hplan, jsonError, readIf_decode, bind, Except.bind]

theorem loadedDecode_eq_iff (h : Holds codec prior bundle dir) :
    loadedDecode bundle dir = bundle.decodeVmfb ↔ bundle.DecodeFits prior := by
  unfold loadedDecode BundleArtifacts.DecodeFits
  rw [h.decode]
  cases bundle.decodeVmfb with
  | some bytes => cases looksForDecode bundle.manifest <;> simp
  | none =>
    cases looksForDecode bundle.manifest with
    | false => simp
    | true =>
      simp only [if_true, Option.map_none, Option.none_or, forall_const]
      rw [← Bool.not_eq_true, OutputDir.isFile_iff]
      split
      · next bytes hnode => exact ⟨nofun, fun hno => absurd ⟨bytes, hnode⟩ hno⟩
      · next hnode => exact ⟨fun _ ⟨bytes, hb⟩ => hnode bytes hb, fun _ => rfl⟩

/-- **When a load resolves the bundle just written.** Over any prior contents and for either writer, the
load is decided by the written bundle alone if the decode module fits; and what a load resolves is the
written bundle exactly then. -/
theorem load_written_iff (hwrite : Writes codec prior bundle dir)
    (hmanifest : codec.parseManifest (codec.renderManifest bundle.manifest) = .ok bundle.manifest)
    (hplan : codec.parsePlan (codec.renderPlan bundle.plan) = .ok bundle.plan) :
    (bundle.DecodeFits prior → loadBundle codec admits path dir =
        do validateExecutableAbi bundle.manifest path; admits bundle; return bundle) ∧
      ∀ loaded, loadBundle codec admits path dir = .ok loaded → (loaded = bundle ↔ bundle.DecodeFits prior) := by
  have hholds := hwrite.holds
  have hload : loadBundle codec admits path dir = _ := loadBundle_eq hholds hmanifest hplan
  constructor
  · intro hfits
    rw [hload, (loadedDecode_eq_iff hholds).mpr hfits]
  · intro loaded hloaded
    rw [hload] at hloaded
    obtain ⟨_, _, hloaded⟩ := Fallible.bind_ok hloaded
    obtain ⟨_, _, hloaded⟩ := Fallible.bind_ok hloaded
    cases hloaded
    rw [← loadedDecode_eq_iff hholds]
    exact ⟨fun h => congrArg BundleArtifacts.decodeVmfb h, fun h => by rw [h]⟩

end load

/-- A manifest of an ABI version. -/
def sampleManifest (version : Nat) : ExecutableManifest where
  format := "dyninfer.bundle"
  version
  architectureId := "lfm2.hybrid"
  architectureRevision := "0.1.0"
  checkpointSchema := ⟨"schema", 1, 4⟩
  target := { driver := "local-task" }
  precisionPolicy := {}
  selectedKernels := []
  shapeProfile := ⟨[1], [512], 2048⟩
  entrypoints := ["prefill_chunk", "decode_chunk", "add"]
  kvCache := ⟨1, 1, 2048, 2, 64, .f16, .paged 256 512⟩
  parameterScope := "weights"
  parameterComponents := []
  derivedParametersRequired := false
  vmfbPath := "executables/model.vmfb"
  prefillWindow := 512
  diagnostics := []

/-- Rendering and parsing of one manifest and one plan. -/
def sampleCodec (version : Nat) : BundleCodec where
  renderManifest _ := [123]
  parseManifest _ := .ok (sampleManifest version)
  renderPlan _ := [91]
  parsePlan _ := .ok ⟨"lfm2.hybrid", ⟨"schema", 1, 4⟩, [], []⟩
  renderSchema _ := [34]

/-- A bundle of one combined module. -/
def combinedBundle : BundleArtifacts :=
  ⟨[7], none, sampleManifest 11, ⟨"lfm2.hybrid", ⟨"schema", 1, 4⟩, [], []⟩⟩

theorem load_written_iff_empty :
    ∃ dir, Writes (sampleCodec 11) .empty combinedBundle dir ∧
      loadBundle (sampleCodec 11) (fun _ => .ok ()) "bundle" dir = .ok combinedBundle := by
  obtain ⟨dir, hwrite, _⟩ := Fallible.exists_ok
    (x := writeBundle (sampleCodec 11) .empty [7] none (sampleManifest 11) combinedBundle.plan ⟨"schema", 1, 4⟩)
    (p := fun _ => true) (by decide)
  refine ⟨dir, .fresh hwrite, ?_⟩
  rw [(load_written_iff (Writes.fresh hwrite) rfl rfl).1 (fun _ => rfl)]
  rfl

/-- A combined bundle over the remains of one with a decode module: the two are paired. -/
theorem stale_decode_paired :
    ¬ ∀ (codec : BundleCodec) (admits : BundleArtifacts → Except DynInferError Unit) (path : String)
      (prior dir : OutputDir) (bundle loaded : BundleArtifacts), Writes codec prior bundle dir →
      codec.parseManifest (codec.renderManifest bundle.manifest) = .ok bundle.manifest →
      codec.parsePlan (codec.renderPlan bundle.plan) = .ok bundle.plan →
      loadBundle codec admits path dir = .ok loaded → loaded = bundle := by
  intro hall
  obtain ⟨dir, hwrite, hload⟩ := Fallible.exists_ok
    (x := writeBundle (sampleCodec 11) (OutputDir.empty.set .decode (.file [9])) [7] none (sampleManifest 11)
      combinedBundle.plan ⟨"schema", 1, 4⟩)
    (p := fun dir => (loadBundle (sampleCodec 11) (fun _ => .ok ()) "bundle" dir).toOption.any
      (·.decodeVmfb == some [9])) (by decide)
  obtain ⟨loaded, hloaded, hdecode⟩ := Fallible.exists_ok hload
  have heq := hall _ _ _ _ dir combinedBundle loaded (.fresh hwrite) rfl rfl hloaded
  rw [heq] at hdecode
  exact absurd hdecode (by decide)

/-! ## Cache hits -/

/-- What a compilation gives. -/
structure CompileOutput where
  executable : Bytes
  decodeExecutable : Option Bytes
  manifest : ExecutableManifest

/-- What `publish` writes of it. -/
def CompileOutput.publication (output : CompileOutput) (codec : BundleCodec) (key : Bytes) : Publication :=
  ⟨output.executable, output.decodeExecutable, codec.renderManifest output.manifest, key⟩

/-- The bundle of a cache miss. -/
def missBundle (codec : BundleCodec) (output : CompileOutput) (plan : BindingPlan) (schema : SchemaFingerprint) :
    Except DynInferError OutputDir :=
  writeBundle codec .empty output.executable output.decodeExecutable output.manifest plan schema

/-- The bundle of a hit on the entry that the miss published. -/
def hitBundle (codec : BundleCodec) (output : CompileOutput) (key : Bytes) (plan : BindingPlan) :
    Except DynInferError OutputDir :=
  let entry := (output.publication codec key).dir
  materializeBundleFromCache codec entry (entry .decode).isSome plan .empty

/-- The two bundles differ in `checkpoint-schema.json` alone. -/
theorem hitBundle_eq {codec : BundleCodec} {output : CompileOutput} {key : Bytes} {plan : BindingPlan}
    {schema : SchemaFingerprint} {miss hit : OutputDir} (hmiss : missBundle codec output plan schema = .ok miss)
    (hhit : hitBundle codec output key plan = .ok hit)
    (hmanifest : codec.parseManifest (codec.renderManifest output.manifest) = .ok output.manifest) :
    ∀ path, path ≠ .checkpointSchema → hit path = miss path := by
  intro path hpath
  obtain ⟨vmfb, manifestBytes, manifest, hmodel, hbytes, hparse, -, rfl⟩ := materializeBundleFromCache_ok hhit
  rw [Publication.dir_model, Option.some_inj] at hmodel
  rw [Publication.dir_manifest, Option.some_inj] at hbytes
  subst hmodel hbytes
  rw [show codec.parseManifest (output.publication codec key).manifest = _ from hmanifest, Except.ok.injEq] at hparse
  subst hparse
  rw [writeBundle_ok hmiss, OutputDir.set_ne _ _ hpath, Publication.dir_decode]
  cases hdecode : (output.publication codec key).decodeVmfb <;>
    rw [show output.decodeExecutable = _ from hdecode] <;> rfl

/-- **A cache hit never gives the bundle a compilation gives.** No compilation's miss and hit write the
same files. -/
theorem hit_bundle_differs (codec : BundleCodec) (output : CompileOutput) (key : Bytes) (plan : BindingPlan)
    (schema : SchemaFingerprint) :
    ¬ ∃ files, missBundle codec output plan schema = .ok files ∧ hitBundle codec output key plan = .ok files := by
  rintro ⟨files, hmiss, hhit⟩
  obtain ⟨_, _, _, -, -, -, -, hfiles⟩ := materializeBundleFromCache_ok hhit
  have hschema : files .checkpointSchema = some (.file (codec.renderSchema schema)) := by
    rw [writeBundle_ok hmiss, OutputDir.set_self]
  rw [hfiles] at hschema
  unfold OutputDir.withBundle at hschema
  simp only at hschema
  split at hschema <;> simp [OutputDir.set, OutputDir.empty] at hschema

theorem hit_bundle_without_schema :
    ¬ ∀ (codec : BundleCodec) (output : CompileOutput) (key : Bytes) (plan : BindingPlan) (schema : SchemaFingerprint),
      ∃ files, missBundle codec output plan schema = .ok files ∧ hitBundle codec output key plan = .ok files := by
  intro hall
  obtain ⟨files, hmiss, hhit⟩ := hall (sampleCodec 11) ⟨[7], none, sampleManifest 11⟩ [5] combinedBundle.plan
    ⟨"schema", 1, 4⟩
  obtain ⟨miss, hmiss', hwith⟩ := Fallible.exists_ok
    (x := missBundle (sampleCodec 11) ⟨[7], none, sampleManifest 11⟩ combinedBundle.plan ⟨"schema", 1, 4⟩)
    (p := fun dir => (dir .checkpointSchema).isSome) (by decide)
  obtain ⟨hit, hhit', hwithout⟩ := Fallible.exists_ok
    (x := hitBundle (sampleCodec 11) ⟨[7], none, sampleManifest 11⟩ [5] combinedBundle.plan)
    (p := fun dir => (dir .checkpointSchema).isNone) (by decide)
  rw [hmiss, Except.ok.injEq] at hmiss'
  rw [hhit, Except.ok.injEq] at hhit'
  subst hmiss' hhit'
  rw [Option.isNone_iff_eq_none.mp hwithout] at hwith
  cases hwith

end Dyninfer
