/-
What a compilation reads of its process and host. The environment decides the
flash attention of paged HIP programs with wide heads; the host adds one flag,
on ROCm the device libraries and on a local target without a linker of its own
the linker.
-/
import Dyninfer.Compiler.Compile
import Dyninfer.Lib.Fallible

namespace Dyninfer

/-! ## Lowering -/

section lowering

variable {emitter : Emitter} {portableAttn portableAttn' : Bool} {bound : BoundModel} {lowering : LoweringOutput}

/-- The output of a lowering, but for its text. -/
def DenseDecoderConfig.output (c : DenseDecoderConfig) (modules : String × Option String) : LoweringOutput where
  mlirText := modules.1
  decodeMlirText := modules.2
  prefillWindow := c.seq
  maxKv := c.maxKv
  pageSize := c.pageSize
  pagedKv := c.pagedKv
  numLayers := c.numLayers
  kvElementType := c.pagedKvElementType

theorem lowerBoundModel_ok_iff : lowerBoundModel emitter portableAttn bound = .ok lowering ↔
    validateBoundModelLowerings bound = .ok () ∧
      (∀ b ∈ bound.binding.bindings,
        ((DenseDecoderConfig.fromBoundModel portableAttn bound).paramComputeDtypes.get b.canonicalName).isSome) ∧
      (DenseDecoderConfig.fromBoundModel portableAttn bound).supportsDenseEmit = true ∧
      ∃ modules, emitModules emitter (DenseDecoderConfig.fromBoundModel portableAttn bound) = .ok modules ∧
        lowering = (DenseDecoderConfig.fromBoundModel portableAttn bound).output modules := by
  unfold lowerBoundModel
  rw [Fallible.bind_ok_iff]
  cases hfind : bound.binding.bindings.find? fun b =>
      ((DenseDecoderConfig.fromBoundModel portableAttn bound).paramComputeDtypes.get b.canonicalName).isNone with
  | some b =>
    have hb := List.find?_some hfind
    constructor
    · rintro ⟨_, -, h⟩
      simp only [hfind] at h
      cases h
    · rintro ⟨-, hall, -⟩
      have hsome := hall b (List.mem_of_find?_eq_some hfind)
      rw [Option.isNone_iff_eq_none.mp hb] at hsome
      cases hsome
  | none =>
    have hall : ∀ b ∈ bound.binding.bindings,
        ((DenseDecoderConfig.fromBoundModel portableAttn bound).paramComputeDtypes.get b.canonicalName).isSome := by
      intro b hb
      have hnone := List.find?_eq_none.mp hfind b hb
      rwa [Option.isNone_iff_eq_none, ← Ne, Option.ne_none_iff_isSome] at hnone
    simp only [hfind]
    cases hsupports : (DenseDecoderConfig.fromBoundModel portableAttn bound).supportsDenseEmit with
    | false =>
      constructor
      · rintro ⟨_, -, h⟩
        cases h
      · rintro ⟨-, -, h, -⟩
        cases h
    | true =>
      constructor
      · rintro ⟨⟨⟩, hvalid, h⟩
        obtain ⟨modules, hmodules, h⟩ := Fallible.bind_ok h
        cases h
        exact ⟨hvalid, hall, rfl, modules, hmodules, rfl⟩
      · rintro ⟨hvalid, -, -, modules, hmodules, rfl⟩
        exact ⟨(), hvalid, Fallible.bind_ok_iff.mpr ⟨modules, hmodules, rfl⟩⟩

/-- The lowering asks its process whether to use flash attention. -/
def BoundModel.AsksFlash (bound : BoundModel) : Prop :=
  bound.target.driver = "hip" ∧ (DenseDecoderConfig.fromBoundModel false bound).pagedKv = true ∧
    64 ≤ (DenseDecoderConfig.fromBoundModel false bound).headDim

theorem useIreeAttention_eq : (DenseDecoderConfig.fromBoundModel portableAttn bound).useIreeAttention =
    (bound.target.driver == "hip" && !portableAttn &&
      decide (64 ≤ (DenseDecoderConfig.fromBoundModel false bound).headDim)) := rfl

theorem useIreeAttention_congr (h : bound.AsksFlash → portableAttn = portableAttn')
    (hpaged : (DenseDecoderConfig.fromBoundModel portableAttn bound).pagedKv = true) :
    (DenseDecoderConfig.fromBoundModel portableAttn bound).useIreeAttention =
      (DenseDecoderConfig.fromBoundModel portableAttn' bound).useIreeAttention := by
  rw [useIreeAttention_eq, useIreeAttention_eq]
  by_cases hasks : bound.AsksFlash
  · rw [h hasks]
  · have hno : ¬ (bound.target.driver = "hip" ∧ 64 ≤ (DenseDecoderConfig.fromBoundModel false bound).headDim) :=
      fun hboth => hasks ⟨hboth.1, hpaged, hboth.2⟩
    have hfalse (b : Bool) : (bound.target.driver == "hip" && !b &&
        decide (64 ≤ (DenseDecoderConfig.fromBoundModel false bound).headDim)) = false := by
      rw [Bool.eq_false_iff]
      intro htrue
      simp only [Bool.and_eq_true, beq_iff_eq, decide_eq_true_eq] at htrue
      exact hno ⟨htrue.1.1, htrue.2⟩
    rw [hfalse, hfalse]

theorem emitModules_congr (h : bound.AsksFlash → portableAttn = portableAttn') :
    emitModules emitter (DenseDecoderConfig.fromBoundModel portableAttn bound) =
      emitModules emitter (DenseDecoderConfig.fromBoundModel portableAttn' bound) := by
  have hprogram (program : PagedProgram) :
      emitter.program (DenseDecoderConfig.fromBoundModel portableAttn bound) program =
        emitter.program (DenseDecoderConfig.fromBoundModel portableAttn' bound) program := by
    have hsame : (DenseDecoderConfig.fromBoundModel portableAttn' bound).pagedKv =
        (DenseDecoderConfig.fromBoundModel portableAttn bound).pagedKv := rfl
    unfold Emitter.program
    rw [hsame]
    split
    case isTrue hpaged => rw [useIreeAttention_congr h hpaged]; rfl
    case isFalse => rfl
  have hsame : (DenseDecoderConfig.fromBoundModel portableAttn' bound).pagedKv =
      (DenseDecoderConfig.fromBoundModel portableAttn bound).pagedKv := rfl
  have hconv : (DenseDecoderConfig.fromBoundModel portableAttn' bound).hasShortConv =
      (DenseDecoderConfig.fromBoundModel portableAttn bound).hasShortConv := rfl
  simp only [emitModules, hprogram, hsame, hconv]

theorem pagedKvElementType_congr (h : bound.AsksFlash → portableAttn = portableAttn') :
    (DenseDecoderConfig.fromBoundModel portableAttn bound).pagedKvElementType =
      (DenseDecoderConfig.fromBoundModel portableAttn' bound).pagedKvElementType := by
  have hsame : (DenseDecoderConfig.fromBoundModel portableAttn' bound).pagedKv =
      (DenseDecoderConfig.fromBoundModel portableAttn bound).pagedKv := rfl
  unfold DenseDecoderConfig.pagedKvElementType
  rw [hsame]
  cases hpaged : (DenseDecoderConfig.fromBoundModel portableAttn bound).pagedKv with
  | true => rw [useIreeAttention_congr h hpaged]
  | false => rfl

/-- Where the lowering asks, the answer shows in the element type of the cache. -/
theorem pagedKvElementType_eq_iff (hasks : bound.AsksFlash) :
    (DenseDecoderConfig.fromBoundModel portableAttn bound).pagedKvElementType =
      (DenseDecoderConfig.fromBoundModel portableAttn' bound).pagedKvElementType ↔ portableAttn = portableAttn' := by
  obtain ⟨hdriver, hpaged, hwide⟩ := hasks
  have htype (b : Bool) : (DenseDecoderConfig.fromBoundModel b bound).pagedKvElementType = if b then .f32 else .f16 := by
    have hsame : (DenseDecoderConfig.fromBoundModel b bound).pagedKv = true := hpaged
    rw [DenseDecoderConfig.pagedKvElementType, hsame, useIreeAttention_eq, hdriver, decide_eq_true hwide]
    cases b <;> rfl
  rw [htype, htype]
  cases portableAttn <;> cases portableAttn' <;> decide

/-- What one process lowers a model to, another lowers it to exactly when they agree on what is asked. -/
theorem lowerBoundModel_process (h : lowerBoundModel emitter portableAttn bound = .ok lowering) :
    lowerBoundModel emitter portableAttn' bound = .ok lowering ↔ (bound.AsksFlash → portableAttn = portableAttn') := by
  obtain ⟨hvalid, hall, hsupports, modules, hmodules, rfl⟩ := lowerBoundModel_ok_iff.mp h
  constructor
  · intro h' hasks
    obtain ⟨-, -, -, modules', -, hsame⟩ := lowerBoundModel_ok_iff.mp h'
    exact (pagedKvElementType_eq_iff hasks).mp (congrArg LoweringOutput.kvElementType hsame)
  · intro hagree
    refine lowerBoundModel_ok_iff.mpr ⟨hvalid, hall, hsupports, modules, emitModules_congr hagree ▸ hmodules, ?_⟩
    unfold DenseDecoderConfig.output
    rw [pagedKvElementType_congr hagree]
    rfl

end lowering

/-! ## Two processes -/

/-- Two processes and hosts show a compilation the same: what it reads of them is equal. -/
structure ProcessEnvironment.AgreeOn (env env' : ProcessEnvironment) (asksFlash : Prop) (target : TargetProfile) :
    Prop where
  portableAttn : asksFlash → env.portableAttn = env'.portableAttn
  rocmBcDir : target.readsRocmBc = true → env.rocmBcDir = env'.rocmBcDir
  rocmLinker : target.readsRocmLinker = true → env.rocmLinker = env'.rocmLinker

theorem not_readsRocmLinker {target : TargetProfile} (h : target.readsRocmBc = true) : target.readsRocmLinker = false := by
  unfold TargetProfile.readsRocmBc at h
  unfold TargetProfile.readsRocmLinker
  obtain hdriver | hdriver : target.driver = "hip" ∨ target.driver = "rocm" := by simpa using h
  all_goals rw [hdriver]; rfl

theorem rocmBcFlag_injective : Function.Injective rocmBcFlag := fun _ _ h => String.append_right_inj _ |>.mp h

theorem linkerFlag_injective : Function.Injective linkerFlag := fun _ _ h => String.append_right_inj _ |>.mp h

theorem toList_map_eq_iff {flag : String → String} (hflag : Function.Injective flag) {path path' : Option String} :
    (path.map flag).toList = (path'.map flag).toList ↔ path = path' := by
  cases path <;> cases path' <;> simp [hflag.eq_iff]

/-- The host's flags are equal exactly when what is read of the hosts is. -/
theorem hostFlags_eq_iff {env env' : ProcessEnvironment} {target : TargetProfile} :
    hostFlags env target = hostFlags env' target ↔
      (target.readsRocmBc = true → env.rocmBcDir = env'.rocmBcDir) ∧
        (target.readsRocmLinker = true → env.rocmLinker = env'.rocmLinker) := by
  unfold hostFlags
  cases hbc : target.readsRocmBc with
  | true =>
    simp only [if_true, toList_map_eq_iff rocmBcFlag_injective, not_readsRocmLinker hbc, Bool.false_eq_true,
      false_imp_iff, true_imp_iff, and_true]
  | false =>
    cases hlinker : target.readsRocmLinker with
    | true => simp [toList_map_eq_iff linkerFlag_injective]
    | false => simp

variable {emitter : Emitter} {env env' : ProcessEnvironment} {options : CompileOptions} {input : CompileInput}
  {product : CompileProduct}

theorem compileFlagsFor_ok {target : TargetProfile} {flags : List String} (h : compileFlagsFor env target = .ok flags) :
    flags = target.executableTargetFlags ++ hostFlags env target ∧
      ∀ env', compileFlagsFor env' target = .ok (target.executableTargetFlags ++ hostFlags env' target) := by
  unfold compileFlagsFor at h ⊢
  split at h
  case isTrue => cases h
  case isFalse hready =>
    cases h
    exact ⟨rfl, fun env' => by rw [if_neg hready]⟩

theorem compile_ok_iff : compile emitter env options input = .ok product ↔
    ∃ lowering flags, lowerFor emitter env options input.bound = .ok lowering ∧
      compileFlagsFor env input.bound.target = .ok flags ∧ validateBindingForCompile input.bound.binding = .ok () ∧
        product = {
          mlirText := lowering.mlirText
          decodeMlirText := lowering.decodeMlirText
          flags
          manifest := executableManifest input.bound input.revision input.schema input.shape options lowering } := by
  constructor
  · intro h
    obtain ⟨lowering, hlowering, h⟩ := Fallible.bind_ok h
    obtain ⟨flags, hflags, h⟩ := Fallible.bind_ok h
    obtain ⟨⟨⟩, hvalid, h⟩ := Fallible.bind_ok h
    cases h
    exact ⟨lowering, flags, hlowering, hflags, hvalid, rfl⟩
  · rintro ⟨lowering, flags, hlowering, hflags, hvalid, rfl⟩
    exact Fallible.bind_ok_iff.mpr ⟨lowering, hlowering, Fallible.bind_ok_iff.mpr ⟨flags, hflags,
      Fallible.bind_ok_iff.mpr ⟨(), hvalid, rfl⟩⟩⟩

theorem lowerFor_process {lowering : LoweringOutput} (h : lowerFor emitter env options input.bound = .ok lowering) :
    lowerFor emitter env' options input.bound = .ok lowering ↔
      (options.smokeOnly = false ∧ input.bound.AsksFlash → env.portableAttn = env'.portableAttn) := by
  unfold lowerFor at h ⊢
  cases hsmoke : options.smokeOnly with
  | true => simpa [hsmoke] using h
  | false =>
    simp only [hsmoke, Bool.false_eq_true, if_false, true_and] at h ⊢
    exact lowerBoundModel_process h

/-- The lowering of a compilation, read off its modules and its manifest. -/
theorem lowering_eq_of_product {lowering lowering' : LoweringOutput}
    (h : lowerFor emitter env options input.bound = .ok lowering)
    (h' : lowerFor emitter env' options input.bound = .ok lowering')
    (hmlir : lowering.mlirText = lowering'.mlirText) (hdecode : lowering.decodeMlirText = lowering'.decodeMlirText)
    (htype : lowering.kvElementType = lowering'.kvElementType) : lowering = lowering' := by
  unfold lowerFor at h h'
  cases hsmoke : options.smokeOnly with
  | true =>
    simp only [hsmoke, if_true] at h h'
    rw [← Except.ok.inj h, ← Except.ok.inj h']
  | false =>
    simp only [hsmoke, Bool.false_eq_true, if_false] at h h'
    obtain ⟨-, -, -, modules, -, rfl⟩ := lowerBoundModel_ok_iff.mp h
    obtain ⟨-, -, -, modules', -, rfl⟩ := lowerBoundModel_ok_iff.mp h'
    have hmodules : modules = modules' := Prod.ext hmlir hdecode
    have htype : (DenseDecoderConfig.fromBoundModel env.portableAttn input.bound).pagedKvElementType =
        (DenseDecoderConfig.fromBoundModel env'.portableAttn input.bound).pagedKvElementType := htype
    unfold DenseDecoderConfig.output
    rw [hmodules, htype]
    rfl

/-- What one process compiles, another compiles exactly when they agree. -/
theorem compile_process (h : compile emitter env options input = .ok product) :
    compile emitter env' options input = .ok product ↔
      env.AgreeOn env' (options.smokeOnly = false ∧ input.bound.AsksFlash) input.bound.target := by
  obtain ⟨lowering, flags, hlowering, hflags, hvalid, rfl⟩ := compile_ok_iff.mp h
  obtain ⟨rfl, hflags'⟩ := compileFlagsFor_ok hflags
  constructor
  · intro h'
    obtain ⟨lowering', flags', hlowering', hflagsEnv', -, hsame⟩ := compile_ok_iff.mp h'
    rw [(compileFlagsFor_ok hflagsEnv').1] at hsame
    simp only [CompileProduct.mk.injEq] at hsame
    obtain ⟨hmlir, hdecode, hflagsSame, hmanifest⟩ := hsame
    obtain ⟨hbc, hlinker⟩ := hostFlags_eq_iff.mp (List.append_cancel_left hflagsSame)
    have htype : lowering.kvElementType = lowering'.kvElementType := congrArg (·.kvCache.elementType) hmanifest
    obtain rfl := lowering_eq_of_product hlowering hlowering' hmlir hdecode htype
    exact ⟨(lowerFor_process hlowering).mp hlowering', hbc, hlinker⟩
  · intro hagree
    refine compile_ok_iff.mpr ⟨lowering, _, (lowerFor_process hlowering).mpr hagree.portableAttn, hflags' env', hvalid, ?_⟩
    rw [hostFlags_eq_iff.mpr ⟨hagree.rocmBcDir, hagree.rocmLinker⟩]

end Dyninfer
