/-
What an emitted global is of its parameter. A plain one has the shape the
configuration gives it and the type it is stored in; a block-quantized one is
flat, with the bytes of the block data; an MLX one has the shape and type of its
component. What is loaded is what was declared.
-/
import Dyninfer.Lib.Fallible
import Dyninfer.Lowering.ParameterGlobals
import Dyninfer.Quantization.StorageFacts

namespace Dyninfer

/-- The bytes a component binding stands for. -/
def ParameterComponentBinding.byteLength (component : ParameterComponentBinding) : Nat := component.byteLengths.sum

/-- The type of the global that loads a component, by the encoding of its parameter; no other encoding has one. -/
def TypedAs (ref : ParameterRef) (binding : ParameterBinding) (component : ParameterComponentBinding)
    (type : TensorType) : PhysicalEncoding → Prop
  | .plain .. =>
    type.shape = ref.shape ∧ component.storageType = .scalar type.elementType ∧
      (type.byteSize = component.byteLength ↔ ref.shape.size = binding.logicalShape.size)
  | .blockQuantized _ => type = .bytes component.byteLength
  | .groupQuantized _ =>
    type.shape = component.shape ∧ component.storageType = .scalar type.elementType ∧
      type.byteSize = component.byteLength
  | .sparse .. | .opaqueCodec .. => False

/-- The symbol of the global that loads a component: the parameter's, and for an encoded one the component's name
behind it. -/
def globalSymbol (ref : ParameterRef) (component : ParameterComponentBinding) : PhysicalEncoding → String
  | .plain .. => ref.symbol
  | _ => s!"{ref.symbol}_{component.componentName}"

/-- The parameter behind a reference: its binding, and what is known of the binding's components. -/
structure Stored (registry : QuantizationRegistry) (c : DenseDecoderConfig) (ref : ParameterRef)
    (binding : ParameterBinding) : Prop where
  bound : c.paramBinding ref.canonical = some binding
  plain : ∀ ty order, binding.encoding = .plain ty order → ∃ component, binding.components = [component] ∧
    c.paramKey ref.canonical = component.externalKey ∧ c.paramDtype ref.canonical = ty ∧
    component.storageType = .scalar ty ∧ component.byteLength = binding.logicalShape.size * ty.sizeBytes
  group : ∀ bits, registry.resolve binding.encoding = some (.mlxAffine bits) → ∀ component ∈ binding.components,
    ∃ ty, component.storageType = .scalar ty ∧ component.byteLength = component.shape.size * ty.sizeBytes

/-! ## Code generators -/

section codegen

variable {binding : ParameterBinding} {symbol : String}

theorem GgufCodegen.emitExternalGlobals_ok {globals : List ParameterGlobal}
    (h : GgufCodegen.emitExternalGlobals binding symbol = .ok globals) :
    ∃ component ∈ binding.components,
      globals = [⟨s!"{symbol}_{component.componentName}", component.externalKey, .bytes component.byteLength⟩] := by
  obtain ⟨component, hcomponent, h⟩ := Fallible.bind_ok h
  obtain ⟨bytes, hbytes, h⟩ := Fallible.bind_ok h
  obtain ⟨component', hcomponent', hbytes⟩ := Fallible.bind_ok hbytes
  rw [hcomponent] at hcomponent'
  cases hcomponent'
  cases h
  obtain ⟨hmem, hname⟩ : component ∈ binding.components ∧ component.componentName = "data" := by
    unfold GgufCodegen.dataComponent at hcomponent
    split at hcomponent
    case h_2 => cases hcomponent
    case h_1 found hfound =>
      split at hcomponent
      case h_2 => cases hcomponent
      case h_1 hname _ =>
        cases hcomponent
        exact ⟨hfound ▸ List.mem_singleton_self _, hname⟩
  refine ⟨component, hmem, ?_⟩
  rw [checkedSum_ok (orOverflow_ok hbytes), hname]
  simp only [toString, String.append_assoc]
  rfl

theorem GgufCodegen.emitParameterLoad_ok {globals : List ParameterGlobal} {loads : List GlobalLoad}
    (h : GgufCodegen.emitExternalGlobals binding symbol = .ok globals)
    (hload : GgufCodegen.emitParameterLoad binding symbol = .ok loads) :
    loads = globals.map (·.load) := by
  obtain ⟨component, -, h⟩ := Fallible.bind_ok h
  obtain ⟨bytes, hbytes, h⟩ := Fallible.bind_ok h
  obtain ⟨bytes', hbytes', hload⟩ := Fallible.bind_ok hload
  rw [hbytes] at hbytes'
  cases hbytes'
  cases h
  cases hload
  rfl

namespace MlxAffineDefinition

theorem component_ok {name : String} {found : ParameterComponentBinding} (h : component binding name = .ok found) :
    found ∈ binding.components ∧ found.componentName = name := by
  unfold component at h
  split at h
  case h_1 found' hfind =>
    cases h
    have hname := List.find?_some hfind
    exact ⟨List.mem_of_find?_eq_some hfind, eq_of_beq hname⟩
  case h_2 => cases h

theorem componentTensorType_ok {found : ParameterComponentBinding} {type : TensorType}
    (h : componentTensorType found = .ok type) :
    type.shape = found.shape ∧ found.storageType = .scalar type.elementType := by
  unfold componentTensorType at h
  split at h
  case h_1 ty hty =>
    cases h
    exact ⟨rfl, hty⟩
  case h_2 => cases h

theorem emitExternalGlobals_ok {bits : Nat} {globals : List ParameterGlobal}
    (h : emitExternalGlobals bits binding symbol = .ok (some globals)) :
    ∀ g ∈ globals, ∃ found ∈ binding.components, g.symbol = s!"{symbol}_{found.componentName}" ∧
      g.key = found.externalKey ∧ g.type.shape = found.shape ∧ found.storageType = .scalar g.type.elementType := by
  unfold emitExternalGlobals at h
  split at h
  case isTrue => cases h
  case isFalse =>
    obtain ⟨globals', hglobals, h⟩ := Fallible.bind_ok h
    cases h
    intro g hg
    obtain ⟨name, -, hname⟩ := Fallible.exists_of_forall₂ (Fallible.mapM_ok hglobals).flip hg
    obtain ⟨found, hfound, hname⟩ := Fallible.bind_ok hname
    obtain ⟨type, htype, hname⟩ := Fallible.bind_ok hname
    cases hname
    obtain ⟨hshape, hscalar⟩ := componentTensorType_ok htype
    obtain ⟨hmem, rfl⟩ := component_ok hfound
    exact ⟨found, hmem, rfl, rfl, hshape, hscalar⟩

theorem emitParameterLoad_ok {bits : Nat} {globals : List ParameterGlobal} {loads : List GlobalLoad}
    (h : emitExternalGlobals bits binding symbol = .ok (some globals))
    (hload : emitParameterLoad bits binding symbol = .ok (some loads)) :
    loads = globals.map (·.load) := by
  unfold emitExternalGlobals at h
  unfold emitParameterLoad at hload
  split at h
  case isTrue => cases h
  case isFalse hbits =>
    rw [if_neg hbits] at hload
    split at hload
    case isTrue => cases hload
    case isFalse =>
      obtain ⟨globals', hglobals, h⟩ := Fallible.bind_ok h
      cases h
      obtain ⟨_, -, hload⟩ := Fallible.bind_ok hload
      obtain ⟨loads', hloads, hload⟩ := Fallible.bind_ok hload
      cases hload
      refine Fallible.mapM_map_eq (fun name g load hg hload => ?_) hglobals hloads
      obtain ⟨found, hfound, hg⟩ := Fallible.bind_ok hg
      obtain ⟨type, htype, hg⟩ := Fallible.bind_ok hg
      obtain ⟨found', hfound', hload⟩ := Fallible.bind_ok hload
      rw [hfound] at hfound'
      cases hfound'
      obtain ⟨type', htype', hload⟩ := Fallible.bind_ok hload
      rw [htype] at htype'
      cases htype'
      cases hg
      cases hload
      rfl

end MlxAffineDefinition

end codegen

/-! ## One parameter -/

namespace ParameterLowerings

variable {registry : QuantizationRegistry} {c : DenseDecoderConfig} {ref : ParameterRef} {binding : ParameterBinding}
  {globals : List ParameterGlobal}

theorem required_ok {α : Type} {requirement : String} {x : Option α} {a : α}
    (h : required ref requirement x = .ok a) : x = some a := by
  cases x with
  | some b => cases h; rfl
  | none => cases h

theorem definition_ok {found : QuantizationDefinition} (h : definition registry binding = .ok found) :
    registry.resolve binding.encoding = some found := by
  unfold definition at h
  split at h
  case h_1 found' hresolve =>
    cases h
    exact hresolve
  case h_2 => cases h

theorem map_some_ok {α ε : Type} {x : Except ε α} {a : α} (h : x.map some = .ok (some a)) : x = .ok a := by
  cases x with
  | ok b => cases h; rfl
  | error e => cases h

/-- What is loaded of a parameter is what was declared. -/
theorem emitLoad_eq {loads : List GlobalLoad} (h : emitGlobal registry c ref = .ok globals)
    (hload : emitLoad registry c ref = .ok loads) : loads = globals.map (·.load) := by
  unfold emitGlobal at h
  unfold emitLoad at hload
  cases hbinding : c.encodedBinding ref.canonical with
  | none =>
    simp only [hbinding] at h hload
    split at hload
    case isFalse => cases hload
    case isTrue =>
      cases h
      cases hload
      rfl
  | some binding =>
    simp only [hbinding] at h hload
    obtain ⟨found, hfound, h⟩ := Fallible.bind_ok h
    obtain ⟨emitted, hemitted, h⟩ := Fallible.bind_ok h
    obtain rfl := required_ok h
    obtain ⟨found', hfound', hload⟩ := Fallible.bind_ok hload
    rw [hfound] at hfound'
    cases hfound'
    obtain ⟨emitted', hemitted', hload⟩ := Fallible.bind_ok hload
    obtain rfl := required_ok hload
    cases found with
    | plain | ggufBlock => cases hemitted
    | ggufQ40 | ggufQ41 | ggufQ6K | ggufQ80 =>
      exact GgufCodegen.emitParameterLoad_ok (map_some_ok hemitted) (map_some_ok hemitted')
    | mlxAffine bits => exact MlxAffineDefinition.emitParameterLoad_ok hemitted hemitted'

/-- A definition's globals are for encodings of its kind. -/
theorem kind_of_resolve {found : QuantizationDefinition} {encoding : PhysicalEncoding}
    (h : registry.resolve encoding = some found) : found.matchesEncoding encoding = true :=
  List.find?_some (p := fun d : QuantizationDefinition => d.matchesEncoding encoding) h

/-- The globals of a parameter, each with the component it loads. -/
theorem emitGlobal_typed (hstored : Stored registry c ref binding) (h : emitGlobal registry c ref = .ok globals) :
    ∀ g ∈ globals, ∃ component ∈ binding.components, g.symbol = globalSymbol ref component binding.encoding ∧
      g.key = component.externalKey ∧ TypedAs ref binding component g.type binding.encoding := by
  unfold emitGlobal DenseDecoderConfig.encodedBinding at h
  rw [hstored.bound, Option.filter_some] at h
  cases hplain : binding.encoding.isPlain with
  | true =>
    simp only [hplain, Bool.not_true, Bool.false_eq_true, if_false] at h
    cases h
    intro g hg
    obtain rfl := List.mem_singleton.mp hg
    cases hencoding : binding.encoding with
    | plain ty order =>
      obtain ⟨component, hcomponents, hkey, hdtype, hscalar, hbytes⟩ := hstored.plain ty order hencoding
      refine ⟨component, hcomponents ▸ List.mem_singleton_self _, rfl, hkey, rfl, hdtype ▸ hscalar, ?_⟩
      rw [TensorType.byteSize, hdtype, hbytes]
      have hpos : 0 < ty.sizeBytes := by cases ty <;> decide
      exact Nat.mul_left_inj (Nat.ne_of_gt hpos)
    | _ => simp [hencoding, PhysicalEncoding.isPlain] at hplain
  | false =>
    simp only [hplain, Bool.not_false, if_true] at h
    obtain ⟨found, hfound, h⟩ := Fallible.bind_ok h
    obtain ⟨emitted, hemitted, h⟩ := Fallible.bind_ok h
    obtain rfl := required_ok h
    have hresolve := definition_ok hfound
    have hmatches := kind_of_resolve hresolve
    cases found with
    | plain | ggufBlock => cases hemitted
    | ggufQ40 | ggufQ41 | ggufQ6K | ggufQ80 =>
      obtain ⟨component, hcomponent, rfl⟩ := GgufCodegen.emitExternalGlobals_ok (map_some_ok hemitted)
      intro g hg
      obtain rfl := List.mem_singleton.mp hg
      cases hencoding : binding.encoding with
      | blockQuantized q => exact ⟨component, hcomponent, rfl, rfl, rfl⟩
      | _ => simp [hencoding, QuantizationDefinition.matchesEncoding, GgufQ40Definition.matchesEncoding,
          GgufBlockDefinition.matchesEncoding] at hmatches
    | mlxAffine bits =>
      intro g hg
      obtain ⟨component, hcomponent, hsymbol, hkey, hshape, hscalar⟩ :=
        MlxAffineDefinition.emitExternalGlobals_ok hemitted g hg
      obtain ⟨ty, hty, hbytes⟩ := hstored.group bits hresolve component hcomponent
      cases hencoding : binding.encoding with
      | groupQuantized q =>
        refine ⟨component, hcomponent, hsymbol, hkey, hshape, hscalar, ?_⟩
        rw [hty] at hscalar
        rw [TensorType.byteSize, hshape, hbytes, ← StorageElementType.scalar.inj hscalar]
      | _ => simp [hencoding, QuantizationDefinition.matchesEncoding, MlxAffineDefinition.matchesEncoding] at hmatches

end ParameterLowerings

/-! ## The parameters of a program -/

namespace DenseDecoderConfig

variable (c : DenseDecoderConfig)

theorem mem_layerParameters (layer : Nat) {ref : ParameterRef}
    (h : ref ∈ c.convOpLoads layer ++ (c.denseLayerLoads layer ++ c.pagedLayerLoads layer)) :
    ref ∈ c.layerParameters layer := by
  unfold convOpLoads denseLayerLoads pagedLayerLoads at h
  unfold layerParameters
  cases hkind : c.layerKind layer <;> simp only [hkind, List.mem_append, List.mem_cons, List.not_mem_nil] at h ⊢ <;> tauto

/-- Every parameter the functions load is declared. -/
theorem declared_of_loaded {ref : ParameterRef} (h : ref ∈ c.loadedParameters) : ref ∈ c.declaredParameters := by
  have hlayers (loads : Nat → List ParameterRef)
      (hloads : ∀ layer, ∀ ref ∈ loads layer,
        ref ∈ c.convOpLoads layer ++ (c.denseLayerLoads layer ++ c.pagedLayerLoads layer))
      (hmem : ref ∈ (List.range c.numLayers).flatMap loads) : ref ∈ c.declaredParameters := by
    obtain ⟨layer, hlayer, href⟩ := List.mem_flatMap.mp hmem
    refine List.mem_cons_of_mem _ (List.mem_append_left _ (List.mem_flatMap.mpr ⟨layer, hlayer, ?_⟩))
    exact c.mem_layerParameters layer (hloads layer ref href)
  obtain hconv | h := List.mem_append.mp h
  · exact hlayers c.convOpLoads (fun _ _ => List.mem_append_left _) hconv
  obtain rfl | h := List.mem_cons.mp h
  · exact List.mem_cons_self
  obtain hlayer | hend := List.mem_append.mp h
  · cases hpaged : c.pagedKv with
    | true =>
      rw [hpaged, if_pos rfl] at hlayer
      exact hlayers c.pagedLayerLoads
        (fun _ _ href => List.mem_append_right _ (List.mem_append_right _ href)) hlayer
    | false =>
      rw [hpaged, if_neg Bool.false_ne_true] at hlayer
      exact hlayers c.denseLayerLoads
        (fun _ _ href => List.mem_append_right _ (List.mem_append_left _ href)) hlayer
  · exact List.mem_cons_of_mem _ (List.mem_append_right _ hend)

end DenseDecoderConfig

/-! ## The emitted program -/

section program

variable {printer : ProgramPrinter} {c : DenseDecoderConfig}

theorem program_emits {program : PagedProgram} {text : String} (h : printer.emitter.program c program = .ok text) :
    ∃ globals loads, emitGlobals c = .ok globals ∧ emitLoads c = .ok loads := by
  unfold Emitter.program at h
  split at h
  all_goals
    obtain ⟨globals, hglobals, h⟩ := Fallible.bind_ok h
    obtain ⟨loads, hloads, -⟩ := Fallible.bind_ok h
    exact ⟨globals, loads, hglobals, hloads⟩

/-- Modules are emitted after their globals and loads. -/
theorem emitModules_emits {modules : String × Option String} (h : emitModules printer.emitter c = .ok modules) :
    ∃ globals loads, emitGlobals c = .ok globals ∧ emitLoads c = .ok loads := by
  unfold emitModules at h
  split at h
  all_goals
    obtain ⟨text, htext, -⟩ := Fallible.bind_ok h
    exact program_emits htext

theorem emitGlobals_ok {registry : QuantizationRegistry} (hregistry : defaultQuantizationRegistry = .ok registry)
    {globals : List ParameterGlobal} (h : emitGlobals c = .ok globals) :
    ∃ emitted, c.declaredParameters.mapM (ParameterLowerings.emitGlobal registry c) = .ok emitted ∧
      globals = emitted.flatten := by
  obtain ⟨registry', hregistry', h⟩ := Fallible.bind_ok h
  rw [hregistry] at hregistry'
  cases hregistry'
  obtain ⟨emitted, hemitted, h⟩ := Fallible.bind_ok h
  cases h
  exact ⟨emitted, hemitted, rfl⟩

/-- A declared global, with its parameter. -/
theorem mem_globals {registry : QuantizationRegistry} (hregistry : defaultQuantizationRegistry = .ok registry)
    {globals : List ParameterGlobal} (h : emitGlobals c = .ok globals) {g : ParameterGlobal} :
    g ∈ globals ↔ ∃ ref ∈ c.declaredParameters, ∃ own,
      ParameterLowerings.emitGlobal registry c ref = .ok own ∧ g ∈ own := by
  obtain ⟨emitted, hemitted, rfl⟩ := emitGlobals_ok hregistry h
  have hall := Fallible.mapM_ok hemitted
  rw [List.mem_flatten]
  constructor
  · rintro ⟨own, hown, hg⟩
    obtain ⟨ref, href, hemit⟩ := Fallible.exists_of_forall₂ hall.flip hown
    exact ⟨ref, href, own, hemit, hg⟩
  · rintro ⟨ref, href, own, hemit, hg⟩
    obtain ⟨own', hown, hemit'⟩ := Fallible.exists_of_forall₂ hall href
    rw [hemit] at hemit'
    cases hemit'
    exact ⟨own, hown, hg⟩

/-- A load, with the parameter it is of. -/
theorem mem_loads {registry : QuantizationRegistry} (hregistry : defaultQuantizationRegistry = .ok registry)
    {loads : List GlobalLoad} (h : emitLoads c = .ok loads) {load : GlobalLoad} (hload : load ∈ loads) :
    ∃ ref ∈ c.loadedParameters, ∃ own, ParameterLowerings.emitLoad registry c ref = .ok own ∧ load ∈ own := by
  obtain ⟨registry', hregistry', h⟩ := Fallible.bind_ok h
  rw [hregistry] at hregistry'
  cases hregistry'
  obtain ⟨emitted, hemitted, h⟩ := Fallible.bind_ok h
  cases h
  obtain ⟨own, hown, hload⟩ := List.mem_flatten.mp hload
  obtain ⟨ref, href, hemit⟩ := Fallible.exists_of_forall₂ (Fallible.mapM_ok hemitted).flip hown
  exact ⟨ref, href, own, hemit, hload⟩

/-- Every load is of a declared global, in its type. -/
theorem loads_declared {globals : List ParameterGlobal} {loads : List GlobalLoad} (h : emitGlobals c = .ok globals)
    (hloads : emitLoads c = .ok loads) : ∀ load ∈ loads, ∃ g ∈ globals, load = g.load := by
  intro load hload
  obtain ⟨registry, hregistry, -⟩ := Fallible.bind_ok h
  obtain ⟨ref, href, own, hown, hload⟩ := mem_loads hregistry hloads hload
  obtain ⟨emitted, hemitted, rfl⟩ := emitGlobals_ok hregistry h
  obtain ⟨declared, hdeclared, hemit⟩ :=
    Fallible.exists_of_forall₂ (Fallible.mapM_ok hemitted) (c.declared_of_loaded href)
  obtain rfl := ParameterLowerings.emitLoad_eq hemit hown
  obtain ⟨g, hg, rfl⟩ := List.mem_map.mp hload
  exact ⟨g, List.mem_flatten.mpr ⟨declared, hdeclared, hg⟩, rfl⟩

end program

end Dyninfer
