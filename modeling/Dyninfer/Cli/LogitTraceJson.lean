/-
The JSON value of a trace header: it reads back as the header, whatever the
metadata, and the metadata alone decides how deep it nests.
-/
import Dyninfer.Cli.LogitTrace

namespace Dyninfer

open Json

namespace LogitTrace

/-! ## Fields -/

@[simp] theorem asU32_ofU32 (n : UInt32) : asU32 (ofU32 n) = some n := by
  have hlt := UInt32.toNat_lt n
  unfold asU32 ofU32
  rw [asU64_ofNat (by omega), Option.bind_some, if_pos hlt, UInt32.ofNat_toNat]

@[simp] theorem asU64_posInt (n : UInt64) : LogitTrace.asU64 (.number (.posInt n)) = some n := by
  show some (UInt64.ofNat n.toNat) = some n
  rw [UInt64.ofNat_toNat]

@[simp] theorem asStr_string (s : String) : (Json.string s).asStr = some s := rfl

theorem asList_map {α : Type} {item : Json → Option α} {f : α → Json} (h : ∀ a, item (f a) = some a) (xs : List α) :
    asList item (.array (xs.map f)) = some xs := by
  show (xs.map f).mapM item = some xs
  induction xs with
  | nil => rfl
  | cons x xs ih => rw [List.map_cons, List.mapM_cons, h, ih]; rfl

@[simp] theorem phaseOfJson_name (phase : TracePhase) : phaseOfJson (.string (TracePhase.name phase)) = some phase := by
  cases phase <;> rfl

@[simp] theorem optionOfJson_none {α : Type} (item : Json → Option α) : optionOfJson item none = some none := rfl

@[simp] theorem optionOfJson_ofU32 (n : UInt32) : optionOfJson asU32 (some (ofU32 n)) = some (some n) := by
  show (asU32 (ofU32 n)).map some = _
  rw [asU32_ofU32, Option.map_some]

theorem rowOfJson_rowToJson (row : TraceRow) : rowOfJson (rowToJson row) = some row := by
  obtain ⟨phase, position, inputToken, argmax, forcedToken⟩ := row
  cases forcedToken <;> simp [rowOfJson, rowToJson, structFields, rowNames, List.lookup_cons]

theorem metadataFields_of_ne {metadata : Json} (h : metadata ≠ .null) :
    metadataFields metadata = [("engine_metadata", metadata)] := by
  cases metadata with
  | null => exact absurd rfl h
  | _ => rfl

theorem structFields_headerToJson (header : TraceHeader) : structFields headerNames (headerToJson header) =
    some (headerFields header ++ metadataFields header.engineMetadata) := by
  unfold headerToJson structFields
  by_cases hnull : header.engineMetadata = .null
  · have hnames : (headerFields header ++ metadataFields .null).map (·.1) = headerNames.take 11 := rfl
    rw [hnull]
    exact if_pos (by rw [hnames]; decide)
  · have hnames : (headerFields header ++ [("engine_metadata", header.engineMetadata)]).map (·.1) = headerNames := rfl
    rw [metadataFields_of_ne hnull]
    exact if_pos (by rw [hnames]; decide)

theorem lookup_metadata (header : TraceHeader) :
    ((headerFields header ++ metadataFields header.engineMetadata).lookup "engine_metadata").getD .null =
      header.engineMetadata := by
  by_cases hnull : header.engineMetadata = .null
  · rw [hnull]
    simp [headerFields, metadataFields, List.lookup_cons]
  · rw [metadataFields_of_ne hnull]
    simp [headerFields, List.lookup_cons]

theorem lookup_headerFields {header : TraceHeader} {name : String} {v : Json}
    (h : (headerFields header).lookup name = some v) (fields : List (String × Json)) :
    (headerFields header ++ fields).lookup name = some v := by
  rw [List.lookup_append, h, Option.some_or]

theorem headerOfJson_headerToJson (header : TraceHeader) : headerOfJson (headerToJson header) = some header := by
  have hfind := fun name v h => @lookup_headerFields header name v h (metadataFields header.engineMetadata)
  unfold headerOfJson
  rw [structFields_headerToJson]
  simp only [Option.bind_eq_bind, Option.bind_some, lookup_metadata, hfind "format" _ rfl, hfind "version" _ rfl,
    hfind "engine" _ rfl, hfind "checkpoint_sha256" _ rfl, hfind "vocab_size" _ rfl, hfind "prompt_tokens" _ rfl,
    hfind "decode_inputs" _ rfl, hfind "logits_dtype" _ rfl, hfind "logits_byte_order" _ rfl, hfind "rows" _ rfl,
    hfind "logits_file" _ rfl, asU32_ofU32, asStr_string, asList_map asU32_ofU32, asList_map rowOfJson_rowToJson]
  rfl

/-! ## What reading back may change -/

theorem fixed_ofU32 (n : UInt32) : Fixed (ofU32 n) := Fixed.posInt _

theorem fixed_rowToJson (row : TraceRow) : Fixed (rowToJson row) := by
  refine Fixed.object fun f hf => ?_
  rcases List.mem_append.mp hf with hfixed | hforced
  · simp only [List.mem_cons, List.not_mem_nil, or_false] at hfixed
    rcases hfixed with rfl | rfl | rfl | rfl
    · exact Fixed.string _
    · exact Fixed.posInt _
    · exact fixed_ofU32 _
    · exact fixed_ofU32 _
  · obtain ⟨token, -, rfl⟩ := List.mem_map.mp hforced
    exact fixed_ofU32 token

theorem fixed_map {α : Type} {f : α → Json} (h : ∀ a, Fixed (f a)) (xs : List α) : Fixed (.array (xs.map f)) :=
  Fixed.array fun x hx => by
    obtain ⟨a, -, rfl⟩ := List.mem_map.mp hx
    exact h a

theorem fixed_headerFields (header : TraceHeader) : ∀ f ∈ headerFields header, Fixed f.2 := by
  intro f hf
  simp only [headerFields, List.mem_cons, List.not_mem_nil, or_false] at hf
  rcases hf with rfl | rfl | rfl | rfl | rfl | rfl | rfl | rfl | rfl | rfl | rfl
  case inr.inr.inr.inr.inr.inl => exact fixed_map fixed_ofU32 _
  case inr.inr.inr.inr.inr.inr.inl => exact fixed_map fixed_ofU32 _
  case inr.inr.inr.inr.inr.inr.inr.inr.inr.inl => exact fixed_map fixed_rowToJson _
  case inr.inl => exact fixed_ofU32 _
  case inr.inr.inr.inr.inl => exact fixed_ofU32 _
  all_goals exact Fixed.string _

theorem eq_null_of_floatsAside {v : Json} (h : FloatsAside v .null) : v = .null := by
  cases h
  rfl

/-- A header reads back as itself, but for its metadata. -/
theorem floatsAside_header {header : TraceHeader} {w : Json} (h : FloatsAside (headerToJson header) w) :
    ∃ metadata, w = headerToJson { header with engineMetadata := metadata } := by
  unfold headerToJson at h
  cases h with
  | object hall =>
    obtain ⟨gs, rfl, hgs⟩ := Fixed.fields_append (fixed_headerFields header) hall
    by_cases hnull : header.engineMetadata = .null
    · rw [hnull] at hgs
      cases hgs
      exact ⟨.null, rfl⟩
    · rw [metadataFields_of_ne hnull] at hgs
      cases hgs with
      | @cons _ _ metadata _ _ hx hrest =>
        cases hrest
        refine ⟨metadata, ?_⟩
        unfold headerToJson
        rw [metadataFields_of_ne]
        · rfl
        · intro hmetadata
          exact hnull (eq_null_of_floatsAside (hmetadata ▸ hx))

/-! ## Nesting -/

theorem depth_map {α : Type} {f : α → Json} {n : Nat} (h : ∀ a, (f a).depth ≤ n) (xs : List α) :
    (Json.array (xs.map f)).depth ≤ n + 1 := by
  rw [depth]
  refine Nat.succ_le_succ (depthArray_le fun x hx => ?_)
  obtain ⟨a, -, rfl⟩ := List.mem_map.mp hx
  exact h a

theorem depth_ofU32 (n : UInt32) : (ofU32 n).depth ≤ 0 := Nat.le_refl 0

theorem depth_rowToJson (row : TraceRow) : (rowToJson row).depth ≤ 1 := by
  unfold rowToJson
  rw [depth]
  refine Nat.succ_le_succ (depthObject_le fun f hf => ?_)
  rcases List.mem_append.mp hf with hfixed | hforced
  · simp only [List.mem_cons, List.not_mem_nil, or_false] at hfixed
    rcases hfixed with rfl | rfl | rfl | rfl <;> exact Nat.le_refl 0
  · obtain ⟨token, -, rfl⟩ := List.mem_map.mp hforced
    exact depth_ofU32 token

theorem depth_headerFields (header : TraceHeader) : depthObject (headerFields header) ≤ 2 := by
  refine depthObject_le fun f hf => ?_
  simp only [headerFields, List.mem_cons, List.not_mem_nil, or_false] at hf
  rcases hf with rfl | rfl | rfl | rfl | rfl | rfl | rfl | rfl | rfl | rfl | rfl
  case inr.inr.inr.inr.inr.inl => exact (depth_map depth_ofU32 _).trans (by omega)
  case inr.inr.inr.inr.inr.inr.inl => exact (depth_map depth_ofU32 _).trans (by omega)
  case inr.inr.inr.inr.inr.inr.inr.inr.inr.inl => exact depth_map depth_rowToJson _
  all_goals exact Nat.zero_le 2

theorem depth_headerToJson_le_iff (header : TraceHeader) :
    (headerToJson header).depth ≤ 127 ↔ header.engineMetadata.depth ≤ 126 := by
  have hfields := depth_headerFields header
  have hmetadata : depthObject (metadataFields header.engineMetadata) = header.engineMetadata.depth := by
    by_cases hnull : header.engineMetadata = .null
    · rw [hnull]
      rfl
    · rw [metadataFields_of_ne hnull]
      simp only [depthObject, Nat.max_zero]
  unfold headerToJson
  rw [depth, depthObject_append, hmetadata]
  omega

end LogitTrace

end Dyninfer
