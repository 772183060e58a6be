/-
One slot of a bind: it is bound to the parameter of its name exactly where the
parameter passes every check, and left open where there is none.
-/
import Dyninfer.Binding.Binder
import Dyninfer.Lib.Fallible
import Mathlib.Data.List.Basic

namespace Dyninfer

/-- What the binder checks of a slot and the parameter it finds. -/
structure SlotAccepts (slot : ParameterSlot) (param : LogicalParameter) : Prop where
  rank : ∀ rank, slot.expectedType.rank = some rank → param.logicalType.shape.length = rank
  shape : ∀ shape, slot.expectedType.shape = some shape → param.logicalType.shape = shape
  role : rolesCompatible slot.role param.role = true
  elementType : slot.expectedType.elementTypes ≠ [] → param.logicalType.elementType ∈ slot.expectedType.elementTypes
  /-- Plain storage has the size of its elements, as far as `u64` counts. -/
  storage : param.components ≠ [] → ∀ scalar order, param.encoding = .plain scalar order →
    ∃ numel, param.logicalType.shape.numel = some numel ∧
      param.storageBytes = min (numel * scalar.sizeBytes) (2 ^ 64 - 1)
  alignment : param.alignment ≠ 0
  offsets : ∀ component ∈ param.components, ∀ range ∈ component.byteRanges, param.alignment ∣ range.offset

section checks

variable {slot : ParameterSlot} {param : LogicalParameter}

theorem checkRank_ok_iff : checkRank slot param = .ok () ↔
    ∀ rank, slot.expectedType.rank = some rank → param.logicalType.shape.length = rank := by
  unfold checkRank
  cases slot.expectedType.rank with
  | none => simp
  | some rank => by_cases h : param.logicalType.shape.length = rank <;> simp [h]

theorem checkShape_ok_iff : checkShape slot param = .ok () ↔
    ∀ shape, slot.expectedType.shape = some shape → param.logicalType.shape = shape := by
  unfold checkShape
  cases slot.expectedType.shape with
  | none => simp
  | some shape => by_cases h : param.logicalType.shape = shape <;> simp [h]

theorem checkRole_ok_iff : checkRole slot param = .ok () ↔ rolesCompatible slot.role param.role = true := by
  unfold checkRole
  by_cases h : rolesCompatible slot.role param.role = true <;> simp [h]

theorem checkElementType_ok_iff : checkElementType slot param = .ok () ↔
    (slot.expectedType.elementTypes ≠ [] → param.logicalType.elementType ∈ slot.expectedType.elementTypes) := by
  unfold checkElementType
  split
  case isTrue h => simp [h.1, h.2]
  case isFalse h => simpa using h

theorem checkStorage_ok_iff : checkStorage slot param = .ok () ↔
    (param.components ≠ [] → ∀ scalar order, param.encoding = .plain scalar order →
      ∃ numel, param.logicalType.shape.numel = some numel ∧
        param.storageBytes = min (numel * scalar.sizeBytes) (2 ^ 64 - 1)) := by
  unfold checkStorage
  by_cases hnil : param.components = []
  · simp [hnil]
  rw [if_neg (by simpa using hnil)]
  cases param.encoding with
  | plain scalar order =>
    cases param.logicalType.shape.numel with
    | none => simp [hnil]
    | some numel =>
      by_cases h : param.storageBytes = min (numel * scalar.sizeBytes) (2 ^ 64 - 1) <;> simp [hnil, h]
  | _ => simp

theorem checkAlignment_ok_iff : checkAlignment slot param = .ok () ↔ param.alignment ≠ 0 := by
  unfold checkAlignment
  by_cases h : param.alignment = 0 <;> simp [h]

theorem checkOffsets_ok_iff : checkOffsets slot param = .ok () ↔
    ∀ component ∈ param.components, ∀ range ∈ component.byteRanges, param.alignment ∣ range.offset := by
  unfold checkOffsets
  rw [Fallible.forM_ok_iff, List.forall_mem_flatMap]
  refine forall₂_congr fun component _ => forall₂_congr fun range _ => ?_
  by_cases h : range.offset % param.alignment = 0 <;> simp [h, Nat.dvd_iff_mod_eq_zero]

end checks

namespace Binder

variable {binder : Binder} {slot : ParameterSlot} {parameters : AssocMap String LogicalParameter}

theorem bindSlot_ok_iff {found : Option ParameterBinding} : binder.bindSlot slot parameters = .ok found ↔
    (∀ param, parameters.get slot.canonicalName = some param → SlotAccepts slot param) ∧
      found = (parameters.get slot.canonicalName).map (binder.parameterBinding slot) := by
  unfold bindSlot
  cases parameters.get slot.canonicalName with
  | none => simp [eq_comm]
  | some param =>
    simp only [Option.some.injEq, forall_eq', Option.map_some]
    constructor
    · intro h
      obtain ⟨_, hrank, h⟩ := Fallible.bind_ok h
      obtain ⟨_, hshape, h⟩ := Fallible.bind_ok h
      obtain ⟨_, hrole, h⟩ := Fallible.bind_ok h
      obtain ⟨_, helement, h⟩ := Fallible.bind_ok h
      obtain ⟨_, hstorage, h⟩ := Fallible.bind_ok h
      obtain ⟨_, halignment, h⟩ := Fallible.bind_ok h
      obtain ⟨_, hoffsets, h⟩ := Fallible.bind_ok h
      exact ⟨⟨checkRank_ok_iff.mp hrank, checkShape_ok_iff.mp hshape, checkRole_ok_iff.mp hrole,
        checkElementType_ok_iff.mp helement, checkStorage_ok_iff.mp hstorage, checkAlignment_ok_iff.mp halignment,
        checkOffsets_ok_iff.mp hoffsets⟩, (Except.ok.inj h).symm⟩
    · intro ⟨h, hfound⟩
      rw [checkRank_ok_iff.mpr h.rank, checkShape_ok_iff.mpr h.shape, checkRole_ok_iff.mpr h.role,
        checkElementType_ok_iff.mpr h.elementType, checkStorage_ok_iff.mpr h.storage,
        checkAlignment_ok_iff.mpr h.alignment, checkOffsets_ok_iff.mpr h.offsets, hfound]
      rfl

end Binder

end Dyninfer
