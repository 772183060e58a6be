/-
What an accepted parameter stores: a plain one has a single component that
holds its elements, and every component of an MLX group fills its shape.
-/
import Dyninfer.Lib.Fallible
import Dyninfer.Quantization.Definitions

namespace Dyninfer

theorem checkedSum_ok {lengths : List Nat} {total : Nat} (h : checkedSum lengths = some total) : total = lengths.sum := by
  have hrun : ∀ (lengths : List Nat) (start total : Nat),
      lengths.foldlM (fun total length => if total + length < 2 ^ 64 then some (total + length) else none) start =
        some total → total = start + lengths.sum := by
    intro lengths
    induction lengths with
    | nil =>
      intro start total h
      cases h
      rfl
    | cons length lengths ih =>
      intro start total h
      rw [List.foldlM_cons] at h
      obtain ⟨next, hnext, h⟩ := Option.bind_eq_some_iff.mp h
      split at hnext
      case isFalse => cases hnext
      case isTrue =>
        cases hnext
        rw [ih _ _ h, List.sum_cons, Nat.add_assoc]
  rw [hrun _ _ _ h, Nat.zero_add]

theorem Shape.numel_ok {shape : Shape} {n : Nat} (h : shape.numel = some n) : n = shape.size := by
  have hrun : ∀ (dims : List Nat) (start n : Nat),
      dims.foldlM (fun acc d => if acc * d < 2 ^ 64 then some (acc * d) else none) start = some n →
        n = start * dims.prod := by
    intro dims
    induction dims with
    | nil =>
      intro start n h
      cases h
      exact (Nat.mul_one _).symm
    | cons d dims ih =>
      intro start n h
      rw [List.foldlM_cons] at h
      obtain ⟨next, hnext, h⟩ := Option.bind_eq_some_iff.mp h
      split at hnext
      case isFalse => cases hnext
      case isTrue =>
        cases hnext
        rw [ih _ _ h, List.prod_cons, Nat.mul_assoc]
  rw [hrun _ _ _ h, Nat.one_mul, Shape.size]

/-- The bytes of a component. -/
def StorageComponent.byteLength (component : StorageComponent) : Nat := (component.byteRanges.map (·.length)).sum

theorem orOverflow_ok {α : Type} {message : String} {x : Option α} {a : α} (h : orOverflow message x = .ok a) :
    x = some a := by
  cases x with
  | none => cases h
  | some b => cases h; rfl

/-- The elements of a shape, in bytes. -/
theorem elementBytes_ok {shape : Shape} {elementBytes total : Nat}
    (h : (do let numel ← shape.numel
             if numel * elementBytes < 2 ^ 64 then some (numel * elementBytes) else none) = some total) :
    total = shape.size * elementBytes := by
  obtain ⟨numel, hnumel, h⟩ := Option.bind_eq_some_iff.mp h
  split at h
  case isFalse => cases h
  case isTrue =>
    cases h
    rw [Shape.numel_ok hnumel]

/-- An accepted plain parameter: one component with the bytes of its elements. -/
theorem PlainDefinition.validate_ok {storageType : ScalarType} {parameter : LogicalParameter}
    (h : PlainDefinition.validate storageType parameter = .ok ()) :
    ∃ component, parameter.components = [component] ∧
      component.byteLength = parameter.logicalType.shape.size * storageType.sizeBytes := by
  simp only [PlainDefinition.validate] at h
  obtain ⟨-, h⟩ := Fallible.ite_throw_ok h
  obtain ⟨-, h⟩ := Fallible.ite_throw_ok h
  obtain ⟨expected, hexpected, h⟩ := Fallible.bind_ok h
  obtain ⟨actual, hactual, h⟩ := Fallible.bind_ok h
  split at h
  case isTrue => cases h
  case isFalse hfits =>
    obtain ⟨hone, rfl⟩ : parameter.components.length = 1 ∧ actual = expected := by simpa using hfits
    obtain ⟨component, hcomponents⟩ := List.length_eq_one_iff.mp hone
    refine ⟨component, hcomponents, ?_⟩
    have hbytes : parameter.byteRanges = component.byteRanges := by
      rw [LogicalParameter.byteRanges, hcomponents, List.flatMap_singleton]
    rw [hbytes] at hactual
    rw [← elementBytes_ok (orOverflow_ok hexpected)]
    exact (checkedSum_ok (orOverflow_ok hactual)).symm

namespace MlxAffineDefinition

variable {bits : Nat} {parameter : LogicalParameter}

theorem checkComponentBytes_ok {component : StorageComponent}
    (h : checkComponentBytes bits parameter component = .ok ()) :
    ∃ ty, component.storageType = .scalar ty ∧ component.byteLength = component.shape.size * ty.sizeBytes := by
  unfold checkComponentBytes at h
  split at h
  case h_2 => cases h
  case h_1 ty hty =>
    obtain ⟨elementBytes, ⟨⟩, h⟩ := Fallible.bind_ok h
    obtain ⟨expected, hexpected, h⟩ := Fallible.bind_ok h
    obtain ⟨actual, hactual, h⟩ := Fallible.bind_ok h
    split at h
    case isTrue => cases h
    case isFalse hfits =>
      obtain rfl : actual = expected := by simpa using hfits
      refine ⟨ty, hty, ?_⟩
      rw [← elementBytes_ok (orOverflow_ok hexpected)]
      exact (checkedSum_ok (orOverflow_ok hactual)).symm

/-- An accepted parameter: the bytes of every component fill its shape. -/
theorem validate_ok (h : validate bits parameter = .ok ()) : ∀ component ∈ parameter.components,
    ∃ ty, component.storageType = .scalar ty ∧ component.byteLength = component.shape.size * ty.sizeBytes := by
  unfold validate at h
  split at h
  case h_2 => cases h
  case h_1 q hencoding =>
    split at h
    case isFalse => cases h
    case isTrue =>
      simp only [validateComponents] at h
      split at h
      case h_2 => cases h
      case h_1 hcomponents =>
        obtain ⟨-, h⟩ := Fallible.ite_throw_ok h
        obtain ⟨-, h⟩ := Fallible.ite_throw_ok h
        obtain ⟨⟨⟩, -, h⟩ := Fallible.bind_ok h
        rw [hcomponents]
        exact fun component hcomponent => checkComponentBytes_ok (Fallible.forM_ok h component hcomponent)

end MlxAffineDefinition

end Dyninfer
