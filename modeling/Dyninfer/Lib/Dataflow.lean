/-
Nodes that read and write named values, run in the order they are listed. The
list is `Ordered` when every node reads only what an earlier node wrote, and
that is exactly when running it, with any meaning given to the nodes, never
looks up a value that is not there yet.
-/
import Mathlib.Data.List.Nodup

namespace Dataflow

variable {ν ι V : Type}

section order

variable (reads writes : ν → List ι)

/-- Every node reads what is known at the start or what an earlier node wrote. -/
def OrderedFrom (known : ι → Prop) (nodes : List ν) : Prop :=
  ∀ before node after, nodes = before ++ node :: after →
    ∀ i ∈ reads node, known i ∨ i ∈ before.flatMap writes

/-- Every node reads what an earlier node wrote. -/
def Ordered (nodes : List ν) : Prop :=
  ∀ before node after, nodes = before ++ node :: after → ∀ i ∈ reads node, i ∈ before.flatMap writes

/-- No node reads what it or a later node writes. -/
def ReadsBack (nodes : List ν) : Prop :=
  ∃ before node after, nodes = before ++ node :: after ∧ ∃ i ∈ reads node, i ∈ (node :: after).flatMap writes

end order

section order

variable {reads writes : ν → List ι} {known : ι → Prop} {nodes : List ν} {node : ν}

theorem orderedFrom_false : OrderedFrom reads writes (fun _ => False) nodes ↔ Ordered reads writes nodes := by
  simp only [OrderedFrom, Ordered, false_or]

theorem orderedFrom_nil : OrderedFrom reads writes known [] := by
  intro before node after h
  simp at h

theorem orderedFrom_cons : OrderedFrom reads writes known (node :: nodes) ↔
    (∀ i ∈ reads node, known i) ∧ OrderedFrom reads writes (fun i => known i ∨ i ∈ writes node) nodes := by
  constructor
  · intro h
    refine ⟨fun i hi => ?_, fun before n after heq i hi => ?_⟩
    · simpa using h [] node nodes rfl i hi
    · have hi := h (node :: before) n after (by rw [heq, List.cons_append]) i hi
      simpa only [List.flatMap_cons, List.mem_append, or_assoc] using hi
  · rintro ⟨hnode, hnodes⟩ before n after heq i hi
    cases before with
    | nil =>
      rw [List.nil_append, List.cons.injEq] at heq
      exact .inl (hnode i (heq.1 ▸ hi))
    | cons m before =>
      rw [List.cons_append, List.cons.injEq] at heq
      have hi := hnodes before n after heq.2 i hi
      rw [← heq.1]
      simpa only [List.flatMap_cons, List.mem_append, or_assoc] using hi

theorem ordered_nil : Ordered reads writes [] := orderedFrom_false.mp orderedFrom_nil

/-- One more node keeps the order when it reads what is written already. -/
theorem Ordered.concat (h : Ordered reads writes nodes) (hnode : ∀ i ∈ reads node, i ∈ nodes.flatMap writes) :
    Ordered reads writes (nodes ++ [node]) := by
  intro before n after heq i hi
  rcases List.eq_nil_or_concat after with rfl | ⟨after, last, rfl⟩
  · obtain ⟨rfl, hlast⟩ := List.append_inj' heq rfl
    rw [List.cons.injEq] at hlast
    exact hnode i (hlast.1 ▸ hi)
  · rw [List.concat_eq_append, ← List.cons_append, ← List.append_assoc] at heq
    exact h before n after (List.append_inj' heq rfl).1 i hi

/-- Where every value has one producer and every value read is produced, the nodes are in order unless
one of them reads back. -/
theorem ordered_iff (hreads : ∀ node ∈ nodes, ∀ i ∈ reads node, i ∈ nodes.flatMap writes)
    (hwrites : (nodes.flatMap writes).Nodup) : Ordered reads writes nodes ↔ ¬ ReadsBack reads writes nodes := by
  constructor
  · rintro h ⟨before, node, after, heq, i, hi, hback⟩
    rw [heq, List.flatMap_append] at hwrites
    exact (List.nodup_append.mp hwrites).2.2 i (h before node after heq i hi) i hback rfl
  · intro h before node after heq i hi
    have hmem := hreads node (heq ▸ List.mem_append_right _ List.mem_cons_self) i hi
    rw [heq, List.flatMap_append, List.mem_append] at hmem
    exact hmem.resolve_right fun hback => h ⟨before, node, after, heq, i, hi, hback⟩

end order

/-! ## Running the nodes -/

section evaluate

variable [DecidableEq ι] (reads writes : ν → List ι) (denote : ν → List V → Nat → V)

/-- The values `give` at the names `ids`. -/
def put (ids : List ι) (give : Nat → V) (store : ι → Option V) : ι → Option V :=
  fun i => if i ∈ ids then some (give (ids.idxOf i)) else store i

/-- Run one node: it needs every value it reads. -/
def step (store : ι → Option V) (node : ν) : Option (ι → Option V) := do
  let args ← (reads node).mapM store
  return put (writes node) (denote node args) store

/-- Run the nodes in the order they are listed. -/
def evaluate (store : ι → Option V) (nodes : List ν) : Option (ι → Option V) :=
  nodes.foldlM (step reads writes denote) store

variable {reads writes} {denote}

omit [DecidableEq ι] in
theorem mapM_isSome_iff {store : ι → Option V} {ids : List ι} :
    (ids.mapM store).isSome ↔ ∀ i ∈ ids, (store i).isSome := by
  induction ids with
  | nil => simp
  | cons i ids ih =>
    rw [List.mapM_cons, List.forall_mem_cons, ← ih]
    cases store i with
    | none => simp
    | some v => cases ids.mapM store <;> simp

theorem put_isSome_iff {ids : List ι} {give : Nat → V} {store : ι → Option V} {i : ι} :
    (put ids give store i).isSome ↔ (store i).isSome ∨ i ∈ ids := by
  unfold put
  by_cases h : i ∈ ids <;> simp [h]

theorem evaluate_isSome_from {store : ι → Option V} {nodes : List ν} :
    (evaluate reads writes denote store nodes).isSome ↔
      OrderedFrom reads writes (fun i => (store i).isSome) nodes := by
  induction nodes generalizing store with
  | nil => simp [evaluate, orderedFrom_nil]
  | cons node nodes ih =>
    rw [orderedFrom_cons, evaluate, List.foldlM_cons, ← mapM_isSome_iff]
    cases hargs : (reads node).mapM store with
    | none => simp [step, hargs]
    | some args =>
      have hstep : step reads writes denote store node = some (put (writes node) (denote node args) store) := by
        simp [step, hargs]
      have hrest := @ih (put (writes node) (denote node args) store)
      simp only [put_isSome_iff] at hrest
      simpa [hstep, evaluate] using hrest

/-- **Running from nothing.** The nodes run to their end exactly when they are in order. -/
theorem evaluate_isSome_iff {nodes : List ν} :
    (evaluate reads writes denote (fun _ => none) nodes).isSome ↔ Ordered reads writes nodes := by
  rw [evaluate_isSome_from, ← orderedFrom_false]
  simp

end evaluate

end Dataflow
