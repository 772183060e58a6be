/-
The pool of planes and its references, call by call: configuring, allocating,
giving back and clearing it keep `Kept`, whatever fails on the way. `Holds`
follows a program with the fields it has reached and the references that are
still to be given back; the rules for what a program begins with come first.
-/
import Dyninfer.Runtime.PoolViews

namespace Dyninfer

open Effect

namespace PagedFields

/-- The bytes of a plane of the pool. -/
def planeBytes (f : PagedFields) : Nat :=
  f.config.kvHeadCount * (f.kvPageCount * f.config.pageSize) * f.config.headDim * f.config.elementByteCount

/-- The views that a session keeps beside the planes. -/
def scratch (f : PagedFields) : List BufferView :=
  f.pagedTokens.toList ++ (f.pagedLast.toList ++ (f.pagedStartPos.toList ++ f.pagedLogits.toList)) ++
    ((f.callPagedPrefill.inputs ++ f.callPagedPrefill.outputs) ++
      (f.callPagedDecode.inputs ++ f.callPagedDecode.outputs))

/-- All that a session keeps. -/
def slots (f : PagedFields) : List BufferView := f.kvK.filterMap id ++ f.kvV.filterMap id ++ f.scratch

end PagedFields

namespace KvSession

/-! ## What a session holds -/

/-- The fields are `f`, `refs` is what is left to give back, and no size has wrapped. -/
def Holds (refs : List HalRef) (f : PagedFields) (s : KvSession) : Prop :=
  s.fields = f ∧ s.hal.refs.Owns refs ∧ s.hal.wrapped = false

variable {α : Type} {refs refs' : List HalRef} {f : PagedFields} {E : KvSession → Prop} {Q : α → KvSession → Prop}

theorem Holds.perm {s : KvSession} (h : Holds refs f s) (hperm : refs.Perm refs') : Holds refs' f s :=
  ⟨h.1, h.2.1.perm hperm, h.2.2⟩

theorem perm_triple {x : KvM α} (hperm : refs.Perm refs') (h : Triple (Holds refs' f) x Q E) : Triple (Holds refs f) x Q E :=
  h.conseq (fun _ hs => hs.perm hperm) (fun _ _ h => h) fun _ h => h

/-! The rules for what a program begins with. -/

theorem getFields_bind {k : PagedFields → KvM α} (h : Triple (Holds refs f) (k f) Q E) :
    Triple (Holds refs f) (getFields >>= k) Q E := by
  intro s hs
  have hk := h s hs
  rwa [← hs.1] at hk

theorem modifyFields_bind {g : PagedFields → PagedFields} {k : Unit → KvM α}
    (h : Triple (Holds refs (g f)) (k ()) Q E) : Triple (Holds refs f) (modifyFields g >>= k) Q E :=
  fun s hs => h { s with fields := g s.fields } ⟨congrArg g hs.1, hs.2⟩

theorem modifyFields_triple {g : PagedFields → PagedFields} :
    Triple (Holds refs f) (modifyFields g) (fun _ => Holds refs (g f)) E :=
  fun _ hs => ⟨congrArg g hs.1, hs.2⟩

theorem fails_bind {k : Bool → KvM α} (h : ∀ b, Triple (Holds refs f) (k b) Q E) :
    Triple (Holds refs f) (fails >>= k) Q E :=
  fun s hs => h (s.hal.faults.headD false) { s with hal := { s.hal with faults := s.hal.faults.tail } } hs

theorem attempt_triple {message : String} (herr : ∀ s, Holds refs f s → E s) :
    Triple (Holds refs f) (attempt message) (fun _ => Holds refs f) E :=
  fails_bind fun _ => Triple.require (fun _ _ h => h) fun s _ h => herr s h

theorem attempt_bind {message : String} {k : Unit → KvM α} (herr : ∀ s, Holds refs f s → E s)
    (h : Triple (Holds refs f) (k ()) Q E) : Triple (Holds refs f) (attempt message >>= k) Q E :=
  (attempt_triple herr).bind fun _ => h

theorem retain_triple {r : HalRef} : Triple (Holds refs f) (retain r) (fun _ => Holds (r :: refs) f) E :=
  fun _ hs => ⟨hs.1, hs.2.1.retain, hs.2.2⟩

theorem release_triple {r : HalRef} : Triple (Holds (r :: refs) f) (release r) (fun _ => Holds refs f) E :=
  fun _ hs => ⟨hs.1, hs.2.1.release, hs.2.2⟩

theorem mulSize_bind {a b : Nat} {k : Nat → KvM α} (hab : a * b ≤ sizeMax)
    (h : Triple (Holds refs f) (k (a * b)) Q E) : Triple (Holds refs f) (mulSize a b >>= k) Q E := by
  have hmod : a * b % 2 ^ 64 = a * b := Nat.mod_eq_of_lt (Nat.lt_of_le_of_lt hab (by decide))
  have hwrap : decide (sizeMax < a * b) = false := decide_eq_false (Nat.not_lt.mpr hab)
  have hk : Triple (Holds refs f) (k (a * b % 2 ^ 64)) Q E := by rwa [hmod]
  exact fun s hs => hk { s with hal := { s.hal with wrapped := s.hal.wrapped || decide (sizeMax < a * b) } }
    ⟨hs.1, hs.2.1, by simp [hs.2.2, hwrap]⟩

theorem nextHandle_bind {k : Nat → KvM α} (h : ∀ n, Triple (Holds refs f) (k n) Q E) :
    Triple (Holds refs f) (nextHandle >>= k) Q E :=
  fun s hs => h s.hal.nextHandle { s with hal := { s.hal with nextHandle := s.hal.nextHandle + 1 } } hs

theorem require_bind {c : Bool} {message : String} {k : Unit → KvM α} (herr : ∀ s, Holds refs f s → E s)
    (h : c = true → Triple (Holds refs f) (k ()) Q E) : Triple (Holds refs f) (require c message >>= k) Q E :=
  Triple.guard h herr

/-! ## Views -/

/-- The references to views. -/
def viewRefs (views : List BufferView) : List HalRef := views.map .view

@[simp] theorem viewRefs_nil : viewRefs [] = [] := rfl

@[simp] theorem viewRefs_cons (v : BufferView) (views : List BufferView) :
    viewRefs (v :: views) = .view v :: viewRefs views := rfl

@[simp] theorem viewRefs_append (views views' : List BufferView) :
    viewRefs (views ++ views') = viewRefs views ++ viewRefs views' := List.map_append

theorem releaseView_triple (view : Option BufferView) :
    Triple (Holds (viewRefs view.toList ++ refs) f) (releaseView view) (fun _ => Holds refs f) E := by
  cases view with
  | none => exact Triple.pure fun _ h => h
  | some view => exact release_triple

theorem releaseViews_triple (views : List BufferView) :
    Triple (Holds (viewRefs views ++ refs) f) (releaseViews views) (fun _ => Holds refs f) E := by
  induction views with
  | nil => exact Triple.pure fun _ h => h
  | cons view views ih => exact release_triple.bind fun _ => ih

theorem retainViews_triple (views : List BufferView) :
    Triple (Holds refs f) (retainViews views) (fun _ => Holds (viewRefs views ++ refs) f) E := by
  induction views generalizing refs with
  | nil => exact Triple.pure fun _ h => h
  | cons view views ih =>
    refine retain_triple.bind fun _ => ih.conseq (fun _ h => h) (fun _ s h => h.perm ?_) fun _ h => h
    exact List.perm_middle

/-- A view of some size, with its reference. -/
def NewView (byteLength : Nat) (refs : List HalRef) (f : PagedFields) (view : BufferView) (s : KvSession) : Prop :=
  view.byteLength = byteLength ∧ Holds (.view view :: refs) f s

theorem newView_triple (buffer byteLength : Nat) :
    Triple (Holds refs f) (newView buffer byteLength) (NewView byteLength refs f) E :=
  nextHandle_bind fun _ => retain_triple.bind fun _ => Triple.pure fun _ h => ⟨rfl, h⟩

theorem allocateBufferCopy_triple (byteLength : Nat) :
    Triple (Holds refs f) (allocateBufferCopy byteLength) (NewView byteLength refs f) (Holds refs f) :=
  attempt_bind (fun _ h => h) <| nextHandle_bind fun _ => newView_triple _ _

theorem zeroDeviceBuffer_triple (byteLength : Nat) (herr : ∀ s, Holds refs f s → E s) :
    Triple (Holds refs f) (zeroDeviceBuffer byteLength) (fun _ => Holds refs f) E := by
  unfold zeroDeviceBuffer
  split
  · exact Triple.pure fun _ h => h
  · exact attempt_triple herr

theorem allocateFloatTensor_triple {elementCount elementByteCount : Nat} (h : elementCount * elementByteCount ≤ sizeMax) :
    Triple (Holds refs f) (allocateFloatTensor elementCount elementByteCount)
      (NewView (elementCount * elementByteCount) refs f) (Holds refs f) :=
  mulSize_bind h (allocateBufferCopy_triple _)

theorem allocateEmptyFloatTensor_triple {elementCount elementByteCount : Nat}
    (h : elementCount * elementByteCount ≤ sizeMax) :
    Triple (Holds refs f) (allocateEmptyFloatTensor elementCount elementByteCount)
      (NewView (elementCount * elementByteCount) refs f) (Holds refs f) := by
  refine mulSize_bind h <| require_bind (fun _ h => h) fun _ => attempt_bind (fun _ h => h) <|
    nextHandle_bind fun buffer => retain_triple.bind fun _ => ?_
  have hgive : ∀ {E : KvSession → Prop},
      Triple (Holds (.buffer buffer :: refs) f) (release (.buffer buffer)) (fun _ => Holds refs f) E := release_triple
  refine ((zeroDeviceBuffer_triple _ fun _ h => h).onError hgive).bind fun _ =>
    ((attempt_triple fun _ h => h).onError hgive).bind fun _ => (newView_triple _ _).bind fun view => ?_
  refine Triple.assume fun hview => perm_triple (List.Perm.swap _ _ _) <| release_triple.bind fun _ =>
    Triple.pure fun _ h => ⟨hview, h⟩

/-! ## Layers -/

/-- `f` with other arrays. -/
def withPlanes (f : PagedFields) (kvK kvV : List (Option BufferView)) : PagedFields := { f with kvK, kvV }

/-- An array whose first entries are views, and the others NULL. -/
def entries (views : List BufferView) (nulls : Nat) : List (Option BufferView) :=
  views.map some ++ List.replicate nulls none

theorem entries_nil (nulls : Nat) : entries [] nulls = List.replicate nulls none := rfl

theorem getD_length {γ : Type} (xs ys : List γ) (a d : γ) : (xs ++ a :: ys).getD xs.length d = a := by simp

theorem set_length {γ : Type} (xs ys : List γ) (a b : γ) : (xs ++ a :: ys).set xs.length b = xs ++ b :: ys := by simp

theorem exists_append_singleton {γ : Type} {xs : List γ} {n : Nat} (h : xs.length = n + 1) :
    ∃ ys a, xs = ys ++ [a] ∧ ys.length = n := by
  refine ⟨xs.dropLast, xs.getLast (List.ne_nil_of_length_eq_add_one h), (List.dropLast_append_getLast _).symm, ?_⟩
  rw [List.length_dropLast, h, Nat.add_sub_cancel]

theorem releaseLayer_triple {beforeK afterK beforeV afterV : List (Option BufferView)} {k v : BufferView} {layer : Nat}
    (hK : beforeK.length = layer) (hV : beforeV.length = layer) :
    Triple (Holds (.view k :: .view v :: refs) (withPlanes f (beforeK ++ some k :: afterK) (beforeV ++ some v :: afterV)))
      (releaseLayer layer)
      (fun _ => Holds refs (withPlanes f (beforeK ++ none :: afterK) (beforeV ++ none :: afterV))) E := by
  have hgetK : (withPlanes f (beforeK ++ some k :: afterK) (beforeV ++ some v :: afterV)).kvK.getD layer none = some k :=
    hK ▸ getD_length _ _ _ _
  have hgetV : (withPlanes f (beforeK ++ some k :: afterK) (beforeV ++ some v :: afterV)).kvV.getD layer none = some v :=
    hV ▸ getD_length _ _ _ _
  refine getFields_bind ?_
  rw [hgetK, hgetV]
  refine release_triple.bind fun _ => modifyFields_bind <| release_triple.bind fun _ => ?_
  have hset : (withPlanes f (beforeK ++ none :: afterK) (beforeV ++ none :: afterV)) =
      ((withPlanes f (beforeK ++ some k :: afterK) (beforeV ++ some v :: afterV)).setK layer none).setV layer none := by
    unfold withPlanes PagedFields.setK PagedFields.setV
    simp only
    rw [← hK, set_length, hK, ← hV, set_length]
  rw [hset]
  exact modifyFields_triple

theorem releaseLayers_triple {ks vs : List BufferView} {afterK afterV : List (Option BufferView)} {n : Nat}
    (hks : ks.length = n) (hvs : vs.length = n) :
    Triple (Holds (viewRefs ks ++ viewRefs vs ++ refs) (withPlanes f (ks.map some ++ afterK) (vs.map some ++ afterV)))
      (releaseLayers n)
      (fun _ => Holds refs (withPlanes f (List.replicate n none ++ afterK) (List.replicate n none ++ afterV))) E := by
  induction n generalizing ks vs afterK afterV refs with
  | zero =>
    cases List.length_eq_zero_iff.mp hks
    cases List.length_eq_zero_iff.mp hvs
    exact Triple.pure fun _ h => h
  | succ n ih =>
    obtain ⟨ks, k, rfl, hks'⟩ := exists_append_singleton hks
    obtain ⟨vs, v, rfl, hvs'⟩ := exists_append_singleton hvs
    have hperm : (viewRefs (ks ++ [k]) ++ viewRefs (vs ++ [v]) ++ refs).Perm
        (viewRefs ks ++ viewRefs vs ++ .view k :: .view v :: refs) := by
      rw [List.perm_iff_count]
      intro r
      simp only [viewRefs_append, viewRefs_cons, viewRefs_nil, List.count_append, List.count_cons, List.count_nil]
      omega
    refine perm_triple hperm ?_
    rw [List.map_append, List.map_append, List.append_assoc (ks.map some), List.append_assoc (vs.map some)]
    refine (ih hks' hvs').bind fun _ => ?_
    rw [List.replicate_succ', List.append_assoc, List.append_assoc]
    exact releaseLayer_triple List.length_replicate List.length_replicate

/-- Planes of one size. -/
def Sized (byteLength : Nat) (views : List BufferView) : Prop := ∀ v ∈ views, v.byteLength = byteLength

theorem allocateLayer_triple (zeros : Bool) {planeElems elementByteCount : Nat}
    (h : planeElems * elementByteCount ≤ sizeMax) :
    Triple (Holds refs f) (allocateLayer zeros planeElems elementByteCount)
      (fun planes s => planes.1.byteLength = planeElems * elementByteCount ∧
        planes.2.byteLength = planeElems * elementByteCount ∧ Holds (.view planes.1 :: .view planes.2 :: refs) f s)
      (Holds refs f) := by
  have hallocate : ∀ {refs : List HalRef}, Triple (Holds refs f)
      ((if zeros then allocateFloatTensor else allocateEmptyFloatTensor) planeElems elementByteCount)
      (NewView (planeElems * elementByteCount) refs f) (Holds refs f) := by
    intro refs
    cases zeros with
    | true => exact allocateFloatTensor_triple h
    | false => exact allocateEmptyFloatTensor_triple h
  refine hallocate.bind fun k => Triple.assume fun hk => (hallocate.onError release_triple).bind fun v =>
    Triple.assume fun hv => Triple.pure fun s hs => ⟨hk, hv, hs.perm (List.Perm.swap _ _ _)⟩

/-- All the layers get planes, or the arrays are as they were. -/
theorem allocateLayers_triple (zeros : Bool) {planeElems elementByteCount : Nat} {nulls : Nat}
    (h : planeElems * elementByteCount ≤ sizeMax) (htwo : planeElems * elementByteCount * 2 ≤ sizeMax) (n : Nat) :
    Triple (Holds refs (withPlanes f (entries [] (n + nulls)) (entries [] (n + nulls))))
      (allocateLayers zeros planeElems elementByteCount (planeElems * elementByteCount) n)
      (fun _ s => ∃ ks vs, ks.length = n ∧ vs.length = n ∧ Sized (planeElems * elementByteCount) ks ∧
        Sized (planeElems * elementByteCount) vs ∧
        Holds (viewRefs ks ++ viewRefs vs ++ refs) (withPlanes f (entries ks nulls) (entries vs nulls)) s)
      (Holds refs (withPlanes f (entries [] (n + nulls)) (entries [] (n + nulls)))) := by
  induction n generalizing nulls with
  | zero => exact Triple.pure fun s hs => ⟨[], [], rfl, rfl, nofun, nofun, by simpa using hs⟩
  | succ n ih =>
    have hsplit : n + 1 + nulls = n + (nulls + 1) := by omega
    rw [hsplit]
    refine ih.bind fun _ => Triple.exists fun ks => Triple.exists fun vs => Triple.assume fun hks =>
      Triple.assume fun hvs => Triple.assume fun hsizedK => Triple.assume fun hsizedV => ?_
    have hcleanup : Triple
        (Holds (viewRefs ks ++ viewRefs vs ++ refs) (withPlanes f (entries ks (nulls + 1)) (entries vs (nulls + 1))))
        (do
          releaseLayers n
          let _ ← mulSize (planeElems * elementByteCount) 2)
        (fun _ => Holds refs (withPlanes f (entries [] (n + (nulls + 1))) (entries [] (n + (nulls + 1)))))
        (Holds refs (withPlanes f (entries [] (n + (nulls + 1))) (entries [] (n + (nulls + 1))))) := by
      refine (releaseLayers_triple hks hvs).bind fun _ => mulSize_bind htwo ?_
      have hnulls : entries [] (n + (nulls + 1)) = List.replicate n none ++ List.replicate (nulls + 1) none :=
        List.replicate_append_replicate.symm
      rw [hnulls]
      exact Triple.pure fun _ h => h
    refine ((allocateLayer_triple zeros h).onError hcleanup).bind fun planes => ?_
    refine Triple.assume fun hk => Triple.assume fun hv => modifyFields_bind ?_
    have hset : ∀ {views : List BufferView} (view : BufferView), views.length = n →
        (entries views (nulls + 1)).set n (some view) = entries (views ++ [view]) nulls := by
      intro views view hviews
      unfold entries
      rw [List.replicate_succ, List.map_append, List.append_assoc, ← hviews]
      have hlength : views.length = (views.map some).length := (List.length_map _).symm
      rw [hlength]
      exact set_length _ _ _ _
    refine (modifyFields_triple (E := _)).conseq (fun _ h => h) (fun _ s hs => ?_) fun _ h => h
    refine ⟨ks ++ [planes.1], vs ++ [planes.2], by simp [hks], by simp [hvs], ?_, ?_, ?_⟩
    · simpa [Sized, or_imp, forall_and] using ⟨hsizedK, hk⟩
    · simpa [Sized, or_imp, forall_and] using ⟨hsizedV, hv⟩
    · have hfields : withPlanes f (entries (ks ++ [planes.1]) nulls) (entries (vs ++ [planes.2]) nulls) =
          ((withPlanes f (entries ks (nulls + 1)) (entries vs (nulls + 1))).setK n (some planes.1)).setV n
            (some planes.2) := by
        unfold withPlanes PagedFields.setK PagedFields.setV
        simp only
        rw [hset _ hks, hset _ hvs]
      rw [hfields]
      refine hs.perm ?_
      rw [List.perm_iff_count]
      intro r
      simp only [viewRefs_append, viewRefs_cons, viewRefs_nil, List.count_append, List.count_cons, List.count_nil]
      omega

theorem zeroLayers_triple (n : Nat) : Triple (Holds refs f) (zeroLayers n) (fun _ => Holds refs f) (Holds refs f) := by
  induction n with
  | zero => exact Triple.pure fun _ h => h
  | succ n ih =>
    exact ih.bind fun _ => getFields_bind <| (zeroDeviceBuffer_triple _ fun _ h => h).bind fun _ =>
      zeroDeviceBuffer_triple _ fun _ h => h

/-! ## Between calls -/

/-- The layer arrays hold the planes of `n` layers. -/
def HoldsPlanes (f : PagedFields) (ks vs : List BufferView) : Prop :=
  ∃ nulls, f.kvK = entries ks nulls ∧ f.kvV = entries vs nulls ∧ ks.length = f.kvLayerN ∧ vs.length = f.kvLayerN ∧
    f.kvLayerN + nulls = f.config.layerCount ∧ Sized f.planeBytes ks ∧ Sized f.planeBytes vs

/-- Between calls, the pool is whole or absent, and no call holds anything. -/
structure PoolOk (f : PagedFields) : Prop where
  planes : ∃ ks vs, HoldsPlanes f ks vs
  layers : f.kvLayerN = 0 ∨ f.kvLayerN = f.config.layerCount
  pages : f.kvPageCount = 0 ↔ f.kvLayerN = 0
  allocated : f.kvAllocatedBytes = if f.kvLayerN = 0 then 0 else 2 * f.config.layerCount * f.planeBytes
  calls : ∀ decode, (f.call decode).inputs = [] ∧ (f.call decode).outputs = []

/-- What the calls on a session keep: its references are those of its slots. -/
def Kept (s : KvSession) : Prop := PoolOk s.fields ∧ Holds (viewRefs s.fields.slots) s.fields s

theorem Kept.of_holds {s : KvSession} (h : Holds refs f s) (hok : PoolOk f) (hperm : refs.Perm (viewRefs f.slots)) :
    Kept s := by
  obtain ⟨rfl, howns, hwrap⟩ := h
  exact ⟨hok, rfl, howns.perm hperm, hwrap⟩

/-- A program is followed from the fields it starts with. -/
theorem Kept.triple {x : KvM α} (h : ∀ f, PoolOk f → Triple (Holds (viewRefs f.slots) f) x Q E) : Triple Kept x Q E :=
  fun s hs => h s.fields hs.1 s hs.2

@[simp] theorem filterMap_entries (views : List BufferView) (nulls : Nat) :
    (entries views nulls).filterMap id = views := by
  unfold entries
  rw [List.filterMap_append, List.filterMap_map]
  simp

theorem HoldsPlanes.slots {ks vs : List BufferView} (h : HoldsPlanes f ks vs) :
    viewRefs f.slots = viewRefs ks ++ viewRefs vs ++ viewRefs f.scratch := by
  obtain ⟨nulls, hK, hV, -⟩ := h
  unfold PagedFields.slots
  rw [hK, hV, filterMap_entries, filterMap_entries, viewRefs_append, viewRefs_append]

theorem slots_of_empty {n m : Nat} (hK : f.kvK = entries [] n) (hV : f.kvV = entries [] m) : f.slots = f.scratch := by
  unfold PagedFields.slots
  rw [hK, hV, filterMap_entries, filterMap_entries, List.nil_append, List.nil_append]

/-- A session without a pool. -/
def emptied (f : PagedFields) : PagedFields :=
  withPlanes f.dropPool (entries [] f.config.layerCount) (entries [] f.config.layerCount)

theorem poolOk_of_empty (hcalls : ∀ decode, (f.call decode).inputs = [] ∧ (f.call decode).outputs = [])
    (hK : f.kvK = entries [] f.config.layerCount) (hV : f.kvV = entries [] f.config.layerCount) (hn : f.kvLayerN = 0)
    (hpages : f.kvPageCount = 0) (hbytes : f.kvAllocatedBytes = 0) : PoolOk f where
  planes := ⟨[], [], f.config.layerCount, hK, hV, hn.symm, hn.symm, by omega, nofun, nofun⟩
  layers := .inl hn
  pages := by simp [hn, hpages]
  allocated := by simp [hn, hbytes]
  calls := hcalls

theorem PoolOk.empty (hok : PoolOk f) (hzero : f.kvLayerN = 0) :
    f.kvK = entries [] f.config.layerCount ∧ f.kvV = entries [] f.config.layerCount := by
  obtain ⟨ks, vs, nulls, hK, hV, hks, hvs, hsum, -⟩ := hok.planes
  cases List.length_eq_zero_iff.mp (hks.trans hzero)
  cases List.length_eq_zero_iff.mp (hvs.trans hzero)
  rw [hzero, Nat.zero_add] at hsum
  rw [← hsum]
  exact ⟨hK, hV⟩

theorem kept_emptied (hok : PoolOk f) {s : KvSession} (h : Holds (viewRefs f.scratch) (emptied f) s) : Kept s := by
  refine Kept.of_holds h (poolOk_of_empty hok.calls rfl rfl rfl rfl rfl) ?_
  rw [slots_of_empty rfl rfl]
  exact List.Perm.refl _

/-- All planes are given back. -/
theorem releaseLayers_all {ks vs : List BufferView} (hplanes : HoldsPlanes f ks vs) :
    Triple (Holds (viewRefs ks ++ viewRefs vs ++ refs) f) (releaseLayers f.kvLayerN)
      (fun _ => Holds refs (withPlanes f (entries [] f.config.layerCount) (entries [] f.config.layerCount))) E := by
  obtain ⟨nulls, hK, hV, hks, hvs, hsum, -⟩ := hplanes
  have hf : withPlanes f (ks.map some ++ List.replicate nulls none) (vs.map some ++ List.replicate nulls none) = f := by
    unfold entries at hK hV
    rw [← hK, ← hV]
    rfl
  have hempty : entries [] f.config.layerCount = List.replicate f.kvLayerN none ++ List.replicate nulls none := by
    rw [entries_nil, List.replicate_append_replicate, hsum]
  have hrelease : Triple _ (releaseLayers f.kvLayerN) (fun _ => Holds refs (withPlanes f
      (List.replicate f.kvLayerN none ++ List.replicate nulls none)
      (List.replicate f.kvLayerN none ++ List.replicate nulls none))) E := releaseLayers_triple hks hvs
  rwa [hf, ← hempty] at hrelease

theorem releaseLayers_dropPool (hok : PoolOk f) {k : Unit → KvM α}
    (h : Triple (Holds (viewRefs f.scratch) (emptied f)) (k ()) Q E) :
    Triple (Holds (viewRefs f.slots) f) (do
      releaseLayers f.kvLayerN
      modifyFields (·.dropPool)
      k ()) Q E := by
  obtain ⟨ks, vs, hplanes⟩ := hok.planes
  rw [hplanes.slots]
  exact (releaseLayers_all hplanes).bind fun _ => modifyFields_bind h

/-! ## The calls on the pool -/

theorem configurePagedKv_kept (config : KvPoolConfig) : Triple Kept (configurePagedKv config) (fun _ => Kept) Kept := by
  refine Kept.triple fun f hok => ?_
  have hkeep : ∀ s, Holds (viewRefs f.slots) f s → Kept s := fun s h => .of_holds h hok (List.Perm.refl _)
  refine getFields_bind <| require_bind hkeep fun _ => require_bind hkeep fun hn => require_bind hkeep fun _ =>
    attempt_bind hkeep ?_
  refine modifyFields_triple.conseq (fun _ h => h) (fun _ s hs => ?_) fun _ h => h
  have hzero : f.kvLayerN = 0 := by simpa using hn
  refine Kept.of_holds hs (poolOk_of_empty hok.calls rfl rfl hzero (hok.pages.mpr hzero) ?_) ?_
  · rw [show _ = f.kvAllocatedBytes from rfl, hok.allocated, if_pos hzero]
  · obtain ⟨hK, hV⟩ := hok.empty hzero
    rw [slots_of_empty hK hV, slots_of_empty rfl rfl]
    exact List.Perm.refl _

theorem mulElems_triple {planeElems factor : Nat} :
    Triple (Holds refs f) (mulElems planeElems factor) (fun elems s => elems = planeElems * factor ∧ Holds refs f s)
      (Holds refs f) := by
  refine require_bind (fun _ h => h) fun hguard => ?_
  simp only [Bool.and_eq_true, decide_eq_true_eq] at hguard
  exact mulSize_bind (Nat.mul_le_of_le_div _ _ _ hguard.2) (Triple.pure fun _ h => ⟨rfl, h⟩)

/-- The elements and bytes of a plane are what they should be, and so is the size of the pool. -/
theorem planeSize_triple (c : KvPoolConfig) (pageCount : Nat) :
    Triple (Holds refs f) (planeSize c pageCount)
      (fun size s => size.1 = c.kvHeadCount * (pageCount * c.pageSize) * c.headDim ∧
        size.2 = size.1 * c.elementByteCount ∧ c.layerCount * 2 * size.2 ≤ sizeMax ∧ Holds refs f s)
      (Holds refs f) := by
  refine require_bind (fun _ h => h) fun hpages => ?_
  simp only [Bool.and_eq_true, decide_eq_true_eq] at hpages
  refine mulSize_bind (Nat.mul_le_of_le_div _ _ _ hpages.2) <| mulElems_triple.bind fun elems => Triple.assume ?_
  rintro rfl
  refine mulElems_triple.bind fun elems => Triple.assume ?_
  rintro rfl
  refine require_bind (fun _ h => h) fun hbytes => mulSize_bind (Nat.mul_le_of_le_div _ _ _ (of_decide_eq_true hbytes)) <|
    require_bind (fun _ h => h) fun hlayers => mulSize_bind (Nat.mul_le_of_le_div _ _ _ (of_decide_eq_true hlayers)) <|
    require_bind (fun _ h => h) fun hpool => Triple.pure fun _ h => ?_
  exact ⟨rfl, rfl, Nat.mul_le_of_le_div _ _ _ (of_decide_eq_true hpool), h⟩

theorem unstaged_triple (planeBytes : Nat) : Triple (Holds refs f) (unstaged planeBytes) (fun _ => Holds refs f) E := by
  unfold unstaged
  split
  · exact fails_bind fun _ => Triple.pure fun _ h => h
  · exact Triple.pure fun _ h => h

theorem ensureKvPages_kept (pageCount : Nat) : Triple Kept (ensureKvPages pageCount) (fun _ => Kept) Kept := by
  refine Kept.triple fun f hok => ?_
  have hkeep : ∀ s, Holds (viewRefs f.slots) f s → Kept s := fun s h => .of_holds h hok (List.Perm.refl _)
  refine getFields_bind <| require_bind hkeep fun _ => require_bind hkeep fun hpages => ?_
  have hpos : pageCount ≠ 0 := by simpa using hpages
  split
  · exact Triple.pure hkeep
  -- From here on the pool is gone; what fails leaves it so.
  have hgone : ∀ s, Holds (viewRefs f.scratch) (emptied f) s → Kept s := fun s h => kept_emptied hok h
  refine releaseLayers_dropPool hok (k := fun _ => _) ?_
  refine require_bind hgone fun hlayers => ?_
  have hlayers : f.config.layerCount ≠ 0 := by simpa using hlayers
  refine ((planeSize_triple f.config pageCount).conseq (fun _ h => h) (fun _ _ h => h) hgone).bind fun size => ?_
  refine Triple.assume fun helems => Triple.assume fun hbytes => Triple.assume fun hpool => ?_
  have htwo : size.2 * 2 ≤ sizeMax := by
    refine Nat.le_trans ?_ hpool
    rw [Nat.mul_comm]
    exact Nat.mul_le_mul_right _ (by omega)
  refine (unstaged_triple size.2).bind fun unstaged => ?_
  have hplane : size.1 * f.config.elementByteCount ≤ sizeMax := by rw [← hbytes]; omega
  have hallocate := @allocateLayers_triple (viewRefs f.scratch) f.dropPool (!unstaged) _ _ 0 hplane (hbytes ▸ htwo)
    f.config.layerCount
  rw [← hbytes] at hallocate
  refine (hallocate.conseq (fun _ h => h) (fun _ _ h => h) hgone).bind fun _ => Triple.exists fun ks => Triple.exists fun vs =>
    Triple.assume fun hks => Triple.assume fun hvs => Triple.assume fun hsizedK => Triple.assume fun hsizedV => ?_
  have hbytes2 : size.2 * 2 * f.config.layerCount ≤ sizeMax := by
    rwa [Nat.mul_comm, Nat.mul_comm size.2, ← Nat.mul_assoc]
  refine mulSize_bind htwo <| mulSize_bind hbytes2 <| modifyFields_triple.conseq (fun _ h => h) (fun _ s hs => ?_) fun _ h => h
  have hsize : size.2 = f.config.kvHeadCount * (pageCount * f.config.pageSize) * f.config.headDim *
      f.config.elementByteCount := by rw [hbytes, helems]
  refine Kept.of_holds hs
    { planes := ⟨ks, vs, 0, rfl, rfl, hks, hvs, rfl, hsize ▸ hsizedK, hsize ▸ hsizedV⟩
      layers := .inr rfl
      pages := by simp [hpos, hlayers]
      allocated := ?_
      calls := hok.calls } ?_
  · show size.2 * 2 * f.config.layerCount = if f.config.layerCount = 0 then 0 else _
    rw [if_neg hlayers]
    show size.2 * 2 * f.config.layerCount = 2 * f.config.layerCount * _
    rw [hsize, Nat.mul_comm, Nat.mul_comm _ 2, ← Nat.mul_assoc, Nat.mul_comm f.config.layerCount]
    rfl
  · unfold PagedFields.slots withPlanes
    simp only [filterMap_entries, viewRefs_append]
    exact List.Perm.refl _

theorem resetPagedKv_kept : Triple Kept resetPagedKv (fun _ => Kept) Kept := by
  refine Kept.triple fun f hok => getFields_bind ?_
  have hkeep : ∀ s, Holds (viewRefs f.slots) f s → Kept s := fun s h => .of_holds h hok (List.Perm.refl _)
  split
  · next hzero =>
    obtain ⟨hK, hV⟩ := hok.empty hzero
    refine modifyFields_triple.conseq (fun _ h => h) (fun _ s hs => ?_) fun _ h => h
    exact Kept.of_holds hs (poolOk_of_empty hok.calls hK hV rfl rfl rfl) (List.Perm.refl _)
  · refine ((zeroLayers_triple _).onError ?_).conseq (fun _ h => h) (fun _ => hkeep) fun _ h => h
    have hdrop := releaseLayers_dropPool (k := fun _ => pure ()) (Q := fun _ => Kept) (E := Kept) hok
      (Triple.pure fun s h => kept_emptied hok h)
    exact hdrop

end KvSession

end Dyninfer
