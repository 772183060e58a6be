/-
Invocations of the paged module and runs of a session. Within an invocation the
call holds its inputs and outputs beside the session's own views (`Busy`); it is
reset whatever happened to it. A run of calls keeps the pool's invariant
whatever fails, given that the module's outputs are of the sizes of the planes
they are tied to.
-/
import Dyninfer.Runtime.PoolViewsFacts

namespace Dyninfer

open Effect

namespace PagedFields

variable (f : PagedFields) (decode : Bool) (call call' : CachedCall)

@[simp] theorem call_setCall : (f.setCall decode call).call decode = call := by cases decode <;> rfl
@[simp] theorem setCall_setCall : (f.setCall decode call).setCall decode call' = f.setCall decode call' := by
  cases decode <;> rfl
@[simp] theorem kvK_setCall : (f.setCall decode call).kvK = f.kvK := by cases decode <;> rfl
@[simp] theorem kvV_setCall : (f.setCall decode call).kvV = f.kvV := by cases decode <;> rfl
@[simp] theorem kvLayerN_setCall : (f.setCall decode call).kvLayerN = f.kvLayerN := by cases decode <;> rfl

theorem setK_setCall (layer : Nat) (view : Option BufferView) :
    (f.setCall decode call).setK layer view = (f.setK layer view).setCall decode call := by cases decode <;> rfl

theorem setV_setCall (layer : Nat) (view : Option BufferView) :
    (f.setCall decode call).setV layer view = (f.setV layer view).setCall decode call := by cases decode <;> rfl

/-- The scratch views alone. -/
def scalars : List BufferView :=
  f.pagedTokens.toList ++ (f.pagedLast.toList ++ (f.pagedStartPos.toList ++ f.pagedLogits.toList))

end PagedFields

namespace KvSession

variable {refs : List HalRef} {f : PagedFields} {E : KvSession → Prop} 

/-- The K and V outputs of a module are of the sizes of the planes it is given. -/
def Tied (exe : ViewModule) : Prop :=
  ∀ inputs handle i v w, inputs[planeInputs + i]? = some v → (exe inputs handle)[i + 1]? = some w →
    w.byteLength = v.byteLength

section invocation

variable (f : PagedFields) (decode : Bool) (nulls : Nat)

/-- Within an invocation: the planes, and what the call and `more` beside it hold. -/
def Busy (more : List HalRef) (ks vs ins outs : List BufferView) : KvSession → Prop :=
  Holds (more ++ (viewRefs ks ++ viewRefs vs ++ (viewRefs ins ++ viewRefs outs ++ viewRefs f.scalars)))
    ((withPlanes f (entries ks nulls) (entries vs nulls)).setCall decode { ready := true, inputs := ins, outputs := outs })

/-- Planes for all the layers of the pool. -/
def Whole (ks : List BufferView) : Prop := ks.length = f.kvLayerN ∧ Sized f.planeBytes ks

/-- Within an invocation, of which the next `m` outputs are planes. -/
def Adopting (m : Nat) (s : KvSession) : Prop :=
  ∃ ks vs ins outs, Whole f ks ∧ Whole f vs ∧ Sized f.planeBytes (outs.take m) ∧ Busy f decode nulls [] ks vs ins outs s

/-- Within an invocation. -/
def Running : KvSession → Prop := Adopting f decode nulls 0

variable {f decode nulls} {more : List HalRef} {ks vs ins outs : List BufferView}

theorem Busy.running {s : KvSession} (hks : Whole f ks) (hvs : Whole f vs) (h : Busy f decode nulls [] ks vs ins outs s) :
    Running f decode nulls s := ⟨ks, vs, ins, outs, hks, hvs, nofun, h⟩

theorem Adopting.running {m : Nat} {s : KvSession} (h : Adopting f decode nulls m s) : Running f decode nulls s := by
  obtain ⟨ks, vs, ins, outs, hks, hvs, -, hbusy⟩ := h
  exact hbusy.running hks hvs

/-- A reference moves between the local ones and those of the session. -/
theorem Busy.holds {s : KvSession} {refs' : List HalRef} (h : Busy f decode nulls more ks vs ins outs s)
    (hcount : ∀ r, (more ++ (viewRefs ks ++ viewRefs vs ++ (viewRefs ins ++ viewRefs outs ++ viewRefs f.scalars))).count r =
      refs'.count r) :
    Holds refs' ((withPlanes f (entries ks nulls) (entries vs nulls)).setCall decode
      { ready := true, inputs := ins, outputs := outs }) s :=
  h.perm (List.perm_iff_count.mpr hcount)

theorem pushInput_triple (hks : Whole f ks) (hvs : Whole f vs) (view : Option BufferView) :
    Triple (Busy f decode nulls [] ks vs ins outs) (pushInput decode view)
      (fun _ s => ∃ v, view = some v ∧ Busy f decode nulls [] ks vs (ins ++ [v]) outs s) (Running f decode nulls) := by
  have hrun : ∀ s, Busy f decode nulls [] ks vs ins outs s → Running f decode nulls s := fun s h => h.running hks hvs
  refine attempt_bind hrun ?_
  cases view with
  | none => exact Triple.throw hrun
  | some v =>
    refine retain_triple.bind fun _ => modifyFields_triple.conseq (fun _ h => h) (fun _ s hs => ⟨v, rfl, ?_⟩) fun _ h => h
    simp only [PagedFields.call_setCall, PagedFields.setCall_setCall] at hs
    refine hs.perm (List.perm_iff_count.mpr fun r => ?_)
    simp only [viewRefs_append, viewRefs_cons, viewRefs_nil, List.count_append, List.count_cons, List.count_nil]
    omega

theorem entries_getD {layer : Nat} (hlayer : layer < ks.length) : (entries ks nulls).getD layer none = some ks[layer] := by
  unfold entries
  rw [List.getD_eq_getElem?_getD, List.getElem?_append_left (by simpa using hlayer), List.getElem?_map,
    List.getElem?_eq_getElem hlayer]
  rfl

theorem pushLayers_triple (hks : Whole f ks) (hvs : Whole f vs) {n : Nat} (hn : n ≤ f.kvLayerN) :
    Triple (Busy f decode nulls [] ks vs ins outs) (pushLayers decode n)
      (fun _ s => ∃ planes, planes.length = 2 * n ∧ Sized f.planeBytes planes ∧
        Busy f decode nulls [] ks vs (ins ++ planes) outs s) (Running f decode nulls) := by
  induction n with
  | zero => exact Triple.pure fun s h => ⟨[], rfl, nofun, by simpa using h⟩
  | succ n ih =>
    refine (ih (by omega)).bind fun _ => Triple.exists fun planes => Triple.assume fun hplanes =>
      Triple.assume fun hsized => getFields_bind <| (pushInput_triple hks hvs _).bind fun _ =>
      Triple.exists fun k => Triple.assume fun hk => ?_
    refine (pushInput_triple hks hvs _).conseq (fun _ h => h) (fun _ s hs => ?_) fun _ h => h
    obtain ⟨v, hv, hbusy⟩ := hs
    have hget : ∀ {views : List BufferView} {view : BufferView}, Whole f views →
        (entries views nulls).getD n none = some view → view ∈ views := by
      intro views view hviews hget
      rw [entries_getD (by rw [hviews.1]; omega), Option.some_inj] at hget
      rw [← hget]
      exact List.getElem_mem _
    have hkmem : k ∈ ks := hget hks (by simpa [withPlanes] using hk)
    have hvmem : v ∈ vs := hget hvs (by simpa [withPlanes] using hv)
    refine ⟨planes ++ [k, v], by simp [hplanes]; omega, ?_, by simpa using hbusy⟩
    intro w hw
    rcases List.mem_append.mp hw with hw | hw
    · exact hsized w hw
    · rcases List.mem_cons.mp hw with rfl | hw
      · exact hks.2 _ hkmem
      · cases List.mem_singleton.mp hw
        exact hvs.2 _ hvmem

theorem popOutput_triple {E : KvSession → Prop}
    (herr : ∀ s, Busy f decode nulls more ks vs ins outs s → E s) :
    Triple (Busy f decode nulls more ks vs ins outs) (popOutput decode)
      (fun v s => ∃ rest, outs = v :: rest ∧ Busy f decode nulls (.view v :: more) ks vs ins rest s) E := by
  refine attempt_bind herr <| getFields_bind ?_
  rw [PagedFields.call_setCall]
  cases outs with
  | nil => exact Triple.throw herr
  | cons v rest =>
    refine modifyFields_bind <| Triple.pure fun s hs => ⟨rest, rfl, ?_⟩
    simp only [PagedFields.setCall_setCall] at hs
    refine hs.perm (List.perm_iff_count.mpr fun r => ?_)
    simp only [viewRefs_cons, List.cons_append, List.count_append, List.count_cons]
    omega

theorem readOutput_triple (hks : Whole f ks) (hvs : Whole f vs) (wanted : Bool) :
    Triple (Busy f decode nulls [] ks vs ins outs) (readOutput decode wanted)
      (fun _ s => ∃ v rest, outs = v :: rest ∧ Busy f decode nulls [] ks vs ins rest s) (Running f decode nulls) := by
  refine (popOutput_triple fun s h => h.running hks hvs).bind fun v => Triple.exists fun rest =>
    Triple.assume fun houts => ?_
  refine Triple.andFinally (?_ : Triple _ _ (fun _ => Busy f decode nulls [.view v] ks vs ins rest)
    (Busy f decode nulls [.view v] ks vs ins rest))
    (fun _ => release_triple.conseq (fun _ h => h) (fun _ s h => ⟨v, rest, houts, h⟩) fun _ h => h)
    (release_triple.conseq (fun _ h => h) (fun _ s h => Busy.running hks hvs h) fun _ h => h)
  split
  · exact attempt_triple fun _ h => h
  · exact Triple.pure fun _ h => h

theorem adoptTiedKvView_triple (stored out : BufferView) :
    Triple (Holds (.view stored :: .view out :: refs) f) (adoptTiedKvView (some stored) out)
      (fun r s => ∃ kept, r = some kept ∧ (kept = stored ∨ kept = out) ∧ Holds (.view kept :: refs) f s) E := by
  unfold adoptTiedKvView
  split
  · exact release_triple.bind fun _ => Triple.pure fun s h => ⟨out, rfl, .inr rfl, h⟩
  · exact perm_triple (List.Perm.swap _ _ _) <| release_triple.bind fun _ => Triple.pure fun s h => ⟨stored, rfl, .inl rfl, h⟩

theorem exists_layer {views : List BufferView} (hviews : Whole f views) {layer : Nat} (hlayer : layer < f.kvLayerN) :
    ∃ before view after, views = before ++ view :: after ∧ before.length = layer := by
  rw [← hviews.1] at hlayer
  refine ⟨views.take layer, views[layer], views.drop (layer + 1), ?_, by simp; omega⟩
  rw [← List.drop_eq_getElem_cons hlayer, List.take_append_drop]

theorem entries_cons (before after : List BufferView) (view : BufferView) :
    entries (before ++ view :: after) nulls = before.map some ++ some view :: entries after nulls := by
  simp [entries]

theorem set_entries (before after : List BufferView) (view view' : BufferView) :
    (entries (before ++ view :: after) nulls).set before.length (some view') =
      entries (before ++ view' :: after) nulls := by
  have hlength : before.length = (before.map some).length := (List.length_map _).symm
  rw [entries_cons, entries_cons, hlength, set_length]

theorem getD_entries (before after : List BufferView) (view : BufferView) :
    (entries (before ++ view :: after) nulls).getD before.length none = some view := by
  have hlength : before.length = (before.map some).length := (List.length_map _).symm
  rw [entries_cons, hlength, getD_length]

theorem Whole.replace {before after : List BufferView} {view view' : BufferView}
    (h : Whole f (before ++ view :: after)) (hview : view'.byteLength = f.planeBytes) :
    Whole f (before ++ view' :: after) := by
  refine ⟨by simpa using h.1, fun v hv => ?_⟩
  rcases List.mem_append.mp hv with hv | hv
  · exact h.2 v (List.mem_append_left _ hv)
  · rcases List.mem_cons.mp hv with rfl | hv
    · exact hview
    · exact h.2 v (List.mem_append_right _ (List.mem_cons_of_mem _ hv))

/-- The planes of a layer are replaced by the outputs, or stay. -/
theorem adoptLayer_triple {layer m : Nat} (hlayer : layer < f.kvLayerN) :
    Triple (Adopting f decode nulls (m + 2)) (adoptLayer decode layer) (fun _ => Adopting f decode nulls m)
      (Running f decode nulls) := by
  refine Triple.exists fun ks => Triple.exists fun vs => Triple.exists fun ins => Triple.exists fun outs =>
    Triple.assume fun hks => Triple.assume fun hvs => Triple.assume fun hsized => ?_
  refine (popOutput_triple fun s h => h.running hks hvs).bind fun k => Triple.exists fun rest => Triple.assume ?_
  rintro rfl
  refine ((popOutput_triple (E := Busy f decode nulls [.view k] ks vs ins rest) fun s h => h).onError
    (release_triple.conseq (fun _ h => h) (fun _ s h => Busy.running hks hvs h) fun _ h => h)).bind fun v =>
    Triple.exists fun rest => Triple.assume ?_
  rintro rfl
  have hk : k.byteLength = f.planeBytes := hsized k (by simp)
  have hv : v.byteLength = f.planeBytes := hsized v (by simp)
  obtain ⟨beforeK, storedK, afterK, rfl, hbeforeK⟩ := exists_layer hks hlayer
  obtain ⟨beforeV, storedV, afterV, rfl, hbeforeV⟩ := exists_layer hvs hlayer
  have hcount : ∀ r, ([HalRef.view v, .view k] ++ (viewRefs (beforeK ++ storedK :: afterK) ++
      viewRefs (beforeV ++ storedV :: afterV) ++ (viewRefs ins ++ viewRefs rest ++ viewRefs f.scalars))).count r =
      (HalRef.view storedK :: .view k :: (.view storedV :: .view v :: (viewRefs (beforeK ++ afterK) ++
        viewRefs (beforeV ++ afterV) ++ (viewRefs ins ++ viewRefs rest ++ viewRefs f.scalars)))).count r := by
    intro r
    simp only [viewRefs_append, viewRefs_cons, List.cons_append, List.nil_append, List.count_append, List.count_cons]
    omega
  refine Triple.conseq ?_ (fun s h => Busy.holds h hcount) (fun _ _ h => h) fun _ h => h
  · have hgetK : ((withPlanes f (entries (beforeK ++ storedK :: afterK) nulls)
        (entries (beforeV ++ storedV :: afterV) nulls)).setCall decode
        { ready := true, inputs := ins, outputs := rest }).kvK.getD layer none = some storedK := by
      rw [PagedFields.kvK_setCall, ← hbeforeK]
      exact getD_entries _ _ _
    have hgetV : ((withPlanes f (entries (beforeK ++ storedK :: afterK) nulls)
        (entries (beforeV ++ storedV :: afterV) nulls)).setCall decode
        { ready := true, inputs := ins, outputs := rest }).kvV.getD layer none = some storedV := by
      rw [PagedFields.kvV_setCall, ← hbeforeV]
      exact getD_entries _ _ _
    refine getFields_bind ?_
    rw [hgetK, hgetV]
    refine (adoptTiedKvView_triple storedK k).bind fun stored => Triple.exists fun keptK => Triple.assume ?_
    rintro rfl
    refine Triple.assume fun hkeptK => ?_
    refine modifyFields_bind <| perm_triple (?_ : List.Perm _ (.view storedV :: .view v :: (.view keptK ::
      (viewRefs (beforeK ++ afterK) ++ viewRefs (beforeV ++ afterV) ++
        (viewRefs ins ++ viewRefs rest ++ viewRefs f.scalars))))) ?_
    · rw [List.perm_iff_count]
      intro r
      simp only [List.count_cons]
      omega
    refine (adoptTiedKvView_triple storedV v).bind fun stored => Triple.exists fun keptV => Triple.assume ?_
    rintro rfl
    refine Triple.assume fun hkeptV => ?_
    refine modifyFields_triple.conseq (fun _ h => h) (fun _ s hs => ?_) fun _ h => h
    have hsizeK : keptK.byteLength = f.planeBytes := by
      rcases hkeptK with rfl | rfl
      · exact hks.2 _ (by simp)
      · exact hk
    have hsizeV : keptV.byteLength = f.planeBytes := by
      rcases hkeptV with rfl | rfl
      · exact hvs.2 _ (by simp)
      · exact hv
    refine ⟨_, _, ins, rest, hks.replace hsizeK, hvs.replace hsizeV, fun w hw => hsized w ?_, ?_⟩
    · rw [List.take_succ_cons, List.take_succ_cons]
      exact List.mem_cons_of_mem _ (List.mem_cons_of_mem _ hw)
    · have hfields : withPlanes f (entries (beforeK ++ keptK :: afterK) nulls) (entries (beforeV ++ keptV :: afterV) nulls) =
          ((withPlanes f (entries (beforeK ++ storedK :: afterK) nulls)
            (entries (beforeV ++ storedV :: afterV) nulls)).setK layer (some keptK)).setV layer (some keptV) := by
        unfold withPlanes PagedFields.setK PagedFields.setV
        simp only
        rw [← hbeforeK, set_entries, hbeforeK, ← hbeforeV, set_entries]
      rw [PagedFields.setK_setCall, PagedFields.setV_setCall, ← hfields] at hs
      refine hs.perm (List.perm_iff_count.mpr fun r => ?_)
      simp only [viewRefs_append, viewRefs_cons, List.nil_append, List.count_append, List.count_cons]
      omega

theorem adoptLayers_triple {n m : Nat} (hn : n ≤ f.kvLayerN) :
    Triple (Adopting f decode nulls (m + 2 * n)) (adoptLayers decode n) (fun _ => Adopting f decode nulls m)
      (Running f decode nulls) := by
  induction n generalizing m with
  | zero => exact Triple.pure fun _ h => h
  | succ n ih =>
    have hsplit : m + 2 * (n + 1) = m + 2 + 2 * n := by omega
    rw [hsplit]
    exact (ih (by omega)).bind fun _ => adoptLayer_triple (by omega)

theorem invoke_triple (exe : ViewModule) (hks : Whole f ks) (hvs : Whole f vs) :
    Triple (Busy f decode nulls [] ks vs ins []) (invoke exe decode)
      (fun _ s => ∃ handle, Busy f decode nulls [] ks vs ins (exe ins handle) s) (Running f decode nulls) := by
  refine attempt_bind (fun s h => Busy.running hks hvs h) <| getFields_bind <| nextHandle_bind fun handle => ?_
  rw [PagedFields.call_setCall]
  refine (retainViews_triple _).bind fun _ => modifyFields_triple.conseq (fun _ h => h) (fun _ s hs => ⟨handle, ?_⟩)
    fun _ h => h
  rw [PagedFields.setCall_setCall] at hs
  refine hs.perm (List.perm_iff_count.mpr fun r => ?_)
  simp only [viewRefs_nil, List.nil_append, List.count_append, List.count_nil]
  omega

/-- The outputs behind the first are of the sizes of the planes that went in. -/
theorem sized_outputs {exe : ViewModule} (htied : Tied exe) (scalars : List BufferView) {planes : List BufferView} {handle n : Nat}
    {v : BufferView} {rest : List BufferView} (hscalars : scalars.length = planeInputs) (hplanes : planes.length = n)
    (hsized : Sized f.planeBytes planes) (houts : exe (scalars ++ planes) handle = v :: rest) :
    Sized f.planeBytes (rest.take n) := by
  intro w hw
  obtain ⟨i, hi, hget⟩ := List.mem_iff_getElem.mp hw
  have hlt : i < n := Nat.lt_of_lt_of_le hi (List.length_take_le _ _)
  rw [List.getElem_take] at hget
  have hin : (scalars ++ planes)[planeInputs + i]? = some planes[i] := by
    rw [List.getElem?_append_right (by omega), hscalars, Nat.add_sub_cancel_left]
    exact List.getElem?_eq_getElem (by omega)
  have hout : (exe (scalars ++ planes) handle)[i + 1]? = some w := by
    rw [houts, List.getElem?_cons_succ, List.getElem?_eq_some_iff]
    exact ⟨_, hget⟩
  rw [htied _ _ _ _ _ hin hout]
  exact hsized _ (List.getElem_mem _)

theorem readOutput_running (wanted : Bool) :
    Triple (Running f decode nulls) (readOutput decode wanted) (fun _ => Running f decode nulls)
      (Running f decode nulls) := by
  refine Triple.exists fun ks => Triple.exists fun vs => Triple.exists fun ins => Triple.exists fun outs =>
    Triple.assume fun hks => Triple.assume fun hvs => Triple.assume fun _ => ?_
  refine (readOutput_triple hks hvs wanted).conseq (fun _ h => h) (fun _ s hs => ?_) fun _ h => h
  obtain ⟨_, _, _, hbusy⟩ := hs
  exact hbusy.running hks hvs

/-- The part of an invocation that its call is reset behind. -/
theorem chunk_running {exe : ViewModule} (htied : Tied exe) (wantLogits : Bool) (hks : Whole f ks)
    (hvs : Whole f vs) :
    Triple (Busy f decode nulls [] ks vs [] [])
      (do
        let f ← getFields
        pushInput decode f.pagedTokens
        pushInput decode f.pagedLast
        pushInput decode f.pagedStartPos
        pushInput decode f.pagedLogits
        pushLayers decode f.kvLayerN
        invoke exe decode
        readOutput decode wantLogits
        adoptLayers decode f.kvLayerN
        readOutput decode true)
      (fun _ => Running f decode nulls) (Running f decode nulls) := by
  refine getFields_bind <| (pushInput_triple hks hvs _).bind fun _ => Triple.exists fun a => Triple.assume fun _ =>
    (pushInput_triple hks hvs _).bind fun _ => Triple.exists fun b => Triple.assume fun _ =>
    (pushInput_triple hks hvs _).bind fun _ => Triple.exists fun c => Triple.assume fun _ =>
    (pushInput_triple hks hvs _).bind fun _ => Triple.exists fun d => Triple.assume fun _ => ?_
  rw [PagedFields.kvLayerN_setCall]
  refine (pushLayers_triple hks hvs (Nat.le_refl f.kvLayerN)).bind fun _ => Triple.exists fun planes =>
    Triple.assume fun hplanes => Triple.assume fun hsized => (invoke_triple exe hks hvs).bind fun _ =>
    Triple.exists fun handle => (readOutput_triple hks hvs wantLogits).bind fun _ => Triple.exists fun v =>
    Triple.exists fun rest => Triple.assume fun houts => ?_
  have hrest := sized_outputs htied [a, b, c, d] rfl hplanes hsized houts
  have hadopt : Triple (Adopting f decode nulls (0 + 2 * f.kvLayerN)) (adoptLayers decode f.kvLayerN)
      (fun _ => Running f decode nulls) (Running f decode nulls) := adoptLayers_triple (Nat.le_refl _)
  rw [Nat.zero_add] at hadopt
  exact (hadopt.conseq (fun s hs => ⟨ks, vs, _, rest, hks, hvs, hrest, hs⟩) (fun _ _ h => h) fun _ h => h).bind
    fun _ => readOutput_running true

theorem slots_setCall (hcalls : ∀ decode, (f.call decode).inputs = [] ∧ (f.call decode).outputs = [])
    (hK : f.kvK = entries ks nulls) (hV : f.kvV = entries vs nulls) :
    viewRefs f.slots = viewRefs ks ++ viewRefs vs ++ viewRefs f.scalars := by
  have hprefill := hcalls false
  have hdecode := hcalls true
  simp only [PagedFields.call, Bool.false_eq_true, if_false, if_true] at hprefill hdecode
  unfold PagedFields.slots PagedFields.scratch
  rw [hK, hV, filterMap_entries, filterMap_entries, hprefill.1, hprefill.2, hdecode.1, hdecode.2]
  simp [PagedFields.scalars]

theorem calls_setCall (hcalls : ∀ decode, (f.call decode).inputs = [] ∧ (f.call decode).outputs = []) (d : Bool) :
    ((f.setCall decode { ready := true }).call d).inputs = [] ∧
      ((f.setCall decode { ready := true }).call d).outputs = [] := by
  by_cases hd : d = decode
  · rw [hd, PagedFields.call_setCall]
    exact ⟨rfl, rfl⟩
  · have hother : (f.setCall decode { ready := true }).call d = f.call d := by
      cases d <;> cases decode <;> first | rfl | exact absurd rfl hd
    rw [hother]
    exact hcalls d

theorem poolOk_setCall (hok : PoolOk f) : PoolOk (f.setCall decode { ready := true }) where
  planes := by cases decode <;> exact hok.planes
  layers := by cases decode <;> exact hok.layers
  pages := by cases decode <;> exact hok.pages
  allocated := by cases decode <;> exact hok.allocated
  calls := calls_setCall hok.calls

/-- A reset call lets go of all it holds. -/
theorem callReset_kept (hok : PoolOk f) (hn : f.kvLayerN + nulls = f.config.layerCount) :
    Triple (Running f decode nulls) (callReset decode) (fun _ => Kept) E := by
  refine Triple.exists fun ks => Triple.exists fun vs => Triple.exists fun ins => Triple.exists fun outs =>
    Triple.assume fun hks => Triple.assume fun hvs => Triple.assume fun _ => getFields_bind ?_
  rw [PagedFields.call_setCall]
  refine perm_triple (?_ : List.Perm _ (viewRefs (ins ++ outs) ++ (viewRefs ks ++ viewRefs vs ++ viewRefs f.scalars))) <|
    (releaseViews_triple _).bind fun _ => modifyFields_triple.conseq (fun _ h => h) (fun _ s hs => ?_) fun _ h => h
  · rw [List.perm_iff_count]
    intro r
    simp only [viewRefs_append, List.nil_append, List.count_append]
    omega
  · rw [PagedFields.setCall_setCall] at hs
    have hplanes : PoolOk (withPlanes f (entries ks nulls) (entries vs nulls)) :=
      { planes := ⟨ks, vs, nulls, rfl, rfl, hks.1, hvs.1, hn, hks.2, hvs.2⟩
        layers := hok.layers
        pages := hok.pages
        allocated := hok.allocated
        calls := hok.calls }
    refine Kept.of_holds hs (poolOk_setCall hplanes) ?_
    rw [slots_setCall (calls_setCall hplanes.calls) (PagedFields.kvK_setCall _ _ _) (PagedFields.kvV_setCall _ _ _)]
    cases decode <;> exact List.Perm.refl _

theorem cachedCallPrepare_triple (hok : PoolOk f) :
    Triple (Holds (viewRefs f.slots) f) (cachedCallPrepare decode)
      (fun _ => Holds (viewRefs f.slots) (f.setCall decode { ready := true })) Kept := by
  refine getFields_bind ?_
  split
  · refine getFields_bind ?_
    rw [(hok.calls decode).1, (hok.calls decode).2]
    exact (releaseViews_triple []).bind fun _ => modifyFields_triple
  · exact attempt_bind (fun s h => .of_holds h hok (List.Perm.refl _)) modifyFields_triple

theorem slots_setCall_self (decode : Bool) (hok : PoolOk f) : viewRefs (f.setCall decode { ready := true }).slots = viewRefs f.slots := by
  obtain ⟨ks, vs, nulls, hK, hV, -⟩ := hok.planes
  rw [slots_setCall (calls_setCall hok.calls) ((PagedFields.kvK_setCall _ _ _).trans hK)
    ((PagedFields.kvV_setCall _ _ _).trans hV), slots_setCall hok.calls hK hV]
  cases decode <;> rfl

/-- A scratch view more. -/
theorem ensurePagedLogits_triple (hok : PoolOk f) (hcall : f.call decode = { ready := true }) :
    Triple (Holds (viewRefs f.slots) f) ensurePagedLogits
      (fun _ s => ∃ g, PoolOk g ∧ g.call decode = { ready := true } ∧ g.kvLayerN = f.kvLayerN ∧ Holds (viewRefs g.slots) g s)
      Kept := by
  have hkeep : ∀ s, Holds (viewRefs f.slots) f s → Kept s := fun s h => .of_holds h hok (List.Perm.refl _)
  refine getFields_bind ?_
  split
  · exact Triple.pure fun s h => ⟨f, hok, hcall, rfl, h⟩
  · next hnone =>
    have hlogits : f.pagedLogits = none := by simpa using hnone
    refine require_bind hkeep fun _ => attempt_bind hkeep <|
      ((allocateBufferCopy_triple _).conseq (fun _ h => h) (fun _ _ h => h) hkeep).bind fun view =>
        Triple.assume fun _ => modifyFields_triple.conseq (fun _ h => h) (fun _ s hs => ?_) fun _ h => h
    refine ⟨{ f with pagedLogits := some view }, ⟨hok.planes, hok.layers, hok.pages, hok.allocated, hok.calls⟩, hcall, rfl,
      hs.perm ?_⟩
    obtain ⟨ks, vs, nulls, hK, hV, -⟩ := hok.planes
    rw [slots_setCall hok.calls hK hV, slots_setCall (f := { f with pagedLogits := some view }) hok.calls hK hV,
      List.perm_iff_count]
    intro r
    simp only [PagedFields.scalars, hlogits, Option.toList, viewRefs_append, viewRefs_cons, viewRefs_nil, List.count_append,
      List.count_cons, List.count_nil]
    omega

theorem invokePagedChunkOnce_kept {exe : ViewModule} (htied : Tied exe) (decode wantLogits : Bool) :
    Triple Kept (invokePagedChunkOnce exe decode wantLogits) (fun _ => Kept) Kept := by
  refine Kept.triple fun f hok => getFields_bind <|
    require_bind (fun s h => .of_holds h hok (List.Perm.refl _)) fun _ => (cachedCallPrepare_triple hok).bind fun _ => ?_
  have hready : PoolOk (f.setCall decode { ready := true }) := poolOk_setCall hok
  rw [← slots_setCall_self decode hok]
  refine (ensurePagedLogits_triple hready (PagedFields.call_setCall _ _ _)).bind fun _ => Triple.exists fun g =>
    Triple.assume fun hg => Triple.assume fun hcall => Triple.assume fun _ => ?_
  obtain ⟨ks, vs, nulls, hK, hV, hks, hvs, hsum, hsizedK, hsizedV⟩ := hg.planes
  have hself : (withPlanes g (entries ks nulls) (entries vs nulls)).setCall decode { ready := true } = g := by
    rw [← hK, ← hV, ← hcall]
    cases decode <;> rfl
  have hbusy : ∀ s, Holds (viewRefs g.slots) g s → Busy g decode nulls [] ks vs [] [] s := by
    intro s hs
    unfold Busy
    rw [hself]
    refine hs.perm ?_
    rw [slots_setCall hg.calls hK hV]
    exact List.Perm.refl _
  exact Triple.andFinally
    ((chunk_running htied wantLogits ⟨hks, hsizedK⟩ ⟨hvs, hsizedV⟩).conseq hbusy (fun _ _ h => h) fun _ h => h)
    (fun _ => callReset_kept hg hsum) (callReset_kept hg hsum)

end invocation

/-! ## The scratch views -/

/-- A session with other scalars keeps the rest. -/
theorem kept_of_scalars {g : PagedFields} {s : KvSession} (h : Holds refs g s) (hok : PoolOk f) (hg : PoolOk g)
    (hK : g.kvK = f.kvK) (hV : g.kvV = f.kvV)
    (hcount : ∀ r, refs.count r + (viewRefs f.scalars).count r =
      (viewRefs f.slots).count r + (viewRefs g.scalars).count r) : Kept s := by
  obtain ⟨ks, vs, nulls, hfK, hfV, -⟩ := hok.planes
  rw [slots_setCall hok.calls hfK hfV] at hcount
  refine Kept.of_holds h hg ?_
  rw [slots_setCall hg.calls (hK.trans hfK) (hV.trans hfV), List.perm_iff_count]
  intro r
  have hr := hcount r
  simp only [List.count_append] at hr ⊢
  omega

theorem ensureTokens_kept (count : Nat) : Triple Kept (ensureTokens count) (fun _ => Kept) Kept := by
  refine Kept.triple fun f hok => getFields_bind ?_
  split
  · obtain ⟨ks, vs, nulls, hK, hV, -⟩ := hok.planes
    have hslots := slots_setCall hok.calls hK hV
    -- the references of all but the old tokens
    let others := viewRefs ks ++ viewRefs vs ++ viewRefs (f.pagedLast.toList ++ (f.pagedStartPos.toList ++ f.pagedLogits.toList))
    have hrelease : (viewRefs f.slots).Perm (viewRefs f.pagedTokens.toList ++ others) := by
      rw [hslots, List.perm_iff_count]
      intro r
      simp only [others, PagedFields.scalars, viewRefs_append, List.count_append]
      omega
    have hkept : ∀ (tokens : Option BufferView) (length : Nat) (s : KvSession),
        Holds (viewRefs tokens.toList ++ others) { f with pagedTokens := tokens, pagedTokensLen := length } s → Kept s := by
      intro tokens length s hs
      refine kept_of_scalars hs hok ⟨hok.planes, hok.layers, hok.pages, hok.allocated, hok.calls⟩ rfl rfl fun r => ?_
      rw [hslots]
      simp only [others, PagedFields.scalars, viewRefs_append, List.count_append]
      omega
    refine perm_triple hrelease <| (releaseView_triple _).bind fun _ => modifyFields_bind ?_
    refine ((allocateBufferCopy_triple _).conseq (fun _ h => h) (fun _ _ h => h) (hkept none 0)).bind fun view =>
      Triple.assume fun _ => modifyFields_triple.conseq (fun _ h => h) (fun _ s hs => hkept (some view) count s hs) fun _ h => h
  · have hkeep : ∀ s, Holds (viewRefs f.slots) f s → Kept s := fun s h => .of_holds h hok (List.Perm.refl _)
    exact (attempt_triple hkeep).conseq (fun _ h => h) (fun _ => hkeep) fun _ h => h

/-- The view of a scalar is there, or is new. -/
theorem ensureI64ScalarView_triple (slot : Option BufferView) :
    Triple (Holds refs f) (ensureI64ScalarView slot)
      (fun view s => ∃ refs', (∀ r, refs'.count r + (viewRefs slot.toList).count r =
        refs.count r + (viewRefs [view]).count r) ∧ Holds refs' f s) (Holds refs f) := by
  cases slot with
  | none =>
    refine (allocateBufferCopy_triple _).conseq (fun _ h => h) (fun view s hs => ⟨_, fun r => ?_, hs.2⟩) fun _ h => h
    simp only [Option.toList, viewRefs_cons, viewRefs_nil, List.count_cons, List.count_nil]
    omega
  | some view => exact attempt_bind (fun _ h => h) <| Triple.pure fun s hs => ⟨refs, fun _ => rfl, hs⟩

theorem ensureLast_kept : Triple Kept ensureLast (fun _ => Kept) Kept := by
  refine Kept.triple fun f hok => getFields_bind ?_
  refine ((ensureI64ScalarView_triple _).conseq (fun _ h => h) (fun _ _ h => h)
    fun s h => .of_holds h hok (List.Perm.refl _)).bind fun view => Triple.exists fun refs => Triple.assume fun hcount => ?_
  refine modifyFields_triple.conseq (fun _ h => h) (fun _ s hs => ?_) fun _ h => h
  refine kept_of_scalars hs hok ⟨hok.planes, hok.layers, hok.pages, hok.allocated, hok.calls⟩ rfl rfl fun r => ?_
  have hr := hcount r
  simp only [PagedFields.scalars, Option.toList_some, viewRefs_append, List.count_append] at hr ⊢
  omega

theorem ensureStartPos_kept : Triple Kept ensureStartPos (fun _ => Kept) Kept := by
  refine Kept.triple fun f hok => getFields_bind ?_
  refine ((ensureI64ScalarView_triple _).conseq (fun _ h => h) (fun _ _ h => h)
    fun s h => .of_holds h hok (List.Perm.refl _)).bind fun view => Triple.exists fun refs => Triple.assume fun hcount => ?_
  refine modifyFields_triple.conseq (fun _ h => h) (fun _ s hs => ?_) fun _ h => h
  refine kept_of_scalars hs hok ⟨hok.planes, hok.layers, hok.pages, hok.allocated, hok.calls⟩ rfl rfl fun r => ?_
  have hr := hcount r
  simp only [PagedFields.scalars, Option.toList_some, viewRefs_append, List.count_append] at hr ⊢
  omega

theorem invokePagedChunk_kept {exe : ViewModule} (htied : Tied exe) (tokens : List Int) (last startPos : Int)
    (wantLogits : Bool) : Triple Kept (invokePagedChunk exe tokens last startPos wantLogits) (fun _ => Kept) Kept := by
  refine Kept.triple fun f hok => getFields_bind <|
    require_bind (fun s h => .of_holds h hok (List.Perm.refl _)) fun _ => ?_
  have hrest : Triple Kept
      (do
        ensureTokens tokens.length
        ensureLast
        ensureStartPos
        invokePagedChunkOnce exe (tokens.length == 1) wantLogits) (fun _ => Kept) Kept :=
    (ensureTokens_kept _).bind fun _ => ensureLast_kept.bind fun _ => ensureStartPos_kept.bind fun _ =>
      invokePagedChunkOnce_kept htied _ _
  exact hrest.conseq (fun s h => .of_holds h hok (List.Perm.refl _)) (fun _ _ h => h) fun _ h => h

/-! ## Runs -/

theorem Op.kept {exe : ViewModule} (htied : Tied exe) (op : Op) : Triple Kept (op.program exe) (fun _ => Kept) Kept := by
  cases op with
  | configure config => exact configurePagedKv_kept config
  | ensure pageCount => exact ensureKvPages_kept pageCount
  | reset => exact resetPagedKv_kept
  | invoke tokens last startPos wantLogits => exact invokePagedChunk_kept htied tokens last startPos wantLogits

theorem kept_created (faults : List Bool) : Kept (created faults) :=
  ⟨poolOk_of_empty (fun decode => by cases decode <;> exact ⟨rfl, rfl⟩) rfl rfl rfl rfl rfl, rfl, Ledger.owns_empty, rfl⟩

theorem Kept.after {x : KvM Unit} (h : Triple Kept x (fun _ => Kept) Kept) {s : KvSession} (hs : Kept s) :
    Kept (after x s) := by
  have hx := h s hs
  unfold KvSession.after
  revert hx
  cases x.run s with
  | ok a s' => exact fun h => h
  | error e s' => exact fun h => h

theorem kept_run {exe : ViewModule} (htied : Tied exe) (ops : List Op) {s : KvSession} (hs : Kept s) :
    Kept (run exe s ops) := by
  induction ops generalizing s with
  | nil => exact hs
  | cons op ops ih => exact ih (Kept.after (op.kept htied) hs)

/-- A session that is destroyed gives everything back. -/
theorem destroy_triple : Triple Kept destroy (fun _ s => s.hal.refs.Owns []) fun _ => False := by
  refine Kept.triple fun f hok => getFields_bind ?_
  obtain ⟨ks, vs, hplanes⟩ := hok.planes
  rw [(hok.calls false).1, (hok.calls false).2, (hok.calls true).1, (hok.calls true).2]
  refine (releaseViews_triple []).bind fun _ => (releaseViews_triple []).bind fun _ => ?_
  refine perm_triple (?_ : List.Perm _ (viewRefs f.pagedTokens.toList ++ (viewRefs f.pagedLast.toList ++
    (viewRefs f.pagedStartPos.toList ++ (viewRefs f.pagedLogits.toList ++ (viewRefs ks ++ viewRefs vs ++ [])))))) ?_
  · obtain ⟨nulls, hK, hV, -⟩ := hplanes
    change (viewRefs f.slots).Perm _
    rw [slots_setCall hok.calls hK hV, List.perm_iff_count]
    intro r
    simp only [PagedFields.scalars, viewRefs_append, List.count_append, List.count_nil]
    omega
  · exact (releaseView_triple _).bind fun _ => (releaseView_triple _).bind fun _ => (releaseView_triple _).bind fun _ =>
      (releaseView_triple _).bind fun _ => (releaseLayers_all hplanes).conseq (fun _ h => h) (fun _ _ h => h.2.1)
        fun _ h => h

/-- What the fields say of the pool is so, no size has wrapped, and the references are those that the session can
still give back: each of them once, and no other. -/
structure PoolInvariant (s : KvSession) : Prop where
  layers : s.fields.kvLayerN = 0 ∨ s.fields.kvLayerN = s.fields.config.layerCount
  present : ∀ i < s.fields.kvLayerN, ∃ k v, s.fields.kvK[i]? = some (some k) ∧ s.fields.kvV[i]? = some (some v) ∧
    k.byteLength = s.fields.planeBytes ∧ v.byteLength = s.fields.planeBytes
  absent : ∀ i, s.fields.kvLayerN ≤ i → s.fields.kvK.getD i none = none ∧ s.fields.kvV.getD i none = none
  allocated : s.fields.kvAllocatedBytes =
    if s.fields.kvLayerN = 0 then 0 else 2 * s.fields.config.layerCount * s.fields.planeBytes
  pages : s.fields.kvPageCount = 0 ↔ s.fields.kvLayerN = 0
  sizes : s.hal.wrapped = false
  unmisused : s.hal.refs.misused = false
  owned : s.hal.refs.held.Perm (viewRefs s.fields.slots)
  destroyed : (after destroy s).hal.refs.held = [] ∧ (after destroy s).hal.refs.misused = false

theorem getElem?_entries {views : List BufferView} {nulls i : Nat} (hi : i < views.length) :
    (entries views nulls)[i]? = some (some views[i]) := by
  unfold entries
  rw [List.getElem?_append_left (by simpa using hi), List.getElem?_map, List.getElem?_eq_getElem hi]
  rfl

theorem getD_entries_of_le {views : List BufferView} {nulls i : Nat} (hi : views.length ≤ i) :
    (entries views nulls).getD i none = none := by
  unfold entries
  rw [List.getD_eq_getElem?_getD, List.getElem?_append_right (by simpa using hi), List.getElem?_replicate]
  split <;> rfl

theorem Kept.invariant {s : KvSession} (h : Kept s) : PoolInvariant s := by
  have hdestroy := destroy_triple s h
  obtain ⟨hok, -, hrefs, hsizes⟩ := h
  obtain ⟨ks, vs, nulls, hK, hV, hks, hvs, -, hsizedK, hsizedV⟩ := hok.planes
  refine ⟨hok.layers, fun i hi => ?_, fun i hi => ?_, hok.allocated, hok.pages, hsizes, hrefs.1, hrefs.2, ?_⟩
  · rw [hK, hV, getElem?_entries (hks ▸ hi), getElem?_entries (hvs ▸ hi)]
    exact ⟨_, _, rfl, rfl, hsizedK _ (List.getElem_mem _), hsizedV _ (List.getElem_mem _)⟩
  · rw [hK, hV, getD_entries_of_le (hks ▸ hi), getD_entries_of_le (hvs ▸ hi)]
    exact ⟨rfl, rfl⟩
  · unfold KvSession.after
    revert hdestroy
    cases destroy.run s with
    | ok a s' => exact fun h => ⟨List.perm_nil.mp h.2, h.1⟩
    | error e s' => exact False.elim

/-- The pool's invariant, behind any calls of which anything may have failed. -/
theorem kv_pool_invariant {exe : ViewModule} (htied : Tied exe) (faults : List Bool) (ops : List Op) :
    PoolInvariant (run exe (created faults) ops) := (kept_run htied ops (kept_created faults)).invariant

/-- A module that gives its planes back in place. -/
def inPlace : ViewModule := fun inputs handle =>
  inputs.drop 3 ++ [{ handle, buffer := handle, byteLength := 8 }]

theorem tied_inPlace : Tied inPlace := by
  intro inputs handle i v w hin hout
  have hlt : planeInputs + i < inputs.length := (List.getElem?_eq_some_iff.mp hin).1
  unfold planeInputs at hin hlt
  have hsame : (inPlace inputs handle)[i + 1]? = inputs[4 + i]? := by
    unfold inPlace
    rw [List.getElem?_append_left (by rw [List.length_drop]; omega), List.getElem?_drop]
    congr 1
    omega
  rw [hsame, hin, Option.some_inj] at hout
  rw [hout]

/-- Two layers, and an invocation that is stopped at the V output of the second. -/
theorem kv_pool_invariant_stopped :
    (run inPlace (created (List.replicate 26 false ++ [true]))
      [.configure ⟨2, 16, 1, 4, 2, 16, 8⟩, .ensure 3, .invoke [1] 0 0 true]).fields.kvAllocatedBytes = 1536 ∧
    PoolInvariant (run inPlace (created (List.replicate 26 false ++ [true]))
      [.configure ⟨2, 16, 1, 4, 2, 16, 8⟩, .ensure 3, .invoke [1] 0 0 true]) :=
  ⟨by decide +kernel, kv_pool_invariant tied_inPlace _ _⟩

end KvSession

end Dyninfer
