/-
The roles that names suggest (`infer_role`) and the slots of the registered
architectures. A layer number is digits between dots, so no test of a name
reaches across it, and a slot of a block has the role that its suffix suggests,
whatever the layer. A build declares only slots that accept the role of their
own name.
-/
import Dyninfer.Architecture.BuiltGraph
import Dyninfer.Architecture.Identity
import Dyninfer.Binding.Partition

namespace Dyninfer

open Effect ModelBuilder

/-! ## Names around a layer number -/

/-- The roles in the order of the tests, given how a name is searched. -/
def suggestedRole (has ends : String → Bool) : Option ParameterRole :=
  if has "embed" || has "token_embd" || has "tok_embeddings" then some .embedding
  else if has "q_norm" || has "k_norm" then some .norm
  else if has "attn_q" || has "attention.wq" || has "q_proj" || ends ".q.weight" then some .attentionQ
  else if has "attn_k" || has "attention.wk" || has "k_proj" || ends ".k.weight" then some .attentionK
  else if has "attn_v" || has "attention.wv" || has "v_proj" || ends ".v.weight" then some .attentionV
  else if has "attn_output" || has "attn_o" || has "attention.wo" || has "o_proj" || ends ".o.weight" then
    some .attentionO
  else if has "ffn_gate" || has "w1" || has "gate_proj" then some .ffnGate
  else if has "ffn_up" || has "w3" || has "up_proj" then some .ffnUp
  else if has "ffn_down" || has "w2" || has "down_proj" then some .ffnDown
  else if has "norm" || has "ln_" || has "layernorm" then some .norm
  else if has "output" || has "lm_head" || ends "output.weight" then some .output
  else if has "bias" then some .bias
  else if has "rope" || has "freq" then some .ropeFreqs
  else none

/-- The texts that the tests look for. -/
def soughtParts : List String :=
  ["embed", "token_embd", "tok_embeddings", "q_norm", "k_norm", "attn_q", "attention.wq", "q_proj", "attn_k",
    "attention.wk", "k_proj", "attn_v", "attention.wv", "v_proj", "attn_output", "attn_o", "attention.wo", "o_proj",
    "ffn_gate", "w1", "gate_proj", "ffn_up", "w3", "up_proj", "ffn_down", "w2", "down_proj", "norm", "ln_",
    "layernorm", "output", "lm_head", "bias", "rope", "freq"]

def soughtEndings : List String := [".q.weight", ".k.weight", ".v.weight", ".o.weight", "output.weight"]

theorem suggestedRole_congr {has has' ends ends' : String → Bool} (hhas : ∀ part ∈ soughtParts, has part = has' part)
    (hends : ∀ ending ∈ soughtEndings, ends ending = ends' ending) :
    suggestedRole has ends = suggestedRole has' ends' := by
  simp only [soughtParts, soughtEndings, List.forall_mem_cons] at hhas hends
  simp only [suggestedRole, hhas, hends]

theorem inferRole_eq (name : String) : inferRole name =
    (suggestedRole (Text.contains (Text.toAsciiLowercase name)) (Text.endsWith (Text.toAsciiLowercase name))).getD
      (.other name) := by
  unfold inferRole suggestedRole
  simp only [apply_ite (Option.getD · (ParameterRole.other name)), Option.getD_some, Option.getD_none]

section block

variable (layer : Nat) (suffix : String) {part : String}

theorem toLower_of_isDigit {c : Char} (h : c.isDigit = true) : c.toLower = c := by
  unfold Char.isDigit at h
  unfold Char.toLower
  refine dif_neg fun hupper => ?_
  simp only [Bool.and_eq_true, decide_eq_true_eq, UInt32.le_iff_toNat_le] at h hupper
  have hle : c.val.toNat ≤ 57 := h.2
  have hge : 65 ≤ c.val.toNat := hupper.1
  omega

theorem lower_inBlock : (Text.toAsciiLowercase (inBlock layer suffix)).toList =
    "blk.".toList ++ ((toString layer).toList ++ (Text.toAsciiLowercase suffix).toList) := by
  have hdigits : (toString layer).toList.map Char.toLower = (toString layer).toList := by
    refine (List.map_congr_left fun c hc => ?_).trans (List.map_id _)
    exact toLower_of_isDigit (Text.isDigit_of_mem_toString hc)
  have hname : (inBlock layer suffix).toList = "blk.".toList ++ ((toString layer).toList ++ suffix.toList) := by
    simp only [inBlock, String.toList_append, List.append_assoc]
    rfl
  simp only [Text.toAsciiLowercase, String.toList_ofList, hname, List.map_append, hdigits]
  rfl

theorem contains_inBlock (hdigits : part.toList.all (!·.isDigit) = true) (hblk : Text.contains "blk." part = false) :
    Text.contains (Text.toAsciiLowercase (inBlock layer suffix)) part =
      Text.contains (Text.toAsciiLowercase suffix) part := by
  refine decide_eq_decide.mpr ?_
  rw [lower_inBlock, Text.infix_number_iff layer hdigits]
  exact or_iff_right (of_decide_eq_false hblk)

/-- A part may have digits where it starts with a letter that no block's prefix has. -/
theorem contains_inBlock_of_head {c : Char} {rest : List Char} (hpart : part.toList = c :: rest)
    (hc : c ∉ "blk.".toList) (hdigit : c.isDigit = false) :
    Text.contains (Text.toAsciiLowercase (inBlock layer suffix)) part =
      Text.contains (Text.toAsciiLowercase suffix) part := by
  refine decide_eq_decide.mpr ?_
  rw [lower_inBlock, hpart, Text.infix_append_iff_of_head hc, Text.infix_append_iff_of_head]
  intro h
  rw [Text.isDigit_of_mem_toString h] at hdigit
  cases hdigit

theorem endsWith_inBlock (hdigits : part.toList.all (!·.isDigit) = true) :
    Text.endsWith (Text.toAsciiLowercase (inBlock layer suffix)) part =
      Text.endsWith (Text.toAsciiLowercase suffix) part := by
  refine Bool.eq_iff_iff.mpr ?_
  rw [Text.endsWith, Text.endsWith, List.isSuffixOf_iff_suffix, List.isSuffixOf_iff_suffix, lower_inBlock,
    Text.suffix_number_iff layer hdigits]

/-- A text that no layer number can hide or make up: it lies after the number, or starts as no prefix does. -/
def SeesPast (part : String) : Bool :=
  part.toList.all (!·.isDigit) && !Text.contains "blk." part || part.toList.head? == some 'w'

theorem contains_inBlock_of_seesPast (h : SeesPast part = true) :
    Text.contains (Text.toAsciiLowercase (inBlock layer suffix)) part =
      Text.contains (Text.toAsciiLowercase suffix) part := by
  simp only [SeesPast, Bool.or_eq_true, Bool.and_eq_true, Bool.not_eq_true', beq_iff_eq] at h
  rcases h with ⟨hdigits, hblk⟩ | hw
  · exact contains_inBlock layer suffix hdigits hblk
  · obtain ⟨rest, hrest⟩ := List.head?_eq_some_iff.mp hw
    exact contains_inBlock_of_head layer suffix hrest (by decide) (by decide)

/-- The layer has no say in the role of a block's parameter. -/
theorem inferRole_inBlock : inferRole (inBlock layer suffix) =
    (suggestedRole (Text.contains (Text.toAsciiLowercase suffix)) (Text.endsWith (Text.toAsciiLowercase suffix))).getD
      (.other (inBlock layer suffix)) := by
  have hparts : soughtParts.all SeesPast = true := by decide +kernel
  have hendings : soughtEndings.all (·.toList.all (!·.isDigit)) = true := by decide +kernel
  rw [inferRole_eq, suggestedRole_congr
    (fun part hpart => contains_inBlock_of_seesPast layer suffix (List.all_eq_true.mp hparts part hpart))
    fun ending hending => endsWith_inBlock layer suffix (List.all_eq_true.mp hendings ending hending)]

end block

/-! ## The slots of a build -/

theorem rolesCompatible_self (role : ParameterRole) : rolesCompatible role role = true := by
  cases role <;> simp [rolesCompatible]

theorem rolesCompatible_other (name : String) (role : ParameterRole) : rolesCompatible (.other name) role = true := by
  cases role <;> rfl

/-- A role of no known kind. -/
def ParameterRole.isOther : ParameterRole → Bool
  | .other _ => true
  | _ => false

/-- A slot of the table takes the role that its own name suggests. -/
theorem Declared.takesOwnRole {name : String} {role : ParameterRole} (h : Declared name role) :
    rolesCompatible role (inferRole name) = true := by
  cases h with
  | model h =>
    have hmodel : modelSlots.all (fun slot => rolesCompatible slot.2 (inferRole slot.1)) = true := by decide +kernel
    exact List.all_eq_true.mp hmodel _ h
  | @block suffix _ layer h =>
    have hblock : blockSlots.all (fun slot => slot.2.isOther ||
        suggestedRole (Text.contains (Text.toAsciiLowercase slot.1)) (Text.endsWith (Text.toAsciiLowercase slot.1)) ==
          some slot.2) = true := by decide +kernel
    have hslot := List.all_eq_true.mp hblock _ h
    rw [inferRole_inBlock]
    simp only [Bool.or_eq_true, beq_iff_eq] at hslot
    rcases hslot with hother | hsuggested
    · cases role with
      | other tag => exact rolesCompatible_other tag _
      | _ => cases hother
    · rw [hsuggested]
      exact rolesCompatible_self role

/-! ## Binding without roles -/

/-- The parameter with its role forgotten: one of no known kind, which no slot refuses. -/
def LogicalParameter.withoutRole (param : LogicalParameter) : LogicalParameter := { param with role := .other "" }

def CheckpointCatalog.withoutRoles (catalog : CheckpointCatalog) : CheckpointCatalog :=
  { catalog with parameters := catalog.parameters.map (·.withoutRole) }

theorem resolve_withoutRole (parameters : List LogicalParameter) (name : String) :
    resolve (parameters.map (·.withoutRole)) name = (resolve parameters name).map (·.withoutRole) := by
  simp only [resolve, ← List.map_reverse, List.find?_map, Option.map_or]
  rfl

namespace Binder

variable {binder : Binder} {parameters : List LogicalParameter} {slot : ParameterSlot}

/-- A parameter whose role the slot takes is bound as one without a role. -/
theorem bindSlot_withoutRole
    (h : ∀ param, resolve parameters slot.canonicalName = some param → rolesCompatible slot.role param.role = true) :
    binder.bindSlot slot (byName (parameters.map (·.withoutRole))) = binder.bindSlot slot (byName parameters) := by
  unfold bindSlot
  rw [byName_get, byName_get, resolve_withoutRole]
  cases hresolve : resolve parameters slot.canonicalName with
  | none => rfl
  | some param =>
    rw [Option.map_some]
    dsimp only
    have hrole : checkRole slot param.withoutRole = checkRole slot param := by
      rw [checkRole_ok_iff.mpr (h param hresolve), checkRole_ok_iff]
      cases slot.role <;> rfl
    rw [hrole]
    rfl

theorem bind_withoutRoles {architecture : ArchitecturePackage} {catalog : CheckpointCatalog}
    (h : ∀ slot ∈ architecture.graph.parameterSlots, ∀ param,
      resolve catalog.parameters slot.canonicalName = some param → rolesCompatible slot.role param.role = true) :
    binder.bind architecture catalog.withoutRoles = binder.bind architecture catalog := by
  have hnext : ∀ slots : List ParameterSlot, (∀ slot ∈ slots, slot ∈ architecture.graph.parameterSlots) →
      ∀ s : BindState, slots.foldlM (binder.bindNext (byName catalog.withoutRoles.parameters)) s =
        slots.foldlM (binder.bindNext (byName catalog.parameters)) s := by
    intro slots hslots
    induction slots with
    | nil => exact fun s => rfl
    | cons slot slots ih =>
      intro s
      have hslot : binder.bindNext (byName catalog.withoutRoles.parameters) s slot =
          binder.bindNext (byName catalog.parameters) s slot := by
        unfold bindNext
        rw [CheckpointCatalog.withoutRoles, bindSlot_withoutRole (h slot (hslots slot List.mem_cons_self))]
      rw [List.foldlM_cons, List.foldlM_cons, hslot]
      exact bind_congr fun s' => ih (fun slot hslot' => hslots slot (List.mem_cons_of_mem _ hslot')) s'
  unfold bind
  rw [hnext _ (fun _ h => h)]
  rfl

end Binder

/-- **The role a slot's name suggests is one the slot takes.** In every build of a registered architecture;
so a catalog that holds every slot under its name, with the roles that the names suggest, binds as it
would if its parameters had no roles at all. -/
theorem inferRole_suits {architecture : Architecture} {config : ResolvedModelConfig} {package : ArchitecturePackage}
    (h : ArchitectureRegistry.buildWithConfig architecture config = .ok package) :
    (∀ slot ∈ package.graph.parameterSlots, rolesCompatible slot.role (inferRole slot.canonicalName) = true) ∧
      ∀ (binder : Binder) (catalog : CheckpointCatalog),
        (∀ param ∈ catalog.parameters, param.role = inferRole param.canonicalName) →
        (∀ slot ∈ package.graph.parameterSlots, ∃ param ∈ catalog.parameters, param.canonicalName = slot.canonicalName) →
          (∀ slot ∈ package.graph.parameterSlots, ∀ param,
            (byName catalog.parameters).get slot.canonicalName = some param → checkRole slot param = .ok ()) ∧
          binder.bind package catalog.withoutRoles = binder.bind package catalog := by
  have hslots (slot : ParameterSlot) (hslot : slot ∈ package.graph.parameterSlots) :=
    ((buildWithConfig_names h).2 slot hslot).takesOwnRole
  refine ⟨hslots, fun binder catalog hroles hnames => ?_⟩
  have htaken : ∀ slot ∈ package.graph.parameterSlots, ∀ param,
      resolve catalog.parameters slot.canonicalName = some param → rolesCompatible slot.role param.role = true := by
    intro slot hslot param hresolve
    rw [hroles param (mem_of_resolve hresolve), canonicalName_of_resolve hresolve (hnames slot hslot)]
    exact hslots slot hslot
  refine ⟨fun slot hslot param hget => ?_, Binder.bind_withoutRoles htaken⟩
  rw [byName_get] at hget
  exact checkRole_ok_iff.mpr (htaken slot hslot param hget)

theorem inferRole_suits_lfm2 : ∃ config package, ArchitectureRegistry.buildWithConfig .lfm2 config = .ok package ∧
    ∀ slot ∈ package.graph.parameterSlots, rolesCompatible slot.role (inferRole slot.canonicalName) = true := by
  obtain ⟨config, package, hpackage⟩ := lfm2_builds
  exact ⟨config, package, hpackage, (inferRole_suits hpackage).1⟩

end Dyninfer
