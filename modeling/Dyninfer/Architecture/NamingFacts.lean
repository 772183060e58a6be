/-
What naming does to a catalog. A name a table gives is never remapped and never
dropped, so canonicalization is idempotent, and the keys of one name are told by
the table: one is the name of the other, or both have the same entry.

A catalog is renamed parameter by parameter, in order. Nothing looks for two
parameters of one name; the names of the result are distinct exactly when no two
kept parameters have keys of one name. Naming the result again returns it, save
where a tied output was made of an embedding with a remapped key: the output
carries that key first among its aliases, and is an embedding the second time.
-/
import Dyninfer.Architecture.Naming

namespace Dyninfer

namespace NamingTable

/-- What canonical names rest on in both tables. No key that is remapped starts as the name of a block. -/
structure Sound (table : NamingTable) : Prop where
  fixedKeys : ∀ e ∈ table.fixed, e.1.toList.head? ≠ some 'b' ∧ table.layerName e.1 = none
  fixedNames : ∀ e ∈ table.fixed, e.2.toList.head? ≠ some 'b' ∧ skips e.2 = false ∧ table.remap e.2 = none
  roots : ∀ root ∈ table.layerRoots, root.toList.head?.any ('b' != ·) = true
  suffixes : ∀ e ∈ table.layerSuffixes, 'y' ∉ e.2.toList ∧ e.2.toList.getLast? = some 't'

theorem hfFamily_sound : hfFamily.Sound := ⟨by decide, by decide, by decide, by decide⟩

theorem lfm2_sound : lfm2.Sound := ⟨by decide, by decide, by decide, by decide⟩

/-! ## The names of blocks -/

theorem blockName_toList (layer : Nat) (suffix : String) :
    (blockName layer suffix).toList = "blk.".toList ++ ((toString layer).toList ++ '.' :: suffix.toList) := by
  simp only [blockName, String.toList_append, List.append_assoc]
  rfl

theorem blockName_head (layer : Nat) (suffix : String) : (blockName layer suffix).toList.head? = some 'b' := by
  rw [blockName_toList]; rfl

theorem blockName_injective {layer layer' : Nat} {suffix suffix' : String}
    (h : blockName layer suffix = blockName layer' suffix') : layer = layer' ∧ suffix = suffix' := by
  have hlist := congrArg String.toList h
  rw [blockName_toList, blockName_toList] at hlist
  obtain ⟨hlayer, hsuffix⟩ := Text.number_append_injective (by decide) (List.append_cancel_left hlist)
  exact ⟨hlayer, String.toList_inj.mp hsuffix⟩

theorem skips_blockName {layer : Nat} {suffix : String} (hy : 'y' ∉ suffix.toList)
    (ht : suffix.toList.getLast? = some 't') : skips (blockName layer suffix) = false := by
  have hlast : (blockName layer suffix).toList.getLast? = some 't' := by
    rw [blockName_toList, List.getLast?_append, List.getLast?_append, List.getLast?_cons, ht]; rfl
  have hno : 'y' ∉ (blockName layer suffix).toList := by
    rw [blockName_toList, List.mem_append, List.mem_append, List.mem_cons]
    rintro (h | h | h | h)
    · exact absurd h (by decide)
    · exact absurd (Text.isDigit_of_mem_toString h) (by decide)
    · exact absurd h (by decide)
    · exact hy h
  rw [skips, Bool.or_eq_false_iff]
  constructor
  · refine Bool.eq_false_iff.mpr fun h => hno (Text.mem_of_contains h (by decide))
  · refine Bool.eq_false_iff.mpr fun h => ?_
    have hq := Text.getLast_of_endsWith (c := 'q') h (by decide)
    rw [hlast] at hq
    exact absurd hq (by decide)

variable {table : NamingTable} (hsound : table.Sound)
include hsound

theorem Sound.remap_blockName (layer : Nat) (suffix : String) : table.remap (blockName layer suffix) = none := by
  have hfixed : table.fixed.lookup (blockName layer suffix) = none := by
    refine List.lookup_eq_none_iff.mpr fun e he => bne_iff_ne.mpr fun heq => (hsound.fixedKeys e he).1 ?_
    rw [← heq, blockName_head]
  have hlayer : table.layerRoots.findSome? (Text.strip (blockName layer suffix)) = none := by
    refine List.findSome?_eq_none_iff.mpr fun root hroot => ?_
    obtain ⟨c, hc, hne⟩ := (Option.any_eq_true _ _).mp (hsound.roots root hroot)
    exact Text.strip_eq_none (blockName_head layer suffix) hc (bne_iff_ne.mp hne)
  simp only [remap, hfixed, layerName, hlayer, Option.bind_eq_bind, Option.bind_none, Option.map_none]

/-! ## The keys of one name -/

theorem Sound.remap_cases {key name : String} (h : table.remap key = some name) :
    (table.fixed.lookup key = some name ∧ table.layerName key = none ∧ ∃ e ∈ table.fixed, e.2 = name) ∨
      ∃ layer suffix, table.layerName key = some (layer, suffix) ∧ name = blockName layer suffix ∧
        ∃ e ∈ table.layerSuffixes, e.2 = suffix := by
  unfold remap at h
  split at h
  · next hfixed =>
    cases h
    obtain ⟨before, after, hsplit, -⟩ := List.lookup_eq_some_iff.mp hfixed
    have hmem : (key, name) ∈ table.fixed := hsplit ▸ by simp
    exact .inl ⟨hfixed, (hsound.fixedKeys _ hmem).2, _, hmem, rfl⟩
  · obtain ⟨⟨layer, suffix⟩, hlayer, rfl⟩ := Option.map_eq_some_iff.mp h
    refine .inr ⟨layer, suffix, hlayer, rfl, ?_⟩
    simp only [layerName, Option.bind_eq_bind, Option.bind_eq_some_iff] at hlayer
    obtain ⟨rest, -, ⟨index, keySuffix⟩, -, number, -, canonical, hlookup, hpair⟩ := hlayer
    cases hpair
    obtain ⟨before, after, hsplit, -⟩ := List.lookup_eq_some_iff.mp hlookup
    exact ⟨(keySuffix, suffix), hsplit ▸ by simp, rfl⟩

/-- A name the table gives is left alone. -/
theorem Sound.name_kept {key name : String} (h : table.remap key = some name) :
    skips name = false ∧ table.remap name = none := by
  obtain ⟨-, -, e, he, rfl⟩ | ⟨layer, suffix, -, rfl, e, he, rfl⟩ := hsound.remap_cases h
  · exact (hsound.fixedNames e he).2
  · obtain ⟨hy, ht⟩ := hsound.suffixes e he
    exact ⟨skips_blockName hy ht, hsound.remap_blockName layer e.2⟩

omit hsound in
theorem canonicalize_eq_some_iff {key name : String} :
    table.canonicalize key = some name ↔ skips key = false ∧ (table.remap key).getD key = name := by
  unfold canonicalize
  split
  · next h => simp [h]
  · next h => simp [h]

theorem Sound.canonicalize_idem {key name : String} (h : table.canonicalize key = some name) :
    table.canonicalize name = some name := by
  rw [canonicalize_eq_some_iff] at h ⊢
  obtain ⟨hskips, hname⟩ := h
  cases hremap : table.remap key with
  | none =>
    rw [hremap, Option.getD_none] at hname
    subst hname
    exact ⟨hskips, by rw [hremap, Option.getD_none]⟩
  | some name' =>
    rw [hremap, Option.getD_some] at hname
    subst hname
    obtain ⟨hkept, hnone⟩ := hsound.name_kept hremap
    exact ⟨hkept, by rw [hnone, Option.getD_none]⟩

/-- Both keys have the same entry of the table. -/
def SameEntry (table : NamingTable) (key key' : String) : Prop :=
  (∃ name, table.fixed.lookup key = some name ∧ table.fixed.lookup key' = some name) ∨
    ∃ entry, table.layerName key = some entry ∧ table.layerName key' = some entry

/-- The keys are spellings of one name. -/
def Meet (table : NamingTable) (key key' : String) : Prop :=
  key = key' ∨ table.remap key = some key' ∨ table.remap key' = some key ∨ table.SameEntry key key'

omit hsound in
theorem remap_of_fixed {key name : String} (h : table.fixed.lookup key = some name) : table.remap key = some name := by
  rw [remap, h]

theorem Sound.remap_of_layerName {key : String} {layer : Nat} {suffix : String}
    (h : table.layerName key = some (layer, suffix)) : table.remap key = some (blockName layer suffix) := by
  have hfixed : table.fixed.lookup key = none := by
    refine List.lookup_eq_none_iff.mpr fun e he => bne_iff_ne.mpr fun heq => ?_
    rw [heq, (hsound.fixedKeys e he).2] at h
    cases h
  rw [remap, hfixed, h]; rfl

/-- Two remapped keys have one name when they have one entry. -/
theorem Sound.remap_eq_iff {key key' name name' : String} (h : table.remap key = some name)
    (h' : table.remap key' = some name') : name = name' ↔ table.SameEntry key key' := by
  constructor
  · rintro rfl
    obtain ⟨hfixed, -, e, he, rfl⟩ | ⟨layer, suffix, hlayer, hname, -⟩ := hsound.remap_cases h <;>
      obtain ⟨hfixed', -, e', he', hname'⟩ | ⟨layer', suffix', hlayer', hname', -⟩ := hsound.remap_cases h'
    · exact .inl ⟨_, hfixed, hfixed'⟩
    · exact absurd (hname' ▸ blockName_head layer' suffix') (hsound.fixedNames e he).1
    · exact absurd (hname' ▸ hname ▸ blockName_head layer suffix) (hsound.fixedNames e' he').1
    · obtain ⟨rfl, rfl⟩ := blockName_injective (hname.symm.trans hname')
      exact .inr ⟨_, hlayer, hlayer'⟩
  · rintro (⟨fixed, hfixed, hfixed'⟩ | ⟨⟨layer, suffix⟩, hlayer, hlayer'⟩)
    · rw [remap_of_fixed hfixed] at h
      rw [remap_of_fixed hfixed'] at h'
      cases h; cases h'; rfl
    · rw [hsound.remap_of_layerName hlayer] at h
      rw [hsound.remap_of_layerName hlayer'] at h'
      cases h; cases h'; rfl

/-- The canonical names of two keys agree when the keys are spellings of one name. -/
theorem Sound.getD_eq_iff (key key' : String) :
    (table.remap key).getD key = (table.remap key').getD key' ↔ table.Meet key key' := by
  constructor
  · intro heq
    cases h : table.remap key with
    | none =>
      cases h' : table.remap key' with
      | none => rw [h, h'] at heq; exact .inl heq
      | some name' => rw [h, h'] at heq; exact .inr (.inr (.inl (h'.trans (congrArg some heq.symm))))
    | some name =>
      cases h' : table.remap key' with
      | none => rw [h, h'] at heq; exact .inr (.inl (h.trans (congrArg some heq)))
      | some name' =>
        rw [h, h'] at heq
        exact .inr (.inr (.inr ((hsound.remap_eq_iff h h').mp heq)))
  · rintro (rfl | h | h | h)
    · rfl
    · rw [h, (hsound.name_kept h).2]; rfl
    · rw [h, (hsound.name_kept h).2]; rfl
    · obtain ⟨name, hfixed, hfixed'⟩ | ⟨⟨layer, suffix⟩, hlayer, hlayer'⟩ := h
      · rw [remap_of_fixed hfixed, remap_of_fixed hfixed']; rfl
      · rw [hsound.remap_of_layerName hlayer, hsound.remap_of_layerName hlayer']; rfl

end NamingTable

/-! ## Naming a catalog -/

namespace Architecture

def namingTable : Architecture → NamingTable
  | .llama | .qwen3 => .hfFamily
  | .lfm2 => .lfm2

theorem namingTable_sound (architecture : Architecture) : architecture.namingTable.Sound := by
  cases architecture
  · exact NamingTable.hfFamily_sound
  · exact NamingTable.hfFamily_sound
  · exact NamingTable.lfm2_sound

theorem canonicalizeParam_eq (architecture : Architecture) :
    architecture.canonicalizeParam = architecture.namingTable.canonicalize := by
  cases architecture <;> rfl

theorem canonicalizeParam_idem (architecture : Architecture) {key name : String}
    (h : architecture.canonicalizeParam key = some name) : architecture.canonicalizeParam name = some name := by
  rw [canonicalizeParam_eq] at h ⊢
  exact architecture.namingTable_sound.canonicalize_idem h

theorem sanitizeCatalog_eq (architecture : Architecture) : architecture.sanitizeCatalog = tieOutputToEmbed := by
  cases architecture <;> rfl

/-- The key that decides a parameter's name: its name where the table leaves its source key alone and keeps its name. -/
def namingKey (architecture : Architecture) (param : LogicalParameter) : String :=
  if architecture.canonicalizeParam param.sourceKey = some param.sourceKey ∧ param.canonicalName ≠ param.sourceKey ∧
      (architecture.canonicalizeParam param.canonicalName).isSome then
    param.canonicalName
  else param.sourceKey

/-- Canonicalization keeps a parameter unless its source key is a rotary cache's. -/
def Keeps (param : LogicalParameter) : Bool := !NamingTable.skips param.sourceKey

theorem canonicalizeParam_of_keeps (architecture : Architecture) {param : LogicalParameter} (h : Keeps param = true) :
    architecture.canonicalizeParam param.sourceKey =
      some ((architecture.namingTable.remap param.sourceKey).getD param.sourceKey) := by
  rw [canonicalizeParam_eq, NamingTable.canonicalize_eq_some_iff]
  exact ⟨by simpa [Keeps] using h, rfl⟩

/-- The canonical name of a kept parameter. -/
def canonicalName (architecture : Architecture) (param : LogicalParameter) : String :=
  (architecture.namingTable.remap (architecture.namingKey param)).getD (architecture.namingKey param)

theorem nameOf_eq (architecture : Architecture) (param : LogicalParameter) :
    architecture.nameOf param = if Keeps param then some (architecture.canonicalName param) else none := by
  have hsource : ∀ key, architecture.canonicalizeParam key =
      if NamingTable.skips key then none else some ((architecture.namingTable.remap key).getD key) := fun key => by
    rw [canonicalizeParam_eq, NamingTable.canonicalize]
  unfold nameOf canonicalName namingKey Keeps
  cases hskips : NamingTable.skips param.sourceKey with
  | true => simp [hsource, hskips]
  | false =>
    by_cases hsame : (architecture.namingTable.remap param.sourceKey).getD param.sourceKey = param.sourceKey ∧
        param.canonicalName ≠ param.sourceKey
    · cases hname : NamingTable.skips param.canonicalName <;> simp [hsource, hskips, hname, hsame]
    · have hkey : ¬ ((architecture.namingTable.remap param.sourceKey).getD param.sourceKey = param.sourceKey ∧
          param.canonicalName ≠ param.sourceKey ∧ (architecture.canonicalizeParam param.canonicalName).isSome) :=
        fun h => hsame ⟨h.1, h.2.1⟩
      simp only [hsource, hskips, Bool.false_eq_true, if_false, Option.some_inj] at hkey ⊢
      rw [if_neg hkey]
      simp [hsame]

theorem remapParameters_eq (architecture : Architecture) (parameters : List LogicalParameter) :
    architecture.remapParameters parameters =
      (parameters.filter Keeps).map fun param => param.renamed (architecture.canonicalName param) := by
  induction parameters with
  | nil => rfl
  | cons param parameters ih =>
    rw [remapParameters] at ih ⊢
    cases hkeeps : Keeps param with
    | true =>
      have hname : architecture.nameOf param = some (architecture.canonicalName param) := by
        rw [nameOf_eq, hkeeps, if_pos rfl]
      rw [List.filterMap_cons_some (by rw [hname]; rfl), List.filter_cons_of_pos hkeeps, List.map_cons, ih]
    | false =>
      have hname : architecture.nameOf param = none := by
        rw [nameOf_eq, hkeeps, if_neg Bool.false_ne_true]
      rw [List.filterMap_cons_none (by rw [hname]; rfl), List.filter_cons_of_neg (by rw [hkeeps]; nofun), ih]

end Architecture

/-- `tie_output_to_embed` adds an output where there is none and there is an embedding. -/
theorem tieOutputToEmbed_cases (catalog : ParameterCatalog) :
    (tieOutputToEmbed catalog = catalog ∧
      ((∃ param ∈ catalog.parameters, param.canonicalName = "output.weight") ∨
        catalog.parameters.find? (·.canonicalName == "token_embd.weight") = none)) ∨
    ∃ embedding, catalog.parameters.find? (·.canonicalName == "token_embd.weight") = some embedding ∧
      (∀ param ∈ catalog.parameters, param.canonicalName ≠ "output.weight") ∧
      tieOutputToEmbed catalog =
        { parameters := catalog.parameters ++ [tiedOutput embedding]
          metadata := AssocMap.orInsert catalog.metadata "tie_word_embeddings" (.bool true) } := by
  unfold tieOutputToEmbed
  split
  · next h =>
    obtain ⟨param, hmem, hname⟩ := List.any_eq_true.mp h
    exact .inl ⟨rfl, .inl ⟨param, hmem, beq_iff_eq.mp hname⟩⟩
  · next h =>
    have hno : ∀ param ∈ catalog.parameters, param.canonicalName ≠ "output.weight" := fun param hmem heq =>
      h (List.any_eq_true.mpr ⟨param, hmem, beq_iff_eq.mpr heq⟩)
    split
    · next hfind => exact .inl ⟨rfl, .inr hfind⟩
    · next embedding hfind => exact .inr ⟨embedding, hfind, hno, rfl⟩

namespace ArchitectureRegistry

/-- The catalog naming gives. -/
def applied (contentDigest : List FingerprintEntry → String) (architecture : Architecture)
    (catalog : CheckpointCatalog) : CheckpointCatalog :=
  let sanitized := tieOutputToEmbed
    { parameters := architecture.remapParameters catalog.parameters, metadata := catalog.metadata }
  { catalog with
    parameters := sanitized.parameters
    metadata := sanitized.metadata
    schemaFingerprint := schemaFingerprintFromParameters contentDigest sanitized.parameters }

theorem require_id (architecture : Architecture) : require architecture.id = .ok architecture := by
  cases architecture <;> rfl

theorem applyNaming_eq (contentDigest : List FingerprintEntry → String) (architecture : Architecture)
    (catalog : CheckpointCatalog) :
    applyNaming contentDigest architecture.id catalog = .ok (applied contentDigest architecture catalog) := by
  have hmetadata : ∀ parameters,
      AssocMap.orInsertAll catalog.metadata (tieOutputToEmbed { parameters, metadata := catalog.metadata }).metadata =
        (tieOutputToEmbed { parameters, metadata := catalog.metadata }).metadata := fun parameters => by
    obtain ⟨htie, -⟩ | ⟨embedding, -, -, htie⟩ := tieOutputToEmbed_cases { parameters, metadata := catalog.metadata }
    · rw [htie]
      exact AssocMap.orInsertAll_of_isSome _ fun e => AssocMap.get_isSome_of_mem
    · rw [htie]
      exact AssocMap.orInsertAll_orInsert _ _ _
  simp only [applyNaming, require_id, bind, Except.bind, pure, Except.pure, architecture.sanitizeCatalog_eq, applied,
    hmetadata]

/-- The kept parameters under their names, in order, and what naming adds to them. -/
theorem applied_parameters (contentDigest : List FingerprintEntry → String) (architecture : Architecture)
    (catalog : CheckpointCatalog) :
    ∃ tied, (applied contentDigest architecture catalog).parameters =
        architecture.remapParameters catalog.parameters ++ tied ∧
      (tied = [] ∨ ∃ embedding ∈ architecture.remapParameters catalog.parameters,
        embedding.canonicalName = "token_embd.weight" ∧ tied = [tiedOutput embedding] ∧
          ∀ param ∈ architecture.remapParameters catalog.parameters, param.canonicalName ≠ "output.weight") := by
  obtain ⟨htie, -⟩ | ⟨embedding, hfind, hno, htie⟩ := tieOutputToEmbed_cases
    { parameters := architecture.remapParameters catalog.parameters, metadata := catalog.metadata }
  · exact ⟨[], by rw [applied, htie, List.append_nil], .inl rfl⟩
  · refine ⟨[tiedOutput embedding], by rw [applied, htie], .inr ⟨embedding, List.mem_of_find?_eq_some hfind, ?_, rfl, hno⟩⟩
    exact beq_iff_eq.mp (List.find?_some hfind :)

/-- **Naming renames every kept parameter in place, and shadows none where no two of their keys meet.**
The result is the parameters whose source key is no rotary cache's, in order, each under its one
canonical name with its storage as it was, and at most the output tied to the embedding. Its names are
pairwise distinct exactly when no two of the kept parameters have keys that are spellings of one name. -/
theorem naming_distinct_iff (contentDigest : List FingerprintEntry → String) (architecture : Architecture)
    (catalog : CheckpointCatalog) :
    ∃ result tied, applyNaming contentDigest architecture.id catalog = .ok result ∧
      result.parameters = (catalog.parameters.filter Architecture.Keeps).map
        (fun param => param.renamed (architecture.canonicalName param)) ++ tied ∧
      (tied = [] ∨ ∃ embedding ∈ result.parameters, embedding.canonicalName = "token_embd.weight" ∧
        tied = [tiedOutput embedding]) ∧
      ((result.parameters.map (·.canonicalName)).Nodup ↔
        (catalog.parameters.filter Architecture.Keeps).Pairwise fun p q =>
          ¬ architecture.namingTable.Meet (architecture.namingKey p) (architecture.namingKey q)) := by
  obtain ⟨tied, hparameters, htied⟩ := applied_parameters contentDigest architecture catalog
  refine ⟨_, tied, applyNaming_eq contentDigest architecture catalog, ?_, ?_, ?_⟩
  · rw [hparameters, Architecture.remapParameters_eq]
  · rw [hparameters]
    exact htied.imp_right fun ⟨embedding, hmem, hname, heq, _⟩ => ⟨embedding, List.mem_append_left _ hmem, hname, heq⟩
  · have hnames : ((architecture.remapParameters catalog.parameters).map (·.canonicalName)).Nodup ↔
        (catalog.parameters.filter Architecture.Keeps).Pairwise fun p q =>
          ¬ architecture.namingTable.Meet (architecture.namingKey p) (architecture.namingKey q) := by
      rw [Architecture.remapParameters_eq, List.map_map, List.Nodup, List.pairwise_map]
      refine List.Pairwise.iff fun p q => not_congr ?_
      exact architecture.namingTable_sound.getD_eq_iff _ _
    rw [← hnames, hparameters, List.map_append]
    obtain rfl | ⟨embedding, -, -, rfl, hno⟩ := htied
    · rw [List.map_nil, List.append_nil]
    · rw [List.map_singleton, List.nodup_append]
      refine ⟨And.left, fun h => ⟨h, List.pairwise_singleton .., fun name hname output houtput => ?_⟩⟩
      obtain ⟨param, hparam, rfl⟩ := List.mem_map.mp hname
      rw [List.mem_singleton.mp houtput]
      exact hno param hparam

/-- A parameter as a container stores it. -/
def storedParameter (key : String) : LogicalParameter where
  canonicalName := key
  role := inferRole key
  logicalType := { shape := [4], elementType := .f32 }
  encoding := .plain .f32
  components := [{ name := "data", key, sourceFileIndex := 0, shape := [4], storageType := .scalar .f32
                   byteRanges := [{ offset := 0, length := 16 }], alignment := 1 }]
  aliases := [key]

def storedCatalog (keys : List String) : CheckpointCatalog where
  sourceFiles := [{ path := "model.safetensors", sizeBytes := 16 }]
  metadata := []
  parameters := keys.map storedParameter
  schemaFingerprint := { digest := "", entryCount := 0, totalBytes := 0 }

/-- A checkpoint with `model.norm.weight` and `norm.weight` has two final norms after naming. -/
theorem naming_shadows :
    ¬ ∀ (contentDigest : List FingerprintEntry → String) (architecture : Architecture) (catalog : CheckpointCatalog),
      (catalog.parameters.map (·.sourceKey)).Nodup → ∀ result,
        applyNaming contentDigest architecture.id catalog = .ok result →
          (result.parameters.map (·.canonicalName)).Nodup := by
  intro h
  have hnames := h (fun _ => "") .llama (storedCatalog ["model.norm.weight", "norm.weight"]) (by decide) _
    (applyNaming_eq ..)
  exact absurd hnames (by decide)

/-! ## Naming a named catalog -/

/-- The condition under which naming leaves its own result alone: no output is tied, or the embedding
it is tied to comes first under a key that naming leaves alone. -/
def TieStands (architecture : Architecture) (catalog : CheckpointCatalog) : Prop :=
  (∃ param ∈ catalog.parameters, architecture.nameOf param = some "output.weight") ∨
    ∀ embedding, catalog.parameters.find? (architecture.nameOf · == some "token_embd.weight") = some embedding →
      ∀ key ∈ embedding.aliases.head?, architecture.canonicalizeParam key = some key

theorem renamed_sourceKey (param : LogicalParameter) (name : String) :
    (param.renamed name).sourceKey = param.aliases.head?.getD name := by
  unfold LogicalParameter.renamed LogicalParameter.sourceKey
  cases param.aliases with
  | nil => rfl
  | cons key aliases => simp only [List.cons_append, List.head?_cons]; split <;> rfl

theorem renamed_renamed (param : LogicalParameter) (name : String) :
    (param.renamed name).renamed name = param.renamed name := by
  have hmem : name ∈ (param.renamed name).aliases := by
    simp only [LogicalParameter.renamed]
    split
    · assumption
    · exact List.mem_append_right _ List.mem_cons_self
  rw [LogicalParameter.renamed, if_pos hmem]
  rfl

/-- A kept parameter's name, by how the table takes its source key. -/
theorem canonicalName_cases (architecture : Architecture) {param : LogicalParameter}
    (hkeeps : Architecture.Keeps param = true) :
    (∃ name, architecture.namingTable.remap param.sourceKey = some name ∧ architecture.canonicalName param = name) ∨
      architecture.namingTable.remap param.sourceKey = none ∧
        architecture.canonicalName param = (architecture.canonicalizeParam param.canonicalName).getD param.sourceKey := by
  have hsource := architecture.canonicalizeParam_of_keeps hkeeps
  unfold Architecture.canonicalName Architecture.namingKey
  cases hremap : architecture.namingTable.remap param.sourceKey with
  | some name =>
    rw [hremap, Option.getD_some] at hsource
    have hne : name ≠ param.sourceKey := by
      rintro rfl
      rw [(architecture.namingTable_sound.name_kept hremap).2] at hremap
      cases hremap
    refine .inl ⟨name, rfl, ?_⟩
    rw [if_neg (by rw [hsource]; exact fun h => hne (Option.some_inj.mp h.1)), hremap, Option.getD_some]
  | none =>
    rw [hremap, Option.getD_none] at hsource
    refine .inr ⟨rfl, ?_⟩
    cases hname : architecture.canonicalizeParam param.canonicalName with
    | none => rw [if_neg fun h => Bool.false_ne_true h.2.2, hremap]
    | some name =>
      by_cases hsame : param.canonicalName = param.sourceKey
      · rw [hsame, hsource, Option.some_inj] at hname
        rw [if_neg fun h => h.2.1 hsame, hremap]
        exact hname
      · rw [if_pos ⟨hsource, hsame, rfl⟩]
        rw [architecture.canonicalizeParam_eq] at hname
        exact (NamingTable.canonicalize_eq_some_iff.mp hname).2

/-- A canonical name is left alone. -/
theorem canonicalizeParam_canonicalName (architecture : Architecture) {param : LogicalParameter}
    (hkeeps : Architecture.Keeps param = true) :
    architecture.canonicalizeParam (architecture.canonicalName param) = some (architecture.canonicalName param) := by
  have hsource := architecture.canonicalizeParam_of_keeps hkeeps
  obtain ⟨name, hremap, hname⟩ | ⟨hnone, hname⟩ := canonicalName_cases architecture hkeeps
  · rw [hremap, Option.getD_some] at hsource
    rw [hname]
    exact architecture.canonicalizeParam_idem hsource
  · rw [hname]
    cases hown : architecture.canonicalizeParam param.canonicalName with
    | none => rwa [hnone, Option.getD_none] at hsource
    | some name => exact architecture.canonicalizeParam_idem hown

/-- A kept parameter with a canonical name keeps it, unless the table remaps its source key. -/
theorem canonicalName_eq (architecture : Architecture) {param : LogicalParameter}
    (hkeeps : Architecture.Keeps param = true)
    (hname : architecture.canonicalizeParam param.canonicalName = some param.canonicalName) :
    architecture.canonicalName param = (architecture.namingTable.remap param.sourceKey).getD param.canonicalName := by
  obtain ⟨name, hremap, hcanonical⟩ | ⟨hnone, hcanonical⟩ := canonicalName_cases architecture hkeeps
  · rw [hcanonical, hremap, Option.getD_some]
  · rw [hcanonical, hnone, hname, Option.getD_some, Option.getD_none]

/-- A parameter that naming leaves alone. -/
structure Named (architecture : Architecture) (param : LogicalParameter) : Prop where
  keeps : Architecture.Keeps param = true
  name : architecture.canonicalName param = param.canonicalName
  renamed : param.renamed param.canonicalName = param
  aliases : param.aliases ≠ []

theorem named_renamed (architecture : Architecture) {param : LogicalParameter}
    (hkeeps : Architecture.Keeps param = true) :
    Named architecture (param.renamed (architecture.canonicalName param)) := by
  have hfixed := canonicalizeParam_canonicalName architecture hkeeps
  have hsource := renamed_sourceKey param (architecture.canonicalName param)
  have hown : (param.renamed (architecture.canonicalName param)).canonicalName = architecture.canonicalName param := rfl
  have haliases : (param.renamed (architecture.canonicalName param)).aliases ≠ [] := by
    simp only [LogicalParameter.renamed]
    split
    · next hmem => exact List.ne_nil_of_mem hmem
    · exact List.concat_ne_nil _ _
  cases hhead : param.aliases.head? with
  | none =>
    rw [hhead, Option.getD_none] at hsource
    rw [architecture.canonicalizeParam_eq, NamingTable.canonicalize_eq_some_iff] at hfixed
    have hkept : Architecture.Keeps (param.renamed (architecture.canonicalName param)) = true := by
      rw [Architecture.Keeps, hsource, hfixed.1]; rfl
    refine ⟨hkept, ?_, renamed_renamed param _, haliases⟩
    rw [canonicalName_eq architecture hkept (canonicalizeParam_canonicalName architecture hkeeps), hsource, hown]
    exact hfixed.2
  | some key =>
    have hkey : param.sourceKey = key := by rw [LogicalParameter.sourceKey, hhead, Option.getD_some]
    rw [hhead, Option.getD_some, ← hkey] at hsource
    have hkept : Architecture.Keeps (param.renamed (architecture.canonicalName param)) = true := by
      rw [Architecture.Keeps, hsource]; exact hkeeps
    refine ⟨hkept, ?_, renamed_renamed param _, haliases⟩
    rw [canonicalName_eq architecture hkept hfixed, hsource, hown]
    obtain ⟨name, hremap, hcanonical⟩ | ⟨hnone, -⟩ := canonicalName_cases architecture hkeeps
    · rw [hremap, hcanonical, Option.getD_some]
    · rw [hnone, Option.getD_none]

theorem named_of_mem {architecture : Architecture} {parameters : List LogicalParameter} {param : LogicalParameter}
    (h : param ∈ architecture.remapParameters parameters) : Named architecture param := by
  rw [Architecture.remapParameters_eq] at h
  obtain ⟨source, hsource, rfl⟩ := List.mem_map.mp h
  exact named_renamed architecture (List.mem_filter.mp hsource).2

theorem remapParameters_of_named {architecture : Architecture} {parameters : List LogicalParameter}
    (h : ∀ param ∈ parameters, Named architecture param) : architecture.remapParameters parameters = parameters := by
  rw [Architecture.remapParameters_eq, List.filter_eq_self.mpr fun param hmem => (h param hmem).keeps]
  refine (List.map_congr_left fun param hmem => ?_).trans (List.map_id _)
  rw [(h param hmem).name, (h param hmem).renamed]; rfl

/-- The tied output is an output again when the table leaves the embedding's key alone, and else an embedding. -/
theorem remapParameters_tied {architecture : Architecture} {embedding : LogicalParameter}
    (h : Named architecture embedding) :
    architecture.remapParameters [tiedOutput embedding] =
      if architecture.namingTable.remap embedding.sourceKey = none then [tiedOutput embedding]
      else [(tiedOutput embedding).renamed embedding.canonicalName] := by
  have hsource : (tiedOutput embedding).sourceKey = embedding.sourceKey := by
    obtain ⟨key, aliases, haliases⟩ := List.exists_cons_of_ne_nil h.aliases
    simp only [LogicalParameter.sourceKey, tiedOutput, haliases]
    rfl
  have hkeeps : Architecture.Keeps (tiedOutput embedding) = true := by
    rw [Architecture.Keeps, hsource]; exact h.keeps
  have houtput : architecture.canonicalizeParam "output.weight" = some "output.weight" := by
    cases architecture <;> decide
  have hown := canonicalizeParam_canonicalName architecture h.keeps
  rw [h.name] at hown
  have hembedding := canonicalName_eq architecture h.keeps hown
  have htied := canonicalName_eq architecture hkeeps houtput
  rw [Architecture.remapParameters_eq, List.filter_cons_of_pos hkeeps, List.filter_nil, List.map_singleton, htied, hsource]
  cases hremap : architecture.namingTable.remap embedding.sourceKey with
  | none =>
    rw [if_pos rfl, Option.getD_none, LogicalParameter.renamed, if_pos (by simp [tiedOutput])]
    have hrole : inferRole "output.weight" = .output := by decide
    simp only [tiedOutput, hrole]
  | some name =>
    rw [hremap, Option.getD_some, h.name] at hembedding
    rw [if_neg nofun, Option.getD_some, hembedding]

/-- The first embedding among the renamed parameters is the first that is named so. -/
theorem find?_embedding (architecture : Architecture) (parameters : List LogicalParameter) :
    (architecture.remapParameters parameters).find? (·.canonicalName == "token_embd.weight") =
      (parameters.find? (architecture.nameOf · == some "token_embd.weight")).map (·.renamed "token_embd.weight") := by
  have hname : ∀ param : LogicalParameter,
      ((architecture.nameOf param).map param.renamed).any (·.canonicalName == "token_embd.weight") =
        (architecture.nameOf param == some "token_embd.weight") := fun param => by
    cases architecture.nameOf param <;> rfl
  rw [Architecture.remapParameters, List.find?_filterMap]
  simp only [hname]
  cases hfind : parameters.find? (architecture.nameOf · == some "token_embd.weight") with
  | none => rfl
  | some param =>
    have hparam : architecture.nameOf param = some "token_embd.weight" := beq_iff_eq.mp (List.find?_some hfind :)
    rw [Option.bind_some, hparam]; rfl

/-- The tie stands when the embedding it comes from has a source key that the table leaves alone. -/
theorem tieStands_iff (architecture : Architecture) (catalog : CheckpointCatalog) :
    TieStands architecture catalog ↔
      (∃ param ∈ architecture.remapParameters catalog.parameters, param.canonicalName = "output.weight") ∨
        ∀ embedding, (architecture.remapParameters catalog.parameters).find? (·.canonicalName == "token_embd.weight") =
          some embedding → architecture.namingTable.remap embedding.sourceKey = none := by
  rw [find?_embedding]
  refine or_congr ⟨?_, ?_⟩ ?_
  · rintro ⟨param, hmem, hname⟩
    have hrenamed : (architecture.nameOf param).map param.renamed = some (param.renamed "output.weight") := by
      rw [hname, Option.map_some]
    exact ⟨_, List.mem_filterMap.mpr ⟨param, hmem, hrenamed⟩, rfl⟩
  · rintro ⟨renamed, hmem, hname⟩
    obtain ⟨param, hparam, hrenamed⟩ := List.mem_filterMap.mp hmem
    obtain ⟨name, hnameOf, rfl⟩ := Option.map_eq_some_iff.mp hrenamed
    exact ⟨param, hparam, hnameOf.trans (congrArg some hname)⟩
  · cases hfind : catalog.parameters.find? (architecture.nameOf · == some "token_embd.weight") with
    | none => simp only [Option.map_none, reduceCtorEq, false_implies, implies_true]
    | some param =>
      have hname : architecture.nameOf param = some "token_embd.weight" := beq_iff_eq.mp (List.find?_some hfind :)
      simp only [Option.map_some, Option.some_inj, forall_eq', renamed_sourceKey]
      cases hhead : param.aliases.head? with
      | none =>
        refine iff_of_true nofun ?_
        cases architecture <;> decide
      | some key =>
        have hkeeps : Architecture.Keeps param = true := by
          rw [Architecture.nameOf_eq] at hname
          by_contra h
          rw [if_neg h] at hname
          cases hname
        have hkey : param.sourceKey = key := by rw [LogicalParameter.sourceKey, hhead, Option.getD_some]
        have hsource := architecture.canonicalizeParam_of_keeps hkeeps
        rw [hkey] at hsource
        simp only [Option.mem_some_iff, forall_eq', Option.getD_some, hsource, Option.some_inj]
        cases hremap : architecture.namingTable.remap key with
        | none => exact iff_of_true rfl rfl
        | some name =>
          refine iff_of_false (fun h => ?_) nofun
          have hnone := (architecture.namingTable_sound.name_kept hremap).2
          rw [show name = key from h, hremap] at hnone
          cases hnone

theorem tieOutputToEmbed_of_output {catalog : ParameterCatalog}
    (h : ∃ param ∈ catalog.parameters, param.canonicalName = "output.weight") : tieOutputToEmbed catalog = catalog := by
  obtain ⟨param, hmem, hname⟩ := h
  have hany : catalog.parameters.any (·.canonicalName == "output.weight") = true :=
    List.any_eq_true.mpr ⟨param, hmem, beq_iff_eq.mpr hname⟩
  rw [tieOutputToEmbed, hany, if_pos rfl]

/-- Naming twice gives what naming once gives when its last step does. -/
theorem applied_applied_iff (contentDigest : List FingerprintEntry → String) (architecture : Architecture)
    (catalog : CheckpointCatalog) {named : ParameterCatalog}
    (hnamed : named = tieOutputToEmbed
      { parameters := architecture.remapParameters catalog.parameters, metadata := catalog.metadata }) :
    applied contentDigest architecture (applied contentDigest architecture catalog) =
        applied contentDigest architecture catalog ↔
      tieOutputToEmbed { parameters := architecture.remapParameters named.parameters, metadata := named.metadata } =
        named := by
  subst hnamed
  constructor
  · intro h
    exact congrArg (fun result => ParameterCatalog.mk result.parameters result.metadata) h
  · intro h
    simp only [applied, h]

/-- **Naming is idempotent exactly when the tie stands.** The result of naming, named again, is itself
unless an output was tied to an embedding whose first key the table remaps: the second naming reads that
key first among the output's aliases, names the output an embedding, and ties one more output. -/
theorem naming_idempotent_iff (contentDigest : List FingerprintEntry → String) (architecture : Architecture)
    (catalog : CheckpointCatalog) :
    ∃ result, applyNaming contentDigest architecture.id catalog = .ok result ∧
      (applyNaming contentDigest architecture.id result = .ok result ↔ TieStands architecture catalog) := by
  refine ⟨_, applyNaming_eq contentDigest architecture catalog, ?_⟩
  rw [applyNaming_eq, Except.ok.injEq, tieStands_iff, applied_applied_iff contentDigest architecture catalog rfl]
  have hremapped : ∀ param ∈ architecture.remapParameters catalog.parameters, Named architecture param :=
    fun param => named_of_mem
  generalize architecture.remapParameters catalog.parameters = parameters at hremapped
  generalize catalog.metadata = metadata
  obtain ⟨htie, hsettled⟩ | ⟨embedding, hfind, hno, htie⟩ := tieOutputToEmbed_cases { parameters, metadata }
  · -- No output is tied, and the second naming finds the catalog as the first left it.
    rw [htie]
    simp only [remapParameters_of_named hremapped, htie, true_iff]
    exact hsettled.imp_right fun hnone embedding hfind => by rw [hnone] at hfind; cases hfind
  · have hembedding := hremapped embedding (List.mem_of_find?_eq_some hfind)
    have hstands : ((∃ param ∈ parameters, param.canonicalName = "output.weight") ∨
        ∀ embedding, parameters.find? (·.canonicalName == "token_embd.weight") = some embedding →
          architecture.namingTable.remap embedding.sourceKey = none) ↔
        architecture.namingTable.remap embedding.sourceKey = none := by
      constructor
      · rintro (⟨param, hmem, hname⟩ | h)
        · exact absurd hname (hno param hmem)
        · exact h embedding hfind
      · refine fun h => .inr fun other hother => ?_
        rw [hfind, Option.some_inj] at hother
        exact hother ▸ h
    have happend : architecture.remapParameters (parameters ++ [tiedOutput embedding]) =
        parameters ++ architecture.remapParameters [tiedOutput embedding] := by
      rw [Architecture.remapParameters, List.filterMap_append]
      exact congrArg (· ++ _) (remapParameters_of_named hremapped)
    rw [hstands, htie]
    simp only [happend, remapParameters_tied hembedding]
    split
    · next hkey =>
      refine iff_of_true (tieOutputToEmbed_of_output ?_) hkey
      exact ⟨tiedOutput embedding, List.mem_append_right _ List.mem_cons_self, rfl⟩
    · next hkey =>
      -- The second naming makes an embedding of the output, and ties a further one.
      refine iff_of_false (fun h => ?_) hkey
      have hname : embedding.canonicalName = "token_embd.weight" := beq_iff_eq.mp (List.find?_some hfind :)
      obtain ⟨-, ⟨param, hmem, hparam⟩ | hnone⟩ | ⟨other, -, -, htie'⟩ := tieOutputToEmbed_cases
        { parameters := parameters ++ [(tiedOutput embedding).renamed embedding.canonicalName]
          metadata := AssocMap.orInsert metadata "tie_word_embeddings" (.bool true) }
      · obtain hmem | hmem := List.mem_append.mp hmem
        · exact hno param hmem hparam
        · rw [List.mem_singleton.mp hmem, LogicalParameter.renamed, hname] at hparam
          exact absurd hparam (by decide)
      · rw [List.find?_append, hfind] at hnone
        cases hnone
      · have hlength := congrArg (·.parameters.length) (htie'.symm.trans h)
        simp at hlength

/-- A checkpoint whose one tensor is `model.embed_tokens.weight` has two parameters after naming, and three
after naming again. -/
theorem naming_ties_twice :
    ¬ ∀ (contentDigest : List FingerprintEntry → String) (architecture : Architecture) (catalog : CheckpointCatalog),
      ∀ result, applyNaming contentDigest architecture.id catalog = .ok result →
        applyNaming contentDigest architecture.id result = .ok result := by
  intro h
  have htwice := h (fun _ => "") .llama (storedCatalog ["model.embed_tokens.weight"]) _ (applyNaming_eq ..)
  rw [applyNaming_eq, Except.ok.injEq] at htwice
  exact absurd (congrArg (·.parameters.length) htwice) (by decide)

end ArchitectureRegistry

end Dyninfer
