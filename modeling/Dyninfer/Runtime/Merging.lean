/-
What `bpe_merge` computes: each round joins the neighbours of the lowest rank
where they stand for the first time, and the rounds end where no neighbours
have a rank. That each round leaves a piece less is what ends them.
-/
import Dyninfer.Lib.PairMerging
import Dyninfer.Runtime.TokenizerFacts

namespace Dyninfer

open PairMerging

variable {tokenizer : BpeTokenizer}

namespace BpeTokenizer

/-- The rank of two pieces as neighbours. -/
def rank (tokenizer : BpeTokenizer) (a b : String) : Option Nat := tokenizer.merges.get (a, b)

/-- The rank of the neighbours at `i`. -/
def rankAt (tokenizer : BpeTokenizer) (pieces : List String) (i : Nat) : Option Nat :=
  tokenizer.rank (pieces.getD i "") (pieces.getD (i + 1) "")

/-- One round of the merge loop. -/
def mergeStep (tokenizer : BpeTokenizer) (pieces : List String) : Option (List String) :=
  (tokenizer.bestMerge pieces).2.map fun i =>
    pieces.take i ++ (pieces.getD i "" ++ pieces.getD (i + 1) "") :: pieces.drop (i + 2)

end BpeTokenizer

/-! ## One scan -/

/-- The scan has found the lowest rank of the first `n` neighbours, where it stands for the first time. -/
def Best (rankAt : Nat → Option Nat) (n : Nat) (best : Nat × Option Nat) : Prop :=
  best = (2 ^ 32 - 1, none) ∧ (∀ j < n, ∀ s, rankAt j = some s → 2 ^ 32 - 1 ≤ s) ∨
    ∃ i < n, best.2 = some i ∧ rankAt i = some best.1 ∧ (∀ j < n, ∀ s, rankAt j = some s → best.1 ≤ s) ∧
      ∀ j < i, ∀ s, rankAt j = some s → best.1 < s

theorem bestStep_cases (pieces : List String) (best : Nat × Option Nat) (i : Nat) :
    (tokenizer.bestStep pieces best i = best ∧ ∀ s, tokenizer.rankAt pieces i = some s → best.1 ≤ s) ∨
      ∃ r, tokenizer.rankAt pieces i = some r ∧ r < best.1 ∧ tokenizer.bestStep pieces best i = (r, some i) := by
  unfold BpeTokenizer.bestStep BpeTokenizer.rankAt BpeTokenizer.rank
  cases tokenizer.merges.get (pieces.getD i "", pieces.getD (i + 1) "") with
  | none => exact .inl ⟨rfl, nofun⟩
  | some r =>
    simp only [Option.some_inj]
    split
    · next hlt => exact .inr ⟨r, rfl, hlt, rfl⟩
    · next hge => exact .inl ⟨rfl, fun s hs => hs ▸ Nat.not_lt.mp hge⟩

theorem best_scan (pieces : List String) (n : Nat) : Best (tokenizer.rankAt pieces) n
    ((List.range n).foldl (tokenizer.bestStep pieces) (2 ^ 32 - 1, none)) := by
  induction n with
  | zero => exact .inl ⟨rfl, fun j hj => absurd hj (Nat.not_lt_zero j)⟩
  | succ n ih =>
    rw [List.range_succ, List.foldl_append]
    generalize (List.range n).foldl (tokenizer.bestStep pieces) (2 ^ 32 - 1, none) = best at ih ⊢
    rw [List.foldl_cons, List.foldl_nil]
    -- what the last neighbours add to a statement about all before them
    have hlast : ∀ {p : Nat → Prop}, (∀ j < n, p j) → p n → ∀ j < n + 1, p j := by
      intro p hp hn j hj
      rcases Nat.lt_succ_iff_lt_or_eq.mp hj with hj | rfl
      · exact hp j hj
      · exact hn
    rcases bestStep_cases pieces best n with ⟨hstep, hkeep⟩ | ⟨r, hrank, hlt, hstep⟩
    · rw [hstep]
      rcases ih with ⟨hnone, hall⟩ | ⟨i, hi, hfound, hrank, hall, hfirst⟩
      · rw [hnone] at hkeep
        exact .inl ⟨hnone, hlast hall hkeep⟩
      · exact .inr ⟨i, by omega, hfound, hrank, hlast hall hkeep, hfirst⟩
    · rw [hstep]
      have hbefore : ∀ j < n, ∀ s, tokenizer.rankAt pieces j = some s → r < s := by
        intro j hj s hs
        rcases ih with ⟨hnone, hall⟩ | ⟨i, -, -, -, hall, -⟩
        · rw [hnone] at hlt
          exact Nat.lt_of_lt_of_le hlt (hall j hj s hs)
        · exact Nat.lt_of_lt_of_le hlt (hall j hj s hs)
      refine .inr ⟨n, by omega, rfl, hrank, hlast (fun j hj s hs => (hbefore j hj s hs).le) fun s hs => ?_, hbefore⟩
      rw [hrank, Option.some_inj] at hs
      exact hs.le

/-! ## One round -/

/-- Ranks that the scan can see: all are below its start value. -/
def RanksBelowMax (tokenizer : BpeTokenizer) : Prop := ∀ a b r, tokenizer.rank a b = some r → r < 2 ^ 32 - 1

theorem exists_of_adjacent {pieces : List String} {a b : String} (h : Adjacent a b pieces) :
    ∃ j < pieces.length - 1, pieces.getD j "" = a ∧ pieces.getD (j + 1) "" = b := by
  obtain ⟨before, after, rfl⟩ := h
  refine ⟨before.length, ?_, by simp, by simp⟩
  simp only [List.length_append, List.length_cons, List.length_nil]
  omega

/-- Neighbours within a first part and one piece more, as neighbours of the whole. -/
theorem exists_of_adjacent_take {pieces : List String} {a b : String} {i : Nat} (hi : i + 1 < pieces.length)
    (h : Adjacent a b (pieces.take i ++ [pieces.getD i ""])) :
    ∃ j < i, pieces.getD j "" = a ∧ pieces.getD (j + 1) "" = b := by
  have htake : pieces.take i ++ [pieces.getD i ""] = pieces.take (i + 1) := by
    rw [List.take_add_one, List.getD_eq_getElem?_getD, List.getElem?_eq_getElem (by omega)]
    rfl
  rw [htake] at h
  obtain ⟨j, hj, ha, hb⟩ := exists_of_adjacent h
  rw [List.length_take] at hj
  have hget : ∀ k < i + 1, (pieces.take (i + 1)).getD k "" = pieces.getD k "" := by
    intro k hk
    rw [List.getD_eq_getElem?_getD, List.getD_eq_getElem?_getD, List.getElem?_take_of_lt hk]
  exact ⟨j, by omega, (hget j (by omega)).symm.trans ha, (hget (j + 1) (by omega)).symm.trans hb⟩

theorem step_of_mergeStep {pieces pieces' : List String} (h : tokenizer.mergeStep pieces = some pieces') :
    Step tokenizer.rank (· ++ ·) pieces pieces' := by
  obtain ⟨i, hbest, rfl⟩ := Option.map_eq_some_iff.mp h
  have hlength := (bestMerge_spec hbest).1
  have hscan := @best_scan tokenizer pieces (pieces.length - 1)
  rcases hscan with ⟨hnone, -⟩ | ⟨i', hi', hfound, hrank, hall, hfirst⟩
  · unfold BpeTokenizer.bestMerge at hbest
    rw [hnone] at hbest
    cases hbest
  · have hsame : i' = i := Option.some.inj (hfound.symm.trans hbest)
    subst hsame
    have hsplit := exists_of_getD hlength
    have hstep : Step tokenizer.rank (· ++ ·)
        (pieces.take i' ++ pieces.getD i' "" :: pieces.getD (i' + 1) "" :: pieces.drop (i' + 2))
        (pieces.take i' ++ (pieces.getD i' "" ++ pieces.getD (i' + 1) "") :: pieces.drop (i' + 2)) := by
      refine .mk hrank (fun x y s hadjacent hs => ?_) fun hadjacent => ?_
      · rw [← hsplit] at hadjacent
        obtain ⟨j, hj, rfl, rfl⟩ := exists_of_adjacent hadjacent
        exact hall j hj s hs
      · obtain ⟨j, hj, ha, hb⟩ := exists_of_adjacent_take hlength hadjacent
        refine absurd (hfirst j hj _ ?_) (Nat.lt_irrefl _)
        rw [BpeTokenizer.rankAt, ha, hb]
        exact hrank
    rwa [← hsplit] at hstep

theorem length_mergeStep {pieces pieces' : List String} (h : tokenizer.mergeStep pieces = some pieces') :
    pieces'.length < pieces.length := by
  obtain ⟨i, hbest, rfl⟩ := Option.map_eq_some_iff.mp h
  have hlength := (bestMerge_spec hbest).1
  simp only [List.length_append, List.length_cons, List.length_take, List.length_drop]
  omega

theorem normal_of_mergeStep (hmax : RanksBelowMax tokenizer) {pieces : List String} (h : tokenizer.mergeStep pieces = none) :
    Normal tokenizer.rank pieces := by
  have hbest : (tokenizer.bestMerge pieces).2 = none := Option.map_eq_none_iff.mp h
  intro a b hadjacent
  obtain ⟨j, hj, rfl, rfl⟩ := exists_of_adjacent hadjacent
  rcases @best_scan tokenizer pieces (pieces.length - 1) with ⟨-, hall⟩ | ⟨i, -, hfound, -⟩
  · cases hrank : tokenizer.rank (pieces.getD j "") (pieces.getD (j + 1) "") with
    | none => rfl
    | some r => exact absurd (hmax _ _ r hrank) (Nat.not_lt.mpr (hall j hj r hrank))
  · cases hfound.symm.trans hbest

/-! ## The loop -/

theorem mergeLoop_succ (n : Nat) (pieces : List String) :
    tokenizer.mergeLoop (n + 1) pieces = ((tokenizer.mergeStep pieces).map (tokenizer.mergeLoop n)).getD pieces := by
  rw [BpeTokenizer.mergeLoop, BpeTokenizer.mergeStep]
  cases (tokenizer.bestMerge pieces).2 <;> rfl

theorem endsIn_mergeLoop (hmax : RanksBelowMax tokenizer) {n : Nat} {pieces : List String} (hn : pieces.length ≤ n) :
    EndsIn tokenizer.rank (· ++ ·) pieces (tokenizer.mergeLoop n pieces) := by
  induction n generalizing pieces with
  | zero =>
    cases List.length_eq_zero_iff.mp (Nat.le_zero.mp hn)
    exact ⟨.refl, normal_of_mergeStep hmax rfl⟩
  | succ n ih =>
    rw [mergeLoop_succ]
    cases hstep : tokenizer.mergeStep pieces with
    | none => exact ⟨.refl, normal_of_mergeStep hmax hstep⟩
    | some pieces' =>
      have hshort := length_mergeStep hstep
      obtain ⟨hsteps, hnormal⟩ := ih (by omega : pieces'.length ≤ n)
      exact ⟨.head (step_of_mergeStep hstep) hsteps, hnormal⟩

theorem endsIn_bpeMerge (hmax : RanksBelowMax tokenizer) (pieces : List String) :
    EndsIn tokenizer.rank (· ++ ·) pieces (tokenizer.bpeMerge pieces) := by
  unfold BpeTokenizer.bpeMerge
  split
  · next hshort =>
    refine ⟨.refl, fun a b hadjacent => ?_⟩
    obtain ⟨j, hj, -⟩ := exists_of_adjacent hadjacent
    omega
  · exact endsIn_mergeLoop hmax (Nat.le_refl _)

/-- Joining keeps the text. -/
theorem join_steps {pieces pieces' : List String} (h : Relation.ReflTransGen (Step tokenizer.rank (· ++ ·)) pieces pieces') :
    String.join pieces' = String.join pieces := by
  induction h with
  | refl => rfl
  | tail _ hstep ih =>
    rw [← ih]
    obtain ⟨-, -, -⟩ := hstep
    simp [String.join_append, String.join_cons, String.append_assoc]

/-- **Canonical merging.** The text is kept, no neighbours with a rank are left, and the result is the one list that
joining the lowest-ranked neighbours, the first ones at a time, ends in. -/
theorem bpe_merge_canonical (hmax : RanksBelowMax tokenizer)
    (hinj : ∀ a b a' b' r, tokenizer.rank a b = some r → tokenizer.rank a' b' = some r → a = a' ∧ b = b')
    (pieces : List String) :
    String.join (tokenizer.bpeMerge pieces) = String.join pieces ∧ Normal tokenizer.rank (tokenizer.bpeMerge pieces) ∧
      Relation.ReflTransGen (Step tokenizer.rank (· ++ ·)) pieces (tokenizer.bpeMerge pieces) ∧
      ∀ result, EndsIn tokenizer.rank (· ++ ·) pieces result → result = tokenizer.bpeMerge pieces := by
  have hends := endsIn_bpeMerge hmax pieces
  exact ⟨join_steps hends.1, hends.2, hends.1, fun result h => h.unique hinj hends⟩

/-- A tokenizer of some merges, and no more. -/
def ofMerges (merges : AssocMap (String × String) Nat) : BpeTokenizer where
  kind := .sentencePiece
  tokenToId := []
  idToToken := []
  merges := merges
  byteFallback := false
  bosId := none
  eosId := none
  specialIds := []
  specialPieces := []
  byteDecoder := []

/-- The merge of the lower rank comes first, though it stands behind the other. -/
theorem bpe_merge_canonical_abcab :
    (ofMerges [(("a", "b"), 1), (("b", "c"), 0)]).bpeMerge ["a", "b", "c", "a", "b"] = ["a", "bc", "ab"] ∧
      Normal (ofMerges [(("a", "b"), 1), (("b", "c"), 0)]).rank
        ((ofMerges [(("a", "b"), 1), (("b", "c"), 0)]).bpeMerge ["a", "b", "c", "a", "b"]) := by
  refine ⟨by decide +kernel, (bpe_merge_canonical (fun a b r h => ?_) (fun a b a' b' r h h' => ?_) _).2.1⟩
  · have hall : ∀ e ∈ [(("a", "b"), 1), (("b", "c"), 0)], e.2 < 2 ^ 32 - 1 := by decide
    exact hall _ (AssocMap.mem_of_get h)
  · have hall : ∀ e ∈ [(("a", "b"), 1), (("b", "c"), 0)], ∀ e' ∈ [(("a", "b"), 1), (("b", "c"), 0)],
        e.2 = e'.2 → e.1 = e'.1 := by decide
    exact Prod.mk.inj (hall _ (AssocMap.mem_of_get h) _ (AssocMap.mem_of_get h') rfl)

end Dyninfer
