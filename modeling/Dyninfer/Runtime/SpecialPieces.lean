/-
How a text is cut at special pieces: at each point the piece that starts first
is taken, the longest of those that start there; what stands before it and
behind the last one is ordinary text. An empty piece stands everywhere, and
when it is the longest that starts where the text is, the loop stays there.
-/
import Dyninfer.Runtime.Merging

namespace Dyninfer

variable {tokenizer : BpeTokenizer}

namespace BpeTokenizer

/-- Where one round of `encode` leaves the text, when it finds a special piece. -/
def splitStep (tokenizer : BpeTokenizer) (rest : List Char) : Option (List Char) :=
  (specialAt rest tokenizer.specialPieces).map fun found => rest.drop (found.1 + found.2.1.toList.length)

/-- The special pieces are listed with the longest first. -/
def Sorted (pieces : List (String × Nat)) : Prop := pieces.Pairwise fun a b => b.1.utf8ByteSize ≤ a.1.utf8ByteSize

end BpeTokenizer

open BpeTokenizer

theorem sorted_specialPieces {file : TokenizerFile} (h : Loads file tokenizer) : Sorted tokenizer.specialPieces := by
  unfold Sorted
  rw [h.specialPieces]
  refine (List.pairwise_mergeSort (fun a b c hab hbc => ?_) (fun a b => ?_) _).imp fun h => of_decide_eq_true h
  · exact decide_eq_true ((of_decide_eq_true hbc).trans (of_decide_eq_true hab))
  · simpa using Nat.le_total _ _

/-! ## One round -/

/-- `e` at `pos` is before, or longer than, every other piece that the text holds. -/
def Foremost (rest : List Char) (pieces : List (String × Nat)) (pos : Nat) (e : String × Nat) : Prop :=
  ∀ e' ∈ pieces, ∀ pos', Text.find e'.1.toList rest = some pos' →
    pos < pos' ∨ pos = pos' ∧ e'.1.utf8ByteSize ≤ e.1.utf8ByteSize

/-- The scan over the pieces: none is held, or the foremost one is found. -/
theorem specialAt_cases (rest : List Char) {pieces : List (String × Nat)} (hsorted : Sorted pieces) :
    (specialAt rest pieces = none ∧ ∀ e ∈ pieces, Text.find e.1.toList rest = none) ∨
      ∃ pos, ∃ e ∈ pieces, specialAt rest pieces = some (pos, e) ∧ Text.find e.1.toList rest = some pos ∧
        Foremost rest pieces pos e := by
  -- The pieces seen so far, in front of those that are left.
  have hscan : ∀ (seen left : List (String × Nat)) (best : Option (Nat × String × Nat)), Sorted (seen ++ left) →
      (best = none ∧ (∀ e ∈ seen, Text.find e.1.toList rest = none) ∨
        ∃ pos, ∃ e ∈ seen, best = some (pos, e) ∧ Text.find e.1.toList rest = some pos ∧ Foremost rest seen pos e) →
      (left.foldl (specialStep rest) best = none ∧ (∀ e ∈ seen ++ left, Text.find e.1.toList rest = none) ∨
        ∃ pos, ∃ e ∈ seen ++ left, left.foldl (specialStep rest) best = some (pos, e) ∧
          Text.find e.1.toList rest = some pos ∧ Foremost rest (seen ++ left) pos e) := by
    intro seen left
    induction left generalizing seen with
    | nil =>
      intro best _ hbest
      rwa [List.append_nil]
    | cons e left ih =>
      intro best hsorted hbest
      rw [List.append_cons] at hsorted ⊢
      refine ih (seen ++ [e]) (specialStep rest best e) hsorted ?_
      have hlast : ∀ {p : String × Nat → Prop}, (∀ e' ∈ seen, p e') → p e → ∀ e' ∈ seen ++ [e], p e' := by
        intro p hseen he e' he'
        rcases List.mem_append.mp he' with he' | he'
        · exact hseen e' he'
        · rw [List.mem_singleton.mp he']
          exact he
      have hsize : ∀ e' ∈ seen, e.1.utf8ByteSize ≤ e'.1.utf8ByteSize := by
        unfold Sorted at hsorted
        rw [List.pairwise_append, List.pairwise_append] at hsorted
        exact fun e' he' => hsorted.1.2.2 e' he' e List.mem_cons_self
      unfold specialStep
      cases hfind : Text.find e.1.toList rest with
      | none =>
        have hnot : ∀ {pos : Nat} {e' : String × Nat}, ∀ pos', Text.find e.1.toList rest = some pos' →
            pos < pos' ∨ pos = pos' ∧ e.1.utf8ByteSize ≤ e'.1.utf8ByteSize := by
          intro pos e' pos' h
          rw [hfind] at h
          cases h
        rcases hbest with ⟨rfl, hnone⟩ | ⟨pos, e', he', rfl, hfind', hfore⟩
        · exact .inl ⟨rfl, hlast hnone hfind⟩
        · exact .inr ⟨pos, e', List.mem_append_left _ he', rfl, hfind', hlast hfore hnot⟩
      | some pos =>
        refine .inr ?_
        rcases hbest with ⟨rfl, hnone⟩ | ⟨pos', e', he', rfl, hfind', hfore⟩
        · refine ⟨pos, e, by simp, rfl, hfind, hlast (fun e' he' pos' h => ?_) fun pos' h => ?_⟩
          · rw [hnone e' he'] at h
            cases h
          · rw [hfind, Option.some_inj] at h
            exact .inr ⟨h, Nat.le_refl _⟩
        · simp only [Option.all_some, decide_eq_true_eq]
          split
          · next hlt =>
            refine ⟨pos, e, by simp, rfl, hfind, hlast (fun e'' he'' pos'' h => ?_) fun pos'' h => ?_⟩
            · rcases hfore e'' he'' pos'' h with hbefore | ⟨rfl, -⟩
              · exact .inl (hlt.trans hbefore)
              · exact .inl hlt
            · rw [hfind, Option.some_inj] at h
              exact .inr ⟨h, Nat.le_refl _⟩
          · next hge =>
            refine ⟨pos', e', List.mem_append_left _ he', rfl, hfind', hlast hfore fun pos'' h => ?_⟩
            rw [hfind, Option.some_inj] at h
            subst h
            rcases Nat.lt_or_eq_of_le (Nat.not_lt.mp hge) with h | h
            · exact .inl h
            · exact .inr ⟨h, hsize e' he'⟩
  have h := hscan [] pieces none hsorted (.inl ⟨rfl, nofun⟩)
  rwa [List.nil_append] at h

theorem encodeLoop_of_specialAt {rest : List Char} (hne : rest ≠ []) {pos : Nat} {e : String × Nat}
    (h : specialAt rest tokenizer.specialPieces = some (pos, e)) (n : Nat) : tokenizer.encodeLoop (n + 1) rest =
      (tokenizer.encodeLoop n (rest.drop (pos + e.1.toList.length))).map
        (((if pos > 0 then tokenizer.encodeOrdinary (rest.take pos) else []) ++ [e.2]) ++ ·) := by
  cases rest with
  | nil => exact absurd rfl hne
  | cons c rest =>
    rw [encodeLoop, h]
    simp only
    cases tokenizer.encodeLoop n ((c :: rest).drop (pos + e.1.toList.length)) with
    | none => rfl
    | some ids => simp

theorem encodeLoop_of_splitStep {rest rest' : List Char} (hne : rest ≠ []) (h : tokenizer.splitStep rest = some rest')
    (n : Nat) : ∃ ids, tokenizer.encodeLoop (n + 1) rest = (tokenizer.encodeLoop n rest').map (ids ++ ·) := by
  obtain ⟨found, hfound, rfl⟩ := Option.map_eq_some_iff.mp h
  exact ⟨_, encodeLoop_of_specialAt hne hfound n⟩

theorem encodeLoop_of_not_splitStep {rest : List Char} (hne : rest ≠ []) (h : tokenizer.splitStep rest = none) (n : Nat) :
    tokenizer.encodeLoop (n + 1) rest = some (tokenizer.encodeOrdinary rest) := by
  cases rest with
  | nil => exact absurd rfl hne
  | cons c rest => rw [encodeLoop, Option.map_eq_none_iff.mp h]

/-- A round that takes nothing is followed by no other. -/
theorem encodeLoop_stays {rest : List Char} (hne : rest ≠ []) (h : tokenizer.splitStep rest = some rest) (n : Nat) :
    tokenizer.encodeLoop n rest = none := by
  induction n with
  | zero =>
    cases rest with
    | nil => exact absurd rfl hne
    | cons c rest => rfl
  | succ n ih =>
    obtain ⟨ids, hloop⟩ := encodeLoop_of_splitStep hne h n
    rw [hloop, ih]
    rfl

/-! ## The cuts -/

/-- A span of ordinary text, or a special piece with its id. -/
inductive Segment where
  | span (text : List Char)
  | special (piece : String) (id : Nat)
  deriving DecidableEq, Repr

namespace Segment

def text : Segment → List Char
  | .span text => text
  | .special piece _ => piece.toList

/-- The ids of a segment. -/
def ids (tokenizer : BpeTokenizer) : Segment → List Nat
  | .span text => tokenizer.encodeOrdinary text
  | .special _ id => [id]

end Segment

/-- A span, where there is text. -/
def spans (text : List Char) : List Segment := if text.isEmpty then [] else [.span text]

/-- A text holds no special piece. -/
def Ordinary (pieces : List (String × Nat)) (text : List Char) : Prop := ∀ e ∈ pieces, ¬ e.1.toList <:+: text

/-- Each cut is at a piece that no other one starts before, the longest of those that start with it. -/
inductive Cuts (pieces : List (String × Nat)) : List Char → List Segment → Prop where
  | last {text : List Char} (hordinary : text ≠ [] → Ordinary pieces text) : Cuts pieces text (spans text)
  | cut {before after : List Char} {e : String × Nat} {segments : List Segment} (he : e ∈ pieces)
    (hfirst : ∀ e' ∈ pieces, ∀ before' after', before ++ e.1.toList ++ after = before' ++ e'.1.toList ++ after' →
      before.length ≤ before'.length)
    (hlongest : ∀ e' ∈ pieces, ∀ after', before ++ e.1.toList ++ after = before ++ e'.1.toList ++ after' →
      e'.1.toList.length ≤ e.1.toList.length)
    (hordinary : before ≠ [] → Ordinary pieces before) (hafter : Cuts pieces after segments) :
    Cuts pieces (before ++ e.1.toList ++ after) (spans before ++ .special e.1 e.2 :: segments)

theorem flatMap_spans (text : List Char) : (spans text).flatMap Segment.text = text := by
  unfold spans
  split
  · next h => simp [List.isEmpty_iff.mp h]
  · simp [Segment.text]

theorem Cuts.text {pieces : List (String × Nat)} {text : List Char} {segments : List Segment}
    (h : Cuts pieces text segments) : segments.flatMap Segment.text = text := by
  induction h with
  | last _ => exact flatMap_spans _
  | cut _ _ _ _ _ ih =>
    rw [List.flatMap_append, List.flatMap_cons, ih, flatMap_spans]
    simp [Segment.text]

theorem Cuts.ordinary {pieces : List (String × Nat)} {text : List Char} {segments : List Segment}
    (h : Cuts pieces text segments) : ∀ span, .span span ∈ segments → Ordinary pieces span := by
  have hspans : ∀ {text : List Char}, (text ≠ [] → Ordinary pieces text) → ∀ span, .span span ∈ spans text →
      Ordinary pieces span := by
    intro text hordinary span hspan
    unfold spans at hspan
    split at hspan
    · cases hspan
    · next hne =>
      cases List.mem_singleton.mp hspan
      exact hordinary fun h => hne (List.isEmpty_iff.mpr h)
  induction h with
  | last hordinary => exact hspans hordinary
  | cut _ _ _ hordinary _ ih =>
    intro span hspan
    rcases List.mem_append.mp hspan with hspan | hspan
    · exact hspans hordinary span hspan
    · rcases List.mem_cons.mp hspan with h | hspan
      · cases h
      · exact ih span hspan

/-- Of two beginnings of one text, the one of more bytes has no fewer characters. -/
theorem length_le_of_size {piece piece' : String} {after after' : List Char}
    (h : piece.toList ++ after = piece'.toList ++ after') (hsize : piece'.utf8ByteSize ≤ piece.utf8ByteSize) :
    piece'.toList.length ≤ piece.toList.length := by
  rcases Nat.le_total piece'.toList.length piece.toList.length with hle | hle
  · exact hle
  · obtain ⟨more, hmore⟩ := List.prefix_of_prefix_length_le ⟨after, rfl⟩ ⟨after', h.symm⟩ hle
    have hpiece : piece' = piece ++ String.ofList more := by
      rw [← String.toList_inj, String.toList_append, String.toList_ofList, hmore]
    rw [hpiece, String.utf8ByteSize_append] at hsize
    have hempty : String.ofList more = "" := String.utf8ByteSize_eq_zero_iff.mp (by omega)
    rw [hpiece, hempty, String.append_empty]

theorem find_eq_none {part text : List Char} (h : Text.find part text = none) : ¬ part <:+: text := by
  rintro ⟨before, after, rfl⟩
  obtain ⟨i, -, hfind⟩ := Text.find_le part before after
  rw [hfind] at h
  cases h

/-- What one round finds, as a cut of the text. -/
theorem exists_cut {pieces : List (String × Nat)} (hsorted : Sorted pieces) {rest : List Char} {pos : Nat}
    {e : String × Nat} (h : specialAt rest pieces = some (pos, e)) :
    ∃ before after, rest = before ++ e.1.toList ++ after ∧ before.length = pos ∧ e ∈ pieces ∧
      (∀ e' ∈ pieces, ∀ before' after', before ++ e.1.toList ++ after = before' ++ e'.1.toList ++ after' →
        before.length ≤ before'.length) ∧
      ∀ e' ∈ pieces, ∀ after', before ++ e.1.toList ++ after = before ++ e'.1.toList ++ after' →
        e'.1.toList.length ≤ e.1.toList.length := by
  rcases specialAt_cases rest hsorted with ⟨hnone, -⟩ | ⟨pos', e', he, hsome, hfind, hfore⟩
  · rw [hnone] at h
    cases h
  · rw [hsome, Option.some_inj, Prod.mk.injEq] at h
    obtain ⟨rfl, rfl⟩ := h
    obtain ⟨before, after, hrest, hbefore⟩ := Text.find_some hfind
    rw [hrest] at hfore
    refine ⟨before, after, hrest, hbefore, he, fun e'' he'' before' after' heq => ?_, fun e'' he'' after' heq => ?_⟩
    · obtain ⟨i, hi, hfind'⟩ := Text.find_le e''.1.toList before' after'
      rw [← heq] at hfind'
      rcases hfore e'' he'' i hfind' with hlt | ⟨rfl, -⟩ <;> omega
    · obtain ⟨i, hi, hfind'⟩ := Text.find_le e''.1.toList before after'
      rw [← heq] at hfind'
      rcases hfore e'' he'' i hfind' with hlt | ⟨-, hsize⟩
      · omega
      · rw [List.append_assoc, List.append_assoc] at heq
        exact length_le_of_size (List.append_cancel_left heq) hsize

theorem ids_spans (text : List Char) : (spans text).flatMap (Segment.ids tokenizer) =
    if text.length > 0 then tokenizer.encodeOrdinary text else [] := by
  unfold spans
  cases text with
  | nil => rfl
  | cons c text => simp [Segment.ids]

theorem length_toList_pos {piece : String} (h : piece ≠ "") : 0 < piece.toList.length := by
  refine List.length_pos_iff.mpr fun hempty => h ?_
  rw [← String.toList_inj, hempty]
  rfl

/-- A round of the splitting loop, while there is text. -/
def Splits (tokenizer : BpeTokenizer) (rest rest' : List Char) : Prop := rest ≠ [] ∧ tokenizer.splitStep rest = some rest'

theorem length_splitStep (hsorted : Sorted tokenizer.specialPieces) (hne : ∀ e ∈ tokenizer.specialPieces, e.1 ≠ "")
    {rest rest' : List Char} (h : Splits tokenizer rest rest') : rest'.length < rest.length := by
  obtain ⟨hrest, hstep⟩ := h
  obtain ⟨found, hfound, rfl⟩ := Option.map_eq_some_iff.mp hstep
  obtain ⟨-, -, -, -, he, -, -⟩ := exists_cut hsorted hfound
  have hpos := length_toList_pos (hne _ he)
  have hlength := List.length_pos_iff.mpr hrest
  rw [List.length_drop]
  omega

/-- The loop encodes the segments of the cuts, and takes no empty piece. -/
theorem cuts_of_encodeLoop (hsorted : Sorted tokenizer.specialPieces) {n : Nat} {rest : List Char} {ids : List Nat}
    (h : tokenizer.encodeLoop n rest = some ids) : ∃ segments, Cuts tokenizer.specialPieces rest segments ∧
      ids = segments.flatMap (Segment.ids tokenizer) ∧ ∀ piece id, .special piece id ∈ segments → piece ≠ "" := by
  induction n generalizing rest ids with
  | zero =>
    cases rest with
    | nil =>
      cases h
      exact ⟨spans [], .last fun hne => absurd rfl hne, rfl, fun _ _ hmem => absurd hmem List.not_mem_nil⟩
    | cons c rest => cases h
  | succ n ih =>
    by_cases hrest : rest = []
    · subst hrest
      cases h
      exact ⟨spans [], .last fun hne => absurd rfl hne, rfl, fun _ _ hmem => absurd hmem List.not_mem_nil⟩
    · cases hspecial : specialAt rest tokenizer.specialPieces with
      | none =>
        rcases specialAt_cases rest hsorted with ⟨-, hnone⟩ | ⟨pos, e, -, hsome, -⟩
        · have hstep : tokenizer.splitStep rest = none := Option.map_eq_none_iff.mpr hspecial
          rw [encodeLoop_of_not_splitStep hrest hstep, Option.some_inj] at h
          refine ⟨spans rest, .last fun _ e he => find_eq_none (hnone e he), ?_, fun piece id hmem => ?_⟩
          · rw [ids_spans, if_pos (List.length_pos_iff.mpr hrest), h]
          · unfold spans at hmem
            split at hmem <;> simp at hmem
        · rw [hspecial] at hsome
          cases hsome
      | some found =>
        obtain ⟨pos, e⟩ := found
        obtain ⟨before, after, rfl, rfl, he, hfirst, hlongest⟩ := exists_cut hsorted hspecial
        have hdrop : (before ++ e.1.toList ++ after).drop (before.length + e.1.toList.length) = after := by
          rw [← List.length_append, List.drop_left]
        by_cases hpiece : e.1 = ""
        · -- the round takes nothing
          have hbefore : before = [] := by
            have hle := hfirst e he [] (before ++ after) (by simp [hpiece])
            exact List.length_eq_zero_iff.mp (Nat.le_zero.mp hle)
          have hstep : tokenizer.splitStep (before ++ e.1.toList ++ after) = some (before ++ e.1.toList ++ after) := by
            unfold BpeTokenizer.splitStep
            rw [hspecial]
            simp [hpiece, hbefore]
          rw [encodeLoop_stays hrest hstep] at h
          cases h
        · have htake : (before ++ e.1.toList ++ after).take before.length = before := by
            rw [List.append_assoc, List.take_left]
          have hloop := encodeLoop_of_specialAt hrest hspecial n
          rw [htake, hdrop, ← ids_spans] at hloop
          rw [hloop] at h
          obtain ⟨ids', hids', rfl⟩ := Option.map_eq_some_iff.mp h
          obtain ⟨segments, hcuts, rfl, hne⟩ := ih hids'
          -- a piece within what is before would start before the cut
          have hordinary : before ≠ [] → Ordinary tokenizer.specialPieces before := by
            intro hbefore e' he' hinner
            obtain ⟨before', after', hinner⟩ := hinner
            have hle := hfirst e' he' before' (after' ++ e.1.toList ++ after) (by rw [← hinner]; simp)
            have hpos := List.length_pos_iff.mpr hbefore
            have hlength := congrArg List.length hinner
            simp only [List.length_append] at hlength
            have hempty : e'.1.toList = [] := List.length_eq_zero_iff.mp (by omega)
            have hstart := hfirst e' he' [] (before ++ e.1.toList ++ after) (by simp [hempty])
            rw [List.length_nil] at hstart
            omega
          refine ⟨spans before ++ .special e.1 e.2 :: segments, .cut he hfirst hlongest hordinary hcuts, ?_, ?_⟩
          · rw [List.flatMap_append, List.flatMap_cons]
            simp [Segment.ids]
          · intro piece id hmem
            rcases List.mem_append.mp hmem with hmem | hmem
            · unfold spans at hmem
              split at hmem <;> simp at hmem
            · rcases List.mem_cons.mp hmem with heq | hmem
              · cases heq
                exact hpiece
              · exact hne piece id hmem

theorem ends_of_nonempty (hsorted : Sorted tokenizer.specialPieces) (hne : ∀ e ∈ tokenizer.specialPieces, e.1 ≠ "")
    {n : Nat} {rest : List Char} (hn : rest.length ≤ n) : ∃ ids, tokenizer.encodeLoop n rest = some ids := by
  induction n generalizing rest with
  | zero =>
    cases List.length_eq_zero_iff.mp (Nat.le_zero.mp hn)
    exact ⟨[], by rw [encodeLoop]⟩
  | succ n ih =>
    by_cases hrest : rest = []
    · rw [hrest]
      exact ⟨[], by rw [encodeLoop]⟩
    · cases hstep : tokenizer.splitStep rest with
      | none => exact ⟨_, encodeLoop_of_not_splitStep hrest hstep n⟩
      | some rest' =>
        have hshort := length_splitStep hsorted hne ⟨hrest, hstep⟩
        obtain ⟨ids, hids⟩ := ih (by omega : rest'.length ≤ n)
        obtain ⟨before, hloop⟩ := encodeLoop_of_splitStep hrest hstep n
        exact ⟨before ++ ids, by rw [hloop, hids]; rfl⟩

/-! ## Splitting -/

section loading

variable {file : TokenizerFile}

theorem Cuts.congr {pieces pieces' : List (String × Nat)} (h : ∀ e, e ∈ pieces ↔ e ∈ pieces') {text : List Char}
    {segments : List Segment} (hcuts : Cuts pieces text segments) : Cuts pieces' text segments := by
  have hordinary : ∀ {text}, Ordinary pieces text → Ordinary pieces' text := fun h' e he => h' e ((h e).mpr he)
  induction hcuts with
  | last hlast => exact .last fun hne => hordinary (hlast hne)
  | cut he hfirst hlongest hbefore _ ih =>
    exact .cut ((h _).mp he) (fun e' he' => hfirst e' ((h e').mpr he')) (fun e' he' => hlongest e' ((h e').mpr he'))
      (fun hne => hordinary (hbefore hne)) ih

theorem encode_cuts (h : Loads file tokenizer) (hne : ∀ e ∈ file.pieces, e.1 ≠ "") (text : String)
    (addSpecialTokens : Bool) : ∃ segments, Cuts file.pieces text.toList segments ∧
      tokenizer.encode text addSpecialTokens = some ((if addSpecialTokens then tokenizer.bosId.toList else []) ++
        segments.flatMap (Segment.ids tokenizer)) := by
  have hpieces : ∀ e ∈ tokenizer.specialPieces, e.1 ≠ "" := fun e he => hne e ((mem_specialPieces h).mp he)
  obtain ⟨ids, hids⟩ := ends_of_nonempty (sorted_specialPieces h) hpieces (Nat.le_refl text.toList.length)
  obtain ⟨segments, hcuts, rfl, -⟩ := cuts_of_encodeLoop (sorted_specialPieces h) hids
  refine ⟨segments, hcuts.congr fun e => mem_specialPieces h, ?_⟩
  rw [BpeTokenizer.encode, hids]
  rfl

/-- **Splitting.** A text is cut at the special pieces, each time at the longest of those that start first; the cuts
put together are the text, and no ordinary span holds a special piece. -/
theorem splits_leftmost_longest {parse : List UInt8 → Except String TokenizerFile} {bytes : List UInt8}
    (hparse : parse bytes = .ok file) (hload : BpeTokenizer.fromBytes parse bytes = .ok tokenizer)
    (hne : ∀ e ∈ file.pieces, e.1 ≠ "") (text : String) (addSpecialTokens : Bool) :
    ∃ segments, Cuts file.pieces text.toList segments ∧
      tokenizer.encode text addSpecialTokens = some ((if addSpecialTokens then tokenizer.bosId.toList else []) ++
        segments.flatMap (Segment.ids tokenizer)) ∧
      segments.flatMap Segment.text = text.toList ∧
      ∀ span, .span span ∈ segments → Ordinary file.pieces span := by
  obtain ⟨segments, hcuts, hids⟩ := encode_cuts (loads_of_fromBytes hparse hload) hne text addSpecialTokens
  exact ⟨segments, hcuts, hids, hcuts.text, hcuts.ordinary⟩

theorem splits_leftmost_longest_end : ∃ tokenizer,
    BpeTokenizer.fromBytes (fun _ => .ok (byteFile "<|end|>")) [] = .ok tokenizer ∧
      ∃ segments, Cuts (byteFile "<|end|>").pieces "a<|end|>b".toList segments ∧
        tokenizer.encode "a<|end|>b" false = some ([] ++ segments.flatMap (Segment.ids tokenizer)) ∧
        segments.flatMap Segment.text = "a<|end|>b".toList ∧
        ∀ span, .span span ∈ segments → Ordinary (byteFile "<|end|>").pieces span := by
  obtain ⟨tokenizer, hload, -⟩ := exists_byteFile "<|end|>"
  refine ⟨tokenizer, hload, splits_leftmost_longest rfl hload (fun e he => ?_) "a<|end|>b" false⟩
  cases List.mem_singleton.mp he
  decide

/-! ## Termination -/

/-- Encoding ends, each round of splitting takes some of the text, and each merge leaves fewer pieces. -/
structure EncodeProgress (tokenizer : BpeTokenizer) (text : String) : Prop where
  ends : ∃ n ids, tokenizer.encodeLoop n text.toList = some ids
  splitting : ∀ rest rest', Relation.ReflTransGen (Splits tokenizer) text.toList rest → Splits tokenizer rest rest' →
    rest'.length < rest.length
  merging : ∀ pieces pieces', tokenizer.mergeStep pieces = some pieces' → pieces'.length < pieces.length

/-- A text of special pieces that are not empty, each the longest of those that start where it does. -/
inductive LongestCut (pieces : List (String × Nat)) : List Char → Prop where
  | nil : LongestCut pieces []
  | cons {e : String × Nat} {after : List Char} (he : e ∈ pieces) (hne : e.1 ≠ "")
    (hlongest : ∀ e' ∈ pieces, e'.1.toList <+: e.1.toList ++ after → e'.1.toList.length ≤ e.1.toList.length)
    (hafter : LongestCut pieces after) : LongestCut pieces (e.1.toList ++ after)

/-- What a round finds where an empty piece is listed: the longest piece that the text starts with. -/
theorem specialAt_of_empty {pieces : List (String × Nat)} (hsorted : Sorted pieces) (hempty : ∃ e ∈ pieces, e.1 = "")
    (rest : List Char) : ∃ e ∈ pieces, ∃ after, rest = e.1.toList ++ after ∧ specialAt rest pieces = some (0, e) ∧
      ∀ e' ∈ pieces, e'.1.toList <+: rest → e'.1.toList.length ≤ e.1.toList.length := by
  obtain ⟨e₀, he₀, hnil⟩ := hempty
  have hfind : Text.find e₀.1.toList rest = some 0 := by
    rw [hnil]
    cases rest <;> rfl
  rcases specialAt_cases rest hsorted with ⟨-, hnone⟩ | ⟨pos, e, he, hsome, -, hfore⟩
  · rw [hnone e₀ he₀] at hfind
    cases hfind
  · have hpos : pos = 0 := by
      rcases hfore e₀ he₀ 0 hfind with h | ⟨h, -⟩
      · exact absurd h (Nat.not_lt_zero _)
      · exact h
    subst hpos
    obtain ⟨before, after, hrest, hbefore, -, -, hlongest⟩ := exists_cut hsorted hsome
    cases List.length_eq_zero_iff.mp hbefore
    rw [List.nil_append] at hrest
    refine ⟨e, he, after, hrest, hsome, fun e' he' hstart => ?_⟩
    obtain ⟨after', hafter'⟩ := hstart
    exact hlongest e' he' after' (by rw [List.nil_append, List.nil_append, hafter', hrest])

theorem splitStep_of_specialAt {rest after : List Char} {e : String × Nat} (hrest : rest = e.1.toList ++ after)
    (h : specialAt rest tokenizer.specialPieces = some (0, e)) : tokenizer.splitStep rest = some after := by
  unfold BpeTokenizer.splitStep
  rw [h, hrest]
  simp

theorem longestCut_of_ends (hsorted : Sorted tokenizer.specialPieces) (hempty : ∃ e ∈ tokenizer.specialPieces, e.1 = "")
    {n : Nat} {rest : List Char} {ids : List Nat} (h : tokenizer.encodeLoop n rest = some ids) :
    LongestCut tokenizer.specialPieces rest := by
  induction n generalizing rest ids with
  | zero =>
    cases rest with
    | nil => exact .nil
    | cons c rest => cases h
  | succ n ih =>
    by_cases hrest : rest = []
    · rw [hrest]
      exact .nil
    · obtain ⟨e, he, after, htext, hfound, hlongest⟩ := specialAt_of_empty hsorted hempty rest
      obtain ⟨before, hloop⟩ := encodeLoop_of_splitStep hrest (splitStep_of_specialAt htext hfound) n
      rw [h] at hloop
      obtain ⟨ids', hids', -⟩ := Option.map_eq_some_iff.mp hloop.symm
      have hcut := ih hids'
      by_cases hne : e.1 = ""
      · -- nothing is taken, and a shorter run ends all the same
        rw [hne] at htext
        rw [htext]
        exact hcut
      · rw [htext] at hlongest ⊢
        exact .cons he hne hlongest hcut

/-- Where such a text is split next. -/
theorem LongestCut.splitStep (hsorted : Sorted tokenizer.specialPieces)
    (hempty : ∃ e ∈ tokenizer.specialPieces, e.1 = "") {rest : List Char} (hne : rest ≠ [])
    (h : LongestCut tokenizer.specialPieces rest) : ∃ rest', tokenizer.splitStep rest = some rest' ∧
      rest'.length < rest.length ∧ LongestCut tokenizer.specialPieces rest' := by
  cases h with
  | nil => exact absurd rfl hne
  | cons he hpiece hlongest hafter =>
    rename_i e after
    obtain ⟨e', he', after', htext, hfound, hlongest'⟩ := specialAt_of_empty hsorted hempty (e.1.toList ++ after)
    have hle := hlongest e' he' ⟨after', htext.symm⟩
    have hge := hlongest' e he ⟨after, rfl⟩
    obtain ⟨-, hsame⟩ := List.append_inj htext (Nat.le_antisymm hge hle)
    rw [← hsame] at htext
    have hpos := length_toList_pos hpiece
    refine ⟨after, splitStep_of_specialAt htext hfound, ?_, hafter⟩
    rw [List.length_append]
    omega

theorem LongestCut.ends (hsorted : Sorted tokenizer.specialPieces)
    (hempty : ∃ e ∈ tokenizer.specialPieces, e.1 = "") {n : Nat} {rest : List Char} (hn : rest.length ≤ n)
    (h : LongestCut tokenizer.specialPieces rest) : ∃ ids, tokenizer.encodeLoop n rest = some ids := by
  induction n generalizing rest with
  | zero =>
    cases List.length_eq_zero_iff.mp (Nat.le_zero.mp hn)
    exact ⟨[], by rw [encodeLoop]⟩
  | succ n ih =>
    by_cases hrest : rest = []
    · rw [hrest]
      exact ⟨[], by rw [encodeLoop]⟩
    · obtain ⟨rest', hstep, hshort, hcut⟩ := h.splitStep hsorted hempty hrest
      obtain ⟨ids, hids⟩ := ih (by omega) hcut
      obtain ⟨before, hloop⟩ := encodeLoop_of_splitStep hrest hstep n
      exact ⟨before ++ ids, by rw [hloop, hids]; rfl⟩

theorem encodeProgress_iff (h : Loads file tokenizer) (text : String) : EncodeProgress tokenizer text ↔
    (∀ e ∈ file.pieces, e.1 ≠ "") ∨ LongestCut tokenizer.specialPieces text.toList := by
  have hsorted := sorted_specialPieces h
  by_cases hne : ∀ e ∈ file.pieces, e.1 ≠ ""
  · have hpieces : ∀ e ∈ tokenizer.specialPieces, e.1 ≠ "" := fun e he => hne e ((mem_specialPieces h).mp he)
    refine iff_of_true ⟨?_, fun rest rest' _ => length_splitStep hsorted hpieces, fun _ _ => length_mergeStep⟩ (.inl hne)
    exact ⟨_, ends_of_nonempty hsorted hpieces (Nat.le_refl text.toList.length)⟩
  · have hempty : ∃ e ∈ tokenizer.specialPieces, e.1 = "" := by
      simp only [not_forall, not_not] at hne
      obtain ⟨e, he, hnil⟩ := hne
      exact ⟨e, (mem_specialPieces h).mpr he, hnil⟩
    constructor
    · intro hprogress
      obtain ⟨n, ids, hids⟩ := hprogress.ends
      exact .inr (longestCut_of_ends hsorted hempty hids)
    · intro hcut
      have hcut := hcut.resolve_left hne
      have hreached : ∀ rest, Relation.ReflTransGen (Splits tokenizer) text.toList rest →
          LongestCut tokenizer.specialPieces rest := by
        intro rest hreach
        induction hreach with
        | refl => exact hcut
        | tail _ hstep ih =>
          obtain ⟨after, hafter, -, hcut'⟩ := ih.splitStep hsorted hempty hstep.1
          rw [hstep.2, Option.some_inj] at hafter
          exact hafter ▸ hcut'
      refine ⟨⟨_, hcut.ends hsorted hempty (Nat.le_refl _)⟩, fun rest rest' hreach hsplits => ?_,
        fun _ _ => length_mergeStep⟩
      obtain ⟨after, hafter, hshort, -⟩ := (hreached rest hreach).splitStep hsorted hempty hsplits.1
      rw [hsplits.2, Option.some_inj] at hafter
      exact hafter ▸ hshort

theorem LongestCut.congr {pieces pieces' : List (String × Nat)} (h : ∀ e, e ∈ pieces ↔ e ∈ pieces') {text : List Char}
    (hcut : LongestCut pieces text) : LongestCut pieces' text := by
  induction hcut with
  | nil => exact .nil
  | cons he hne hlongest _ ih => exact .cons ((h _).mp he) hne (fun e' he' => hlongest e' ((h e').mpr he')) ih

/-- **Termination.** Encoding a text makes progress to its end just when no special piece is empty, or the text is
made of special pieces, the longest one wherever one starts, and none of them empty. -/
theorem encode_progress_iff {parse : List UInt8 → Except String TokenizerFile} {bytes : List UInt8}
    (hparse : parse bytes = .ok file) (hload : BpeTokenizer.fromBytes parse bytes = .ok tokenizer) (text : String) :
    EncodeProgress tokenizer text ↔ (∀ e ∈ file.pieces, e.1 ≠ "") ∨ LongestCut file.pieces text.toList := by
  have h := loads_of_fromBytes hparse hload
  rw [encodeProgress_iff h]
  have hpieces : ∀ e, e ∈ tokenizer.specialPieces ↔ e ∈ file.pieces := fun e => mem_specialPieces h
  exact or_congr_right ⟨LongestCut.congr hpieces, LongestCut.congr fun e => (hpieces e).symm⟩

theorem encode_progress_iff_end : ∃ tokenizer,
    BpeTokenizer.fromBytes (fun _ => .ok (byteFile "<|end|>")) [] = .ok tokenizer ∧
      EncodeProgress tokenizer "a<|end|>b" := by
  obtain ⟨tokenizer, hload, -⟩ := exists_byteFile "<|end|>"
  refine ⟨tokenizer, hload, (encode_progress_iff rfl hload "a<|end|>b").mpr (.inl fun e he => ?_)⟩
  cases List.mem_singleton.mp he
  decide

/-- With an empty special piece, a text of one letter is never used up. -/
theorem encode_stays : ∃ tokenizer, BpeTokenizer.fromBytes (fun _ => .ok (byteFile "")) [] = .ok tokenizer ∧
    (∀ n, tokenizer.encodeLoop n "a".toList = none) ∧ ¬ EncodeProgress tokenizer "a" := by
  obtain ⟨tokenizer, hload, -⟩ := exists_byteFile ""
  have h := loads_of_fromBytes rfl hload
  have hempty : ∃ e ∈ tokenizer.specialPieces, e.1 = "" :=
    ⟨("", 256), (mem_specialPieces h).mpr (List.mem_singleton.mpr rfl), rfl⟩
  have hcut : ¬ LongestCut tokenizer.specialPieces "a".toList := by
    intro hcut
    generalize htext : "a".toList = text at hcut
    cases hcut with
    | nil => cases htext
    | cons he hne _ _ =>
      cases List.mem_singleton.mp ((mem_specialPieces h).mp he)
      exact hne rfl
  have hnone : ∀ n, tokenizer.encodeLoop n "a".toList = none := fun n =>
    Option.eq_none_iff_forall_ne_some.mpr fun ids hids => hcut (longestCut_of_ends (sorted_specialPieces h) hempty hids)
  refine ⟨tokenizer, hload, hnone, fun hprogress => ?_⟩
  obtain ⟨n, ids, hids⟩ := hprogress.ends
  rw [hnone n] at hids
  cases hids

end loading

end Dyninfer
