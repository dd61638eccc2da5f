import Dialogue.Proofs.Tokenizer.RoundTrip

/-!
Joining is local. A piece that is a side of no rule stays as it is and keeps what is before it from
what is after it: each round joins on one side what would be joined next there if the side were
alone, in whatever order the ranks make the two sides take turns.
-/

namespace Dialogue.BytePair

/-- What stands on either side of the rules. -/
def sides (merges : List String) : List String :=
  (merges.filterMap splitMerge).flatMap fun (left, right) => [left, right]

theorem mem_sides {merges : List String} {entry left right : String} (hentry : entry ∈ merges)
    (hsplit : splitMerge entry = some (left, right)) :
    left ∈ sides merges ∧ right ∈ sides merges := by
  have hsides : (left, right) ∈ merges.filterMap splitMerge :=
    List.mem_filterMap.mpr ⟨entry, hentry, hsplit⟩
  constructor <;> exact List.mem_flatMap.mpr ⟨_, hsides, by simp⟩

/-- A piece that no rule joins to a neighbour. -/
structure Barrier (ranks : MergeRanks) (piece : String) : Prop where
  left (other : String) : rank? ranks other piece = none
  right (other : String) : rank? ranks piece other = none

theorem barrier_of_not_mem_sides {v : Vocabulary} {merges : List String} {b : BytePair}
    (h : new v merges = .ok b) {piece : String} (hpiece : piece ∉ sides merges) :
    Barrier b.ranks piece := by
  constructor
  · intro other
    by_contra hrank
    obtain ⟨k, hk⟩ := Option.ne_none_iff_exists'.mp hrank
    obtain ⟨entry, hentry, hsplit⟩ := splitMerge_of_rank h hk
    exact hpiece (mem_sides hentry hsplit).2
  · intro other
    by_contra hrank
    obtain ⟨k, hk⟩ := Option.ne_none_iff_exists'.mp hrank
    obtain ⟨entry, hentry, hsplit⟩ := splitMerge_of_rank h hk
    exact hpiece (mem_sides hentry hsplit).1

section Rounds

variable {ranks : MergeRanks} {pieces : List String} {k : Nat}

/-- The ranks of all neighbours that a rule joins. -/
def neighbourRanks (ranks : MergeRanks) : List String → List Nat
  | left :: right :: rest =>
    (rank? ranks left right).toList ++ neighbourRanks ranks (right :: rest)
  | _ => []

theorem leastRank_eq_min (ranks : MergeRanks) (pieces : List String) :
    leastRank ranks pieces = (neighbourRanks ranks pieces).min? := by
  fun_induction leastRank ranks pieces with
  | case1 left right rest ih =>
      rw [neighbourRanks, ih]
      cases rank? ranks left right with
      | none => rfl
      | some j =>
          rw [Option.toList_some, List.singleton_append, List.min?_cons]
          cases (neighbourRanks ranks (right :: rest)).min? <;> rfl
  | case2 pieces hshort =>
      rw [neighbourRanks]
      · rfl
      · exact hshort

theorem leastRank_eq_some_iff :
    leastRank ranks pieces = some k ↔
      k ∈ neighbourRanks ranks pieces ∧ ∀ j ∈ neighbourRanks ranks pieces, k ≤ j := by
  rw [leastRank_eq_min, List.min?_eq_some_iff]

theorem leastRank_eq_none_iff :
    leastRank ranks pieces = none ↔ neighbourRanks ranks pieces = [] := by
  rw [leastRank_eq_min, List.min?_eq_none_iff]

theorem length_mergeFirst (h : k ∈ neighbourRanks ranks pieces) :
    pieces.length = (mergeFirst ranks k pieces).length + 1 := by
  fun_induction mergeFirst ranks k pieces with
  | case1 left right rest hrank => rfl
  | case2 left right rest hrank ih =>
      rw [neighbourRanks, List.mem_append, Option.mem_toList] at h
      rw [List.length_cons, ih (h.resolve_left hrank), List.length_cons]
  | case3 pieces hshort =>
      rw [neighbourRanks] at h
      · cases h
      · exact hshort

theorem merge_of_leastRank_eq_none (h : leastRank ranks pieces = none) :
    merge ranks pieces = pieces := by
  cases pieces with
  | nil => rfl
  | cons piece rest => rw [merge, List.length_cons, mergeTimes, h]

/-- A round leaves one piece less, so the rounds that are left are as many as its pieces need. -/
theorem merge_of_leastRank_eq_some (h : leastRank ranks pieces = some k) :
    merge ranks pieces = merge ranks (mergeFirst ranks k pieces) := by
  rw [merge, length_mergeFirst (leastRank_eq_some_iff.mp h).1, mergeTimes, h, merge]

end Rounds

section Locality

variable {ranks : MergeRanks} {piece : String} {k : Nat}

theorem neighbourRanks_barrier (hpiece : Barrier ranks piece) (first second : List String) :
    neighbourRanks ranks (first ++ piece :: second) =
      neighbourRanks ranks first ++ neighbourRanks ranks second := by
  induction first with
  | nil =>
      cases second with
      | nil => rfl
      | cons next rest =>
          rw [List.nil_append, neighbourRanks, hpiece.right]
          rfl
  | cons left first ih =>
      cases first with
      | nil =>
          rw [List.nil_append] at ih
          rw [List.singleton_append, neighbourRanks, hpiece.left, ih]
          rfl
      | cons right rest =>
          rw [List.cons_append, List.cons_append, neighbourRanks, ← List.cons_append, ih,
            neighbourRanks, List.append_assoc]

theorem mergeFirst_append {first : List String} (h : k ∈ neighbourRanks ranks first)
    (second : List String) :
    mergeFirst ranks k (first ++ second) = mergeFirst ranks k first ++ second := by
  fun_induction mergeFirst ranks k first with
  | case1 left right rest hrank => simp [mergeFirst, hrank]
  | case2 left right rest hrank ih =>
      rw [neighbourRanks, List.mem_append, Option.mem_toList] at h
      rw [List.cons_append, List.cons_append, mergeFirst, if_neg hrank, ← List.cons_append,
        ih (h.resolve_left hrank), List.cons_append]
  | case3 pieces hshort =>
      rw [neighbourRanks] at h
      · cases h
      · exact hshort

theorem mergeFirst_barrier (hpiece : Barrier ranks piece) {first : List String}
    (h : k ∉ neighbourRanks ranks first) (second : List String) :
    mergeFirst ranks k (first ++ piece :: second) =
      first ++ piece :: mergeFirst ranks k second := by
  induction first with
  | nil =>
      cases second with
      | nil => rfl
      | cons next rest =>
          rw [List.nil_append, mergeFirst, hpiece.right, if_neg (Option.some_ne_none k).symm]
          rfl
  | cons left first ih =>
      cases first with
      | nil =>
          rw [List.singleton_append, mergeFirst, hpiece.left, if_neg (Option.some_ne_none k).symm]
          exact congrArg (left :: ·) (ih h)
      | cons right rest =>
          rw [neighbourRanks, List.mem_append, Option.mem_toList, not_or] at h
          rw [List.cons_append, List.cons_append, mergeFirst, if_neg h.1, ← List.cons_append,
            ih h.2]
          rfl

theorem merge_barrier (hpiece : Barrier ranks piece) (first second : List String) :
    merge ranks (first ++ piece :: second) = merge ranks first ++ piece :: merge ranks second := by
  -- on the number of pieces on both sides, of which each round takes one
  induction hn : first.length + second.length using Nat.strong_induction_on
    generalizing first second with
  | h n ih =>
      have hranks := neighbourRanks_barrier hpiece first second
      cases hleast : leastRank ranks (first ++ piece :: second) with
      | none =>
          rw [leastRank_eq_none_iff, hranks, List.append_eq_nil_iff] at hleast
          have hfirst := leastRank_eq_none_iff.mpr hleast.1
          have hsecond := leastRank_eq_none_iff.mpr hleast.2
          rw [merge_of_leastRank_eq_none hfirst, merge_of_leastRank_eq_none hsecond]
          apply merge_of_leastRank_eq_none
          rw [leastRank_eq_none_iff, hranks, hleast.1, hleast.2, List.append_nil]
      | some k =>
          obtain ⟨hk, hle⟩ := leastRank_eq_some_iff.mp hleast
          rw [hranks, List.mem_append] at hk
          rw [hranks, List.forall_mem_append] at hle
          rw [merge_of_leastRank_eq_some hleast]
          by_cases hfirst : k ∈ neighbourRanks ranks first
          · have hlength := length_mergeFirst hfirst
            rw [mergeFirst_append hfirst, ih _ (by omega) _ _ rfl,
              ← merge_of_leastRank_eq_some (leastRank_eq_some_iff.mpr ⟨hfirst, hle.1⟩)]
          · have hsecond := hk.resolve_left hfirst
            have hlength := length_mergeFirst hsecond
            rw [mergeFirst_barrier hpiece hfirst, ih _ (by omega) _ _ rfl,
              ← merge_of_leastRank_eq_some (leastRank_eq_some_iff.mpr ⟨hsecond, hle.2⟩)]

theorem merge_barriers {pieces : List String} (hne : pieces ≠ [])
    (hpieces : ∀ piece ∈ pieces, Barrier ranks piece) (first second : List String) :
    merge ranks (first ++ (pieces ++ second)) =
      merge ranks first ++ (pieces ++ merge ranks second) := by
  induction pieces generalizing first with
  | nil => exact absurd rfl hne
  | cons piece rest ih =>
      rw [List.forall_mem_cons] at hpieces
      rw [List.cons_append, merge_barrier hpieces.1]
      cases rest with
      | nil => rfl
      | cons next rest =>
          have hrest := ih (List.cons_ne_nil _ _) hpieces.2 []
          rw [List.nil_append] at hrest
          rw [hrest]
          rfl

end Locality

theorem charPieces_ne_nil (v : Vocabulary) (c : Char) : charPieces v c ≠ [] := by
  rw [charPieces]
  split
  · exact List.cons_ne_nil _ _
  · exact fun hnil => String.utf8EncodeChar_ne_nil (List.map_eq_nil_iff.mp hnil)

/-- A character that no rule mentions, neither itself nor the octets it is written with, is a
barrier: what is before it, the character and what is after it are encoded each on its own. -/
theorem encode_barrier {v : Vocabulary} {merges : List String} {b : BytePair}
    (hb : new v merges = .ok b) {c : Char} (hc : ∀ piece ∈ charPieces v c, piece ∉ sides merges)
    (before after : String) :
    b.encode (before ++ c.toString ++ after) =
      b.encode before ++ b.encode c.toString ++ b.encode after := by
  have hvocabulary : b.vocabulary = v := new_eq_ok hb
  have hbarriers : ∀ piece ∈ charPieces v c, Barrier b.ranks piece :=
    fun piece hpiece => barrier_of_not_mem_sides hb (hc piece hpiece)
  have hmerge := merge_barriers (charPieces_ne_nil v c) hbarriers
  have hchar : merge b.ranks (charPieces v c) = charPieces v c := by
    simpa [merge, mergeTimes] using hmerge [] []
  have htext : (before ++ c.toString ++ after).toList = before.toList ++ ([c] ++ after.toList) := by
    simp
  have hone : c.toString.toList = [c] := by simp
  simp only [encode, hvocabulary, htext, hone, initialPieces, List.flatMap_append,
    List.flatMap_singleton, hmerge, hchar, List.filterMap_append, List.append_assoc]

/-- The octets of an accented letter keep the pieces before and after it apart. -/
theorem encode_barrier_accented :
    let tokens := ["<unk>", "h", "e", "he", "ehe", "<0xC3>", "<0xA9>"]
    let merges := ["h e", "e he"]
    ∃ v b, Vocabulary.new tokens none [] (some 0) = .ok v ∧ new v merges = .ok b ∧
      (∀ piece ∈ charPieces v '\u00E9', piece ∉ sides merges) ∧
      b.encode ("he" ++ '\u00E9'.toString ++ "ehe") = [3] ++ [5, 6] ++ [4] := by
  intro tokens merges
  obtain ⟨v, hv⟩ : ∃ v, Vocabulary.new tokens none [] (some 0) = .ok v := ⟨_, rfl⟩
  obtain ⟨b, hb⟩ : ∃ b, new v merges = .ok b := by cases hv; exact ⟨_, rfl⟩
  have hpieces : charPieces v '\u00E9' = ["<0xC3>", "<0xA9>"] := by cases hv; decide +kernel
  have hsides : ∀ piece ∈ charPieces v '\u00E9', piece ∉ sides merges := by
    rw [hpieces]
    decide +kernel
  refine ⟨v, b, hv, hb, hsides, ?_⟩
  rw [encode_barrier hb hsides]
  cases hv
  cases hb
  decide +kernel

end Dialogue.BytePair
