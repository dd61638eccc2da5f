import Mathlib.Data.List.Pairwise
import Dialogue.Proofs.Binary.NotNumbers
import Dialogue.Proofs.Sampling.Candidates

namespace Dialogue

namespace Candidate

variable {cs sorted : List Candidate}

/-- The candidates in descending order, equal logits in the order in which they came. -/
structure Descends (cs sorted : List Candidate) : Prop where
  perm : sorted.Perm cs
  ordered : sorted.Pairwise fun c d => d.logit.rank ≤ c.logit.rank
  stable : ∀ x, sorted.filter (fun c => c.logit = x) = cs.filter fun c => c.logit = x

/-- Some of the candidates in descending order. None of them is less than one that was dropped, and
of equal logits those were kept that came first. -/
structure Foremost (cs kept : List Candidate) : Prop where
  ordered : kept.Pairwise fun c d => d.logit.rank ≤ c.logit.rank
  greatest : ∃ dropped, (kept ++ dropped).Perm cs ∧
    ∀ c ∈ kept, ∀ d ∈ dropped, d.logit.rank ≤ c.logit.rank
  first : ∀ x, kept.filter (fun c => c.logit = x) <+: cs.filter fun c => c.logit = x

theorem descending_trans (a b c : Candidate) (hab : decide (b.logit.rank ≤ a.logit.rank) = true)
    (hbc : decide (c.logit.rank ≤ b.logit.rank) = true) :
    decide (c.logit.rank ≤ a.logit.rank) = true :=
  decide_eq_true (Int.le_trans (of_decide_eq_true hbc) (of_decide_eq_true hab))

theorem descending_total (a b : Candidate) :
    (decide (b.logit.rank ≤ a.logit.rank) || decide (a.logit.rank ≤ b.logit.rank)) = true := by
  rw [Bool.or_eq_true, decide_eq_true_iff, decide_eq_true_iff]
  exact Int.le_total _ _

theorem pairwise_rank_sortDescending (cs : List Candidate) :
    (sortDescending cs).Pairwise fun a b => b.logit.rank ≤ a.logit.rank :=
  (List.pairwise_mergeSort descending_trans descending_total cs).imp of_decide_eq_true

theorem filter_sortDescending (cs : List Candidate) (x : Binary32) :
    (sortDescending cs).filter (fun c => c.logit = x) = cs.filter fun c => c.logit = x := by
  have hequal : (cs.filter fun c => c.logit = x).Pairwise fun a b =>
      decide (b.logit.rank ≤ a.logit.rank) = true := by
    apply List.pairwise_of_forall_mem_list
    intro a ha b hb
    simp only [List.mem_filter, decide_eq_true_eq] at ha hb
    rw [ha.2, hb.2]
    exact decide_eq_true (Int.le_refl _)
  have hsorted : (cs.filter fun c => c.logit = x).Sublist (sortDescending cs) :=
    List.sublist_mergeSort descending_trans descending_total hequal List.filter_sublist
  have hfilter := hsorted.filter fun c => decide (c.logit = x)
  rw [List.filter_filter] at hfilter
  simp only [Bool.and_self] at hfilter
  exact (hfilter.eq_of_length
    ((sortDescending_perm cs).filter _).length_eq.symm).symm

theorem descends_sortDescending (cs : List Candidate) : Descends cs (sortDescending cs) :=
  ⟨sortDescending_perm cs, pairwise_rank_sortDescending cs, filter_sortDescending cs⟩

theorem mem_of_filter_eq {ds : List Candidate}
    (h : ∀ x, cs.filter (fun c => c.logit = x) = ds.filter fun c => c.logit = x) {c : Candidate}
    (hc : c ∈ cs) : c ∈ ds := by
  have hfilter : c ∈ cs.filter fun d => d.logit = c.logit :=
    List.mem_filter.mpr ⟨hc, decide_eq_true rfl⟩
  rw [h] at hfilter
  exact List.mem_of_mem_filter hfilter

theorem rank_le_head {c d : Candidate}
    (h : (c :: cs).Pairwise fun c d => d.logit.rank ≤ c.logit.rank)
    (hd : d ∈ c :: cs) : d.logit.rank ≤ c.logit.rank := by
  rcases List.mem_cons.mp hd with rfl | hd
  · exact Int.le_refl _
  · exact List.rel_of_pairwise_cons h hd

theorem mem_of_mem_take_sortDescending {n : Nat} {c : Candidate}
    (hc : c ∈ (sortDescending cs).take n) : c ∈ cs :=
  (sortDescending_perm cs).mem_iff.mp (List.mem_of_mem_take hc)

theorem exists_greatest_take {n : Nat} (hcs : cs ≠ []) (hn : 0 < n) :
    ∃ first ∈ (sortDescending cs).take n, ∀ c ∈ cs, c.logit.rank ≤ first.logit.rank := by
  have hordered := pairwise_rank_sortDescending cs
  have hmem (c : Candidate) : c ∈ sortDescending cs ↔ c ∈ cs := (sortDescending_perm cs).mem_iff
  obtain ⟨n, rfl⟩ := Nat.exists_eq_succ_of_ne_zero (Nat.ne_of_gt hn)
  generalize sortDescending cs = sorted at hordered hmem
  cases sorted with
  | nil =>
      obtain ⟨c, hc⟩ := List.exists_mem_of_ne_nil cs hcs
      cases (hmem c).mpr hc
  | cons first rest =>
      exact ⟨first, List.mem_cons_self, fun c hc => rank_le_head hordered ((hmem c).mpr hc)⟩

theorem eq_of_filter_eq {ds : List Candidate}
    (hcs : cs.Pairwise fun c d => d.logit.rank ≤ c.logit.rank)
    (hds : ds.Pairwise fun c d => d.logit.rank ≤ c.logit.rank)
    (h : ∀ x, cs.filter (fun c => c.logit = x) = ds.filter fun c => c.logit = x) : cs = ds := by
  induction cs generalizing ds with
  | nil =>
      rw [eq_comm, List.eq_nil_iff_forall_not_mem]
      intro d hd
      cases mem_of_filter_eq (fun x => (h x).symm) hd
  | cons c cs ih =>
      have hc := mem_of_filter_eq h List.mem_cons_self
      cases ds with
      | nil => cases hc
      | cons d ds =>
          have hd := mem_of_filter_eq (fun x => (h x).symm) List.mem_cons_self
          -- each of the two first candidates is in the other list, so their logits are equal
          have hlogit : c.logit = d.logit :=
            Binary.rank_inj.mp (Int.le_antisymm (rank_le_head hds hc) (rank_le_head hcs hd))
          have hhead := h d.logit
          rw [List.filter_cons_of_pos (by simpa using hlogit),
            List.filter_cons_of_pos (by simp), List.cons.injEq] at hhead
          obtain ⟨rfl, -⟩ := hhead
          congr 1
          apply ih hcs.tail hds.tail
          intro x
          have htail := h x
          by_cases hx : c.logit = x
          · rw [List.filter_cons_of_pos (by simpa using hx),
              List.filter_cons_of_pos (by simpa using hx), List.cons.injEq] at htail
            exact htail.2
          · rwa [List.filter_cons_of_neg (by simpa using hx),
              List.filter_cons_of_neg (by simpa using hx)] at htail

/-- There is one descending order of candidates. -/
theorem descends_iff : Descends cs sorted ↔ sorted = sortDescending cs := by
  constructor
  · intro h
    exact eq_of_filter_eq h.ordered (pairwise_rank_sortDescending cs) fun x =>
      (h.stable x).trans (filter_sortDescending cs x).symm
  · rintro rfl
    exact descends_sortDescending cs

theorem descends_iff_forall_mem : Descends cs sorted ↔
    sorted.Perm cs ∧ (sorted.Pairwise fun c d => d.logit.rank ≤ c.logit.rank) ∧
      ∀ c ∈ cs, (sorted.filter fun d => d.logit = c.logit) =
        cs.filter fun d => d.logit = c.logit := by
  constructor
  · intro h
    exact ⟨h.perm, h.ordered, fun c _ => h.stable c.logit⟩
  · rintro ⟨hperm, hordered, hstable⟩
    refine ⟨hperm, hordered, fun x => ?_⟩
    by_cases hx : ∃ c ∈ cs, c.logit = x
    · obtain ⟨c, hc, rfl⟩ := hx
      exact hstable c hc
    · have hnone : cs.filter (fun c => c.logit = x) = [] := by
        rw [List.filter_eq_nil_iff]
        intro c hc hlogit
        exact hx ⟨c, hc, of_decide_eq_true hlogit⟩
      rw [hnone, ← List.perm_nil, ← hnone]
      exact hperm.filter _

instance : Decidable (Descends cs sorted) :=
  decidable_of_iff _ descends_iff_forall_mem.symm

theorem Descends.foremost_take (h : Descends cs sorted) (n : Nat) :
    Foremost cs (sorted.take n) where
  ordered := h.ordered.sublist (List.take_sublist n sorted)
  greatest := by
    have hordered := h.ordered
    rw [← List.take_append_drop n sorted, List.pairwise_append] at hordered
    refine ⟨sorted.drop n, ?_, hordered.2.2⟩
    rw [List.take_append_drop]
    exact h.perm
  first x := by
    refine ⟨(sorted.drop n).filter fun c => c.logit = x, ?_⟩
    rw [← List.filter_append, List.take_append_drop, h.stable]

theorem sortDescending_take (n : Nat) (cs : List Candidate) :
    sortDescending ((sortDescending cs).take n) = (sortDescending cs).take n :=
  List.mergeSort_of_pairwise
    (((pairwise_rank_sortDescending cs).sublist (List.take_sublist n _)).imp decide_eq_true)

end Candidate

namespace Stage

variable {cs : List Candidate} {k : Nat}

/-- Whether all that a stage does is to drop candidates. -/
def isCutoff : Stage → Bool
  | .topK _ | .topP _ => true
  | _ => false

theorem apply_cutoff_cases {stage : Stage} (h : stage.isCutoff = true) (cs : List Candidate) :
    apply cs stage = cs ∨
      ∃ n, 0 < n ∧ apply cs stage = (Candidate.sortDescending cs).take n := by
  cases stage with
  | repetitionPenalty | temperature => cases h
  | topK k =>
      by_cases hkept : k = 0 ∨ cs.length ≤ k
      · exact .inl (if_pos hkept)
      · exact .inr ⟨k, by omega, if_neg hkept⟩
  | topP p =>
      by_cases hkept : cs = [] ∨ 1 ≤ p
      · exact .inl (if_pos hkept)
      · refine .inr ⟨_, nucleusSize_pos ?_ p 0, if_neg hkept⟩
        rw [← List.length_pos_iff, Candidate.length_softmax, Candidate.length_sortDescending,
          List.length_pos_iff]
        exact fun hnil => hkept (.inl hnil)

theorem apply_topK_of_le (h : k = 0 ∨ cs.length ≤ k) : apply cs (.topK k) = cs :=
  if_pos h

theorem apply_topK_of_lt (hk : k ≠ 0) (h : k < cs.length) :
    apply cs (.topK k) = (Candidate.sortDescending cs).take k :=
  if_neg (by omega)

theorem apply_topK_topK {l : Nat} (hk : k ≠ 0) (hl : l ≠ 0) :
    apply (apply cs (.topK l)) (.topK k) = apply cs (.topK (min k l)) := by
  by_cases hlength : cs.length ≤ l
  · rw [apply_topK_of_le (.inr hlength)]
    rcases Nat.le_total k l with hle | hle
    · rw [Nat.min_eq_left hle]
    · rw [Nat.min_eq_right hle, apply_topK_of_le (.inr hlength),
        apply_topK_of_le (.inr (Nat.le_trans hlength hle))]
  · rw [Nat.not_le] at hlength
    have hkept : ((Candidate.sortDescending cs).take l).length = l := by
      rw [List.length_take, Candidate.length_sortDescending]
      omega
    rw [apply_topK_of_lt hl hlength]
    by_cases hlt : k < l
    · rw [apply_topK_of_lt hk (by omega), Candidate.sortDescending_take, List.take_take,
        Nat.min_eq_left (Nat.le_of_lt hlt), apply_topK_of_lt hk (by omega)]
    · rw [apply_topK_of_le (.inr (by omega)), Nat.min_eq_right (by omega),
        apply_topK_of_lt hl hlength]

end Stage

/-- A cutoff below the number of candidates keeps that many of them, the greatest in descending
order and among equal ones those that came first; any other keeps all as they are. Of two cutoffs
one after the other the smaller one counts. -/
theorem top_k_keeps_greatest (k : Nat) (cs : List Candidate) :
    (k = 0 ∨ cs.length ≤ k → Stage.apply cs (.topK k) = cs) ∧
    (k ≠ 0 → k < cs.length →
      (Stage.apply cs (.topK k)).length = k ∧
        Candidate.Foremost cs (Stage.apply cs (.topK k))) ∧
    ∀ l, k ≠ 0 → l ≠ 0 →
      Stage.apply (Stage.apply cs (.topK l)) (.topK k) =
        if min k l < cs.length then Stage.apply cs (.topK (min k l)) else cs := by
  refine ⟨Stage.apply_topK_of_le, fun hk hlength => ?_, fun l hk hl => ?_⟩
  · rw [Stage.apply_topK_of_lt hk hlength]
    refine ⟨?_, (Candidate.descends_sortDescending cs).foremost_take k⟩
    rw [List.length_take, Candidate.length_sortDescending, Nat.min_eq_left (Nat.le_of_lt hlength)]
  · rw [Stage.apply_topK_topK hk hl]
    split
    · rfl
    · exact Stage.apply_topK_of_le (.inr (by omega))

/-- The greatest of four, a not-a-number, and the first of two ones. -/
theorem top_k_keeps_greatest_of_tie :
    let cs : List Candidate := [⟨0, 1⟩, ⟨1, -1⟩, ⟨2, 1⟩, ⟨3, -.invalid⟩]
    2 ≠ 0 ∧ 2 < cs.length ∧ Stage.apply cs (.topK 2) = [⟨3, -.invalid⟩, ⟨0, 1⟩] ∧
      Candidate.Foremost cs [⟨3, -.invalid⟩, ⟨0, 1⟩] ∧
      Stage.apply (Stage.apply cs (.topK 3)) (.topK 2) = [⟨3, -.invalid⟩, ⟨0, 1⟩] := by
  intro cs
  have hdescends : Candidate.Descends cs [⟨3, -.invalid⟩, ⟨0, 1⟩, ⟨2, 1⟩, ⟨1, -1⟩] := by
    decide +kernel
  have hkept : Stage.apply cs (.topK 2) = [⟨3, -.invalid⟩, ⟨0, 1⟩] := by
    rw [Stage.apply_topK_of_lt (by decide) (by decide), ← Candidate.descends_iff.mp hdescends]
    rfl
  obtain ⟨-, hforemost, htwice⟩ := top_k_keeps_greatest 2 cs
  refine ⟨by decide, by decide, hkept, hkept ▸ (hforemost (by decide) (by decide)).2, ?_⟩
  rw [htwice 3 (by decide) (by decide), if_pos (by decide)]
  exact hkept

end Dialogue
