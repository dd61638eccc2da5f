import Dialogue.Proofs.Sampling.Descending

namespace Dialogue

namespace Stage

variable {p : Binary32} {probabilities : List Binary32}

/-- The fewest probabilities, one at least, whose sum reaches `p`; all of them if there are none. -/
structure Nucleus (p : Binary32) (probabilities : List Binary32) (n : Nat) : Prop where
  pos : 0 < n
  le_length : n ≤ probabilities.length
  least : ∀ i, 0 < i → i < n → ¬ p ≤ Random.sum 0 (probabilities.take i)
  reaches : p ≤ Random.sum 0 (probabilities.take n) ∨ n = probabilities.length

theorem nucleusSize_le (p cumulative : Binary32) (probabilities : List Binary32) :
    nucleusSize p cumulative probabilities ≤ probabilities.length := by
  induction probabilities generalizing cumulative with
  | nil => exact Nat.le_refl 0
  | cons q qs ih =>
      rw [nucleusSize, List.length_cons]
      split
      · exact Nat.le_add_left 1 qs.length
      · exact Nat.succ_le_succ (ih (cumulative + q))

theorem not_reaches_of_lt_nucleusSize (cumulative : Binary32) {i : Nat} (hpos : 0 < i)
    (hi : i < nucleusSize p cumulative probabilities) :
    ¬ p ≤ Random.sum cumulative (probabilities.take i) := by
  induction probabilities generalizing cumulative i with
  | nil => exact absurd hi (Nat.not_lt_zero i)
  | cons q qs ih =>
      obtain ⟨i, rfl⟩ := Nat.exists_eq_succ_of_ne_zero (Nat.ne_of_gt hpos)
      rw [nucleusSize] at hi
      rw [List.take_succ_cons, Random.sum, List.foldl_cons]
      split at hi
      · omega
      · rename_i hfirst
        cases i with
        | zero => exact hfirst
        | succ i => exact ih (cumulative + q) (Nat.succ_pos i) (Nat.lt_of_succ_lt_succ hi)

theorem reaches_nucleusSize (p cumulative : Binary32) (probabilities : List Binary32) :
    p ≤ Random.sum cumulative (probabilities.take (nucleusSize p cumulative probabilities)) ∨
      nucleusSize p cumulative probabilities = probabilities.length := by
  induction probabilities generalizing cumulative with
  | nil => exact .inr rfl
  | cons q qs ih =>
      rw [nucleusSize]
      split
      · rename_i hfirst
        exact .inl hfirst
      · rw [List.take_succ_cons, List.length_cons, Nat.succ_inj]
        exact ih (cumulative + q)

theorem nucleus_nucleusSize (h : probabilities ≠ []) (p : Binary32) :
    Nucleus p probabilities (nucleusSize p 0 probabilities) where
  pos := nucleusSize_pos h p 0
  le_length := nucleusSize_le p 0 probabilities
  least _ hpos hi := not_reaches_of_lt_nucleusSize 0 hpos hi
  reaches := reaches_nucleusSize p 0 probabilities

end Stage

/-- A threshold below one, or one that is not a number, keeps the nucleus of the candidates; any
other keeps all as they are. -/
theorem top_p_keeps_nucleus (p : Binary32) (cs : List Candidate) :
    (cs = [] ∨ 1 ≤ p → Stage.apply cs (.topP p) = cs) ∧
    (cs ≠ [] → ¬ 1 ≤ p → ∃ sorted n,
      (∀ other, Candidate.Descends cs other ↔ other = sorted) ∧
      Stage.Nucleus p (Candidate.softmax sorted) n ∧
      Stage.apply cs (.topP p) = sorted.take n ∧
      (Stage.apply cs (.topP p)).length = n ∧
      Candidate.Foremost cs (Stage.apply cs (.topP p))) := by
  refine ⟨fun hkept => if_pos hkept, fun hcs hp => ?_⟩
  have happly : Stage.apply cs (.topP p) = (Candidate.sortDescending cs).take
      (Stage.nucleusSize p 0 (Candidate.softmax (Candidate.sortDescending cs))) :=
    if_neg (not_or.mpr ⟨hcs, hp⟩)
  have hlength : (Candidate.softmax (Candidate.sortDescending cs)).length = cs.length := by
    rw [Candidate.length_softmax, Candidate.length_sortDescending]
  have hprobabilities : Candidate.softmax (Candidate.sortDescending cs) ≠ [] := by
    rw [← List.length_pos_iff, hlength]
    exact List.length_pos_iff.mpr hcs
  have hnucleus := Stage.nucleus_nucleusSize hprobabilities p
  rw [happly]
  refine ⟨_, _, fun other => Candidate.descends_iff, hnucleus, rfl, ?_,
    (Candidate.descends_sortDescending cs).foremost_take _⟩
  rw [List.length_take, Candidate.length_sortDescending, ← hlength]
  exact Nat.min_eq_left hnucleus.le_length

/-- Three candidates are as likely, and two of them are more than half. -/
theorem top_p_keeps_nucleus_of_tie :
    let cs : List Candidate := [⟨0, 0⟩, ⟨1, 1⟩, ⟨2, 1⟩, ⟨3, 1⟩]
    let sorted : List Candidate := [⟨1, 1⟩, ⟨2, 1⟩, ⟨3, 1⟩, ⟨0, 0⟩]
    cs ≠ [] ∧ ¬ (1 : Binary32) ≤ 0.5 ∧ Candidate.Descends cs sorted ∧
      Stage.Nucleus 0.5 (Candidate.softmax sorted) 2 ∧
      Stage.apply cs (.topP 0.5) = [⟨1, 1⟩, ⟨2, 1⟩] := by
  intro cs sorted
  have hdescends : Candidate.Descends cs sorted := by decide +kernel
  have hcs : cs ≠ [] := List.cons_ne_nil _ _
  have hp : ¬ (1 : Binary32) ≤ 0.5 := by decide +kernel
  have hkept : Stage.apply cs (.topP 0.5) = [⟨1, 1⟩, ⟨2, 1⟩] := by
    rw [Stage.apply, if_neg (not_or.mpr ⟨hcs, hp⟩), ← Candidate.descends_iff.mp hdescends]
    decide +kernel
  obtain ⟨other, n, hother, hnucleus, -, hn, -⟩ := (top_p_keeps_nucleus 0.5 cs).2 hcs hp
  rw [hkept] at hn
  rw [← (hother sorted).mp hdescends, ← hn] at hnucleus
  exact ⟨hcs, hp, hdescends, hnucleus, hkept⟩

end Dialogue
