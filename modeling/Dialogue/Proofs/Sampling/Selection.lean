import Dialogue.Sampling.Chain

namespace Dialogue

namespace Random

theorem length_runningSums (total : Binary32) (weights : List Binary32) :
    (runningSums total weights).length = weights.length := by
  induction weights generalizing total with
  | nil => rfl
  | cons w ws ih => simp [runningSums, ih]

theorem indexOf_lt {weights : List Binary32} (h : weights ≠ []) (x : UInt32) :
    indexOf weights x < weights.length := by
  cases weights with
  | nil => exact absurd rfl h
  | cons w ws =>
      -- the last running sum is the total and is not counted
      rw [indexOf, List.length_cons, Nat.lt_succ_iff]
      apply Nat.le_trans (List.length_filter_le _ _)
      apply Nat.le_of_eq
      rw [List.length_dropLast, List.length_cons, length_runningSums, Nat.add_sub_cancel]

theorem lt_length_of_draw {weights : List Binary32} {s s' : Source} {i : Nat}
    (h : draw weights s = (some i, s')) : i < weights.length := by
  rw [draw] at h
  split at h
  · rename_i hdrawable
    simp only [Prod.mk.injEq, Option.some.injEq] at h
    obtain ⟨rfl, -⟩ := h
    apply indexOf_lt
    rintro rfl
    cases hdrawable
  · cases h

end Random

namespace Candidate

theorem ofLogits_ne_nil {logits : Logits} (h : logits ≠ []) : ofLogits logits ≠ [] := by
  simpa [ofLogits] using h

theorem length_sortDescending (cs : List Candidate) :
    (sortDescending cs).length = cs.length :=
  List.length_mergeSort cs

theorem greatest_isSome {cs : List Candidate} (h : cs ≠ []) : (greatest cs).isSome = true := by
  cases cs with
  | nil => exact absurd rfl h
  | cons c cs => rfl

end Candidate

namespace Stage

theorem nucleusSize_pos {probabilities : List Binary32} (h : probabilities ≠ [])
    (p cumulative : Binary32) : 0 < nucleusSize p cumulative probabilities := by
  cases probabilities with
  | nil => exact absurd rfl h
  | cons q qs =>
      rw [nucleusSize]
      split <;> omega

theorem apply_ne_nil {cs : List Candidate} (h : cs ≠ []) (stage : Stage) : apply cs stage ≠ [] := by
  have hlength := List.length_pos_iff.mpr h
  rw [← List.length_pos_iff]
  cases stage with
  | repetitionPenalty penalty window recent => simpa [apply] using hlength
  | temperature t => simpa [apply] using hlength
  | topK k =>
      rw [apply]
      split
      · exact hlength
      · rw [List.length_take, Candidate.length_sortDescending]
        omega
  | topP p =>
      rw [apply]
      split
      · exact hlength
      · have hne : Candidate.softmax (Candidate.sortDescending cs) ≠ [] := by
          rw [← List.length_pos_iff, Candidate.length_softmax, Candidate.length_sortDescending]
          exact hlength
        have hsize := nucleusSize_pos hne p 0
        rw [List.length_take, Candidate.length_sortDescending]
        omega

end Stage

theorem Selector.select_isSome {cs : List Candidate} (h : cs ≠ []) (source : Random.Source)
    (selector : Selector) : (selector.select cs source).1.isSome = true := by
  have hgreedy : (greedyToken cs).isSome = true := by
    rw [greedyToken, Option.isSome_map]
    exact Candidate.greatest_isSome h
  cases selector with
  | greedy => exact hgreedy
  | distribution =>
      rw [select]
      rcases hdraw : Random.draw (Candidate.softmax cs) source with ⟨i | i, source'⟩
      · exact hgreedy
      · have hi := Random.lt_length_of_draw hdraw
        rw [Candidate.length_softmax] at hi
        simp [hi]

namespace Chain

theorem applyStages_ne_nil {cs : List Candidate} (h : cs ≠ []) (stages : List Stage) :
    applyStages stages cs ≠ [] := by
  induction stages generalizing cs with
  | nil => exact h
  | cons stage stages ih => exact ih (Stage.apply_ne_nil h stage)

theorem sample_isSome {logits : Logits} (h : logits ≠ []) (c : Chain) :
    (c.sample logits).1.isSome = true :=
  Selector.select_isSome (applyStages_ne_nil (Candidate.ofLogits_ne_nil h) c.stages) c.source
    c.selector

end Chain

end Dialogue
