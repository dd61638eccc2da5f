import Dialogue.Proofs.Sampling.Rewinding
import Dialogue.Proofs.Sampling.Validity

namespace Dialogue

open Binary

namespace Stage

/-- What validated parameters make of a stage. A penalty may be infinite. -/
def InRange : Stage → Prop
  | .repetitionPenalty penalty window _ => 1 < penalty ∧ 0 < window
  | .topK k => 0 < k
  | .topP p => 0 < p ∧ p < 1
  | .temperature t => leastTemperature < t ∧ t.isFinite = true

theorem inRange_reset {stage : Stage} : stage.reset.InRange ↔ stage.InRange := by
  cases stage <;> rfl

theorem name_reset (stage : Stage) : stage.reset.name = stage.name := by
  cases stage <;> rfl

theorem reset_eq_temperature_iff {stage : Stage} {t : Binary32} :
    stage.reset = .temperature t ↔ stage = .temperature t := by
  cases stage <;> simp [reset]

theorem name_sublist_of_ite (condition : Prop) [Decidable condition] (stage : Stage) :
    ((if condition then [stage] else []).map name).Sublist [stage.name] := by
  split
  · exact List.Sublist.refl _
  · exact List.nil_sublist _

theorem inRange_ofTemperature {t : Binary32} (hfinite : t.isFinite = true)
    (ht : ¬ t ≤ SamplingParams.greedyTemperature) : (ofTemperature t).InRange := by
  have hnumber : t.isNaN = false := isNaN_of_isFinite hfinite
  have hleast : leastTemperature.isNaN = false := by decide +kernel
  have hlt : leastTemperature < t :=
    ⟨hleast, hnumber, Int.not_le.mp fun hle => ht ⟨hnumber, hleast, hle⟩⟩
  have hgreater : t.greater leastTemperature = t := by
    simp only [greater, hnumber, hleast, Bool.false_eq_true, if_false]
    exact if_neg fun hless => Int.lt_irrefl _ (Int.lt_trans hless.2.2 hlt.2.2)
  rw [ofTemperature, hgreater]
  exact ⟨hlt, hfinite⟩

end Stage

namespace SamplingParams

theorem one_lt_penalty {p : SamplingParams}
    (h : p.validate.repetitionPenalty.isInfinite = true) : 1 < p.validate.repetitionPenalty := by
  have hle : 1 ≤ p.validate.repetitionPenalty := p.valid_validate.repetitionPenalty
  refine ⟨hle.1, hle.2.1, Int.lt_iff_le_and_ne.mpr ⟨hle.2.2, ?_⟩⟩
  intro hvalue
  have hone : (1 : Binary32).value = 0x3f800000 := by decide +kernel
  have hmagnitude := of_decide_eq_true h
  have hinfinity : (Format.single.infinity : Int) = 0x7f800000 := by decide +kernel
  rw [hone, value, hmagnitude] at hvalue
  split at hvalue <;> omega

theorem Valid.inRange_penaltyStages {p : SamplingParams} (h : p.Valid) :
    ∀ stage ∈ p.penaltyStages, stage.InRange := by
  intro stage hstage
  rw [penaltyStages] at hstage
  split at hstage
  · rename_i hpenalty
    rw [List.mem_singleton.mp hstage]
    exact ⟨hpenalty, h.penaltyWindow⟩
  · cases hstage

theorem Valid.inRange_filterStages {p : SamplingParams} (h : p.Valid)
    (hdraws : p.isGreedy = false) : ∀ stage ∈ p.filterStages, stage.InRange := by
  intro stage hstage
  rw [filterStages, List.mem_append, List.mem_cons] at hstage
  rcases hstage with htopK | rfl | htopP
  · split at htopK
    · rename_i hk
      rw [List.mem_singleton.mp htopK]
      exact hk
    · cases htopK
  · rw [isGreedy, decide_eq_false_iff_not] at hdraws
    exact Stage.inRange_ofTemperature h.temperature.1 hdraws
  · split at htopP
    · rename_i hp
      rw [List.mem_singleton.mp htopP]
      exact ⟨h.topP.1, hp⟩
    · cases htopP

theorem Valid.inRange_stages {p : SamplingParams} (h : p.Valid) :
    ∀ stage ∈ p.stages, stage.InRange := by
  intro stage hstage
  rw [stages, List.mem_append] at hstage
  rcases hstage with hpenalty | hfilter
  · exact h.inRange_penaltyStages stage hpenalty
  · split at hfilter
    · cases hfilter
    · rename_i hdraws
      exact h.inRange_filterStages (Bool.eq_false_iff.mpr hdraws) stage hfilter

theorem not_mem_filterStages (p : SamplingParams) (penalty : Binary32) (window : Nat)
    (recent : List TokenId) : Stage.repetitionPenalty penalty window recent ∉ p.filterStages := by
  rw [filterStages, Stage.ofTemperature]
  split <;> split <;> simp

theorem eq_of_mem_stages {p : SamplingParams} {penalty : Binary32} {window : Nat}
    {recent : List TokenId} (h : .repetitionPenalty penalty window recent ∈ p.stages) :
    penalty = p.repetitionPenalty := by
  rw [stages, penaltyStages, List.mem_append] at h
  rcases h with hpenalty | hfilter
  · split at hpenalty
    · cases List.mem_singleton.mp hpenalty
      rfl
    · cases hpenalty
  · split at hfilter
    · cases hfilter
    · exact absurd hfilter (p.not_mem_filterStages _ _ _)

theorem exists_temperature_iff (p : SamplingParams) :
    (∃ t, .temperature t ∈ p.stages) ↔ p.selector = .distribution := by
  have hpenalty (t : Binary32) : .temperature t ∉ p.penaltyStages := by
    rw [penaltyStages, Stage.ofPenalty]
    split <;> simp
  have hfilter : .ofTemperature p.temperature ∈ p.filterStages :=
    List.mem_append_right _ List.mem_cons_self
  rw [stages, selector]
  split
  · simpa using hpenalty
  · exact iff_of_true ⟨_, List.mem_append_right _ hfilter⟩ rfl

theorem names_sublist (p : SamplingParams) :
    (p.stages.map Stage.name ++ [p.selector.name]).Sublist
      ["repetition_penalty", "top_k", "temperature", "top_p", "greedy", "dist"] := by
  have hpenalty : (p.penaltyStages.map Stage.name).Sublist ["repetition_penalty"] :=
    Stage.name_sublist_of_ite _ (.ofPenalty p.repetitionPenalty p.penaltyWindow)
  have hfilter :
      (p.filterStages.map Stage.name).Sublist ["top_k", "temperature", "top_p"] := by
    rw [filterStages, List.map_append, List.map_cons]
    exact (Stage.name_sublist_of_ite _ (.topK p.topK)).append
      ((Stage.name_sublist_of_ite _ (.topP p.topP)).cons_cons _)
  rw [stages, selector, List.map_append, List.append_assoc]
  refine hpenalty.append ?_
  split
  · decide
  · exact hfilter.append (by decide : [Selector.distribution.name].Sublist ["greedy", "dist"])

end SamplingParams

namespace Chain

variable {p : SamplingParams} {c : Chain}

theorem Stems.mem_stages (h : c.Stems p) {stage : Stage}
    (hstage : stage ∈ c.stages) : stage.reset ∈ p.stages := by
  rw [← h.stages]
  exact List.mem_map_of_mem hstage

theorem Stems.inRange (h : c.Stems p.validate) : ∀ stage ∈ c.stages, stage.InRange := by
  intro stage hstage
  exact Stage.inRange_reset.mp (p.valid_validate.inRange_stages _ (h.mem_stages hstage))

/-- A chain has only stages that do something, in their order, and scales candidates exactly if it
draws one. -/
structure WellBuilt (c : Chain) : Prop where
  inRange : ∀ stage ∈ c.stages, stage.InRange
  scales : (∃ t, .temperature t ∈ c.stages) ↔ c.selector = .distribution
  ordered : c.names.Sublist
    ["repetition_penalty", "top_k", "temperature", "top_p", "greedy", "dist"]

theorem Stems.wellBuilt (hvalid : p.Valid) (h : c.Stems p) : c.WellBuilt where
  inRange stage hstage :=
    Stage.inRange_reset.mp (hvalid.inRange_stages _ (h.mem_stages hstage))
  scales := by
    rw [h.selector, ← p.exists_temperature_iff, ← h.stages]
    simp [Stage.reset_eq_temperature_iff]
  ordered := by
    have hnames : c.stages.map Stage.name = p.stages.map Stage.name := by
      rw [← h.stages, List.map_map]
      exact List.map_congr_left fun stage _ => stage.name_reset.symm
    rw [names, hnames, h.selector]
    exact p.names_sublist

theorem wellBuilt_run (hvalid : p.Valid) (entropy : Nat → UInt32)
    (acts : List Act) : ((p.chain entropy).run acts).2.WellBuilt :=
  ((p.anew_chain entropy).stems.run acts).wellBuilt hvalid

end Chain

end Dialogue
