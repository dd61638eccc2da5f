import Dialogue.Proofs.Binary.NotNumbers
import Dialogue.Sampling.Params

namespace Dialogue

/-- A function brings every value into a range and leaves those that are there. -/
structure Clamps {α : Type} (range : α → Prop) (clamp : α → α) : Prop where
  inRange : ∀ x, range (clamp x)
  keeps : ∀ x, range x → clamp x = x

namespace Clamps

variable {α : Type} {range : α → Prop} {clamp : α → α} {default : α}

theorem idem (h : Clamps range clamp) (x : α) : clamp (clamp x) = clamp x :=
  h.keeps _ (h.inRange x)

theorem keep [DecidablePred range] (hdefault : range default) :
    Clamps range fun x => if range x then x else default where
  inRange x := by
    split
    · assumption
    · exact hdefault
  keeps x hx := if_pos hx

theorem replace (hdefault : range default) {bad : α → Prop} [DecidablePred bad]
    (hbad : ∀ x, ¬ bad x ↔ range x) : Clamps range fun x => if bad x then default else x where
  inRange x := by
    split
    · exact hdefault
    · exact (hbad x).mp ‹_›
  keeps x hx := if_neg ((hbad x).mpr hx)

theorem replaceZero {n : Nat} (hn : 1 ≤ n) : Clamps (1 ≤ ·) fun k => if k = 0 then n else k :=
  replace hn fun _ => Nat.pos_iff_ne_zero.symm

end Clamps

namespace SamplingParams

open Binary

def TemperatureInRange (t : Binary32) : Prop :=
  t.isFinite = true ∧ 0 ≤ t

def TopPInRange (p : Binary32) : Prop :=
  0 < p ∧ p ≤ 1

def PenaltyInRange (penalty : Binary32) : Prop :=
  1 ≤ penalty

instance : DecidablePred TemperatureInRange :=
  fun _ => inferInstanceAs (Decidable (_ ∧ _))

instance : DecidablePred TopPInRange :=
  fun _ => inferInstanceAs (Decidable (_ ∧ _))

instance : DecidablePred PenaltyInRange :=
  fun _ => inferInstanceAs (Decidable (_ ≤ _))

structure Valid (p : SamplingParams) : Prop where
  temperature : TemperatureInRange p.temperature
  topP : TopPInRange p.topP
  repetitionPenalty : PenaltyInRange p.repetitionPenalty
  penaltyWindow : 1 ≤ p.penaltyWindow

/-- Parameters have the bits of others in each field that is in range there. -/
structure Retains (p q : SamplingParams) : Prop where
  temperature : TemperatureInRange p.temperature → q.temperature = p.temperature
  topP : TopPInRange p.topP → q.topP = p.topP
  topK : q.topK = p.topK
  repetitionPenalty : PenaltyInRange p.repetitionPenalty →
    q.repetitionPenalty = p.repetitionPenalty
  penaltyWindow : 1 ≤ p.penaltyWindow → q.penaltyWindow = p.penaltyWindow
  seed : q.seed = p.seed

theorem temperatureInRange_iff (t : Binary32) :
    ¬ (!t.isFinite || t < 0) = true ↔ TemperatureInRange t := by
  have hzero : (0 : Binary32).isNaN = false := by decide +kernel
  rw [TemperatureInRange, Bool.not_eq_true, Bool.or_eq_false_iff, Bool.not_eq_false',
    decide_eq_false_iff_not]
  refine and_congr_right fun hfinite => ?_
  have hnumber := isNaN_of_isFinite hfinite
  constructor
  · intro hlt
    exact ⟨hzero, hnumber, Int.not_lt.mp fun h => hlt ⟨hnumber, hzero, h⟩⟩
  · intro hle hlt
    exact Int.not_lt.mpr hle.2.2 hlt.2.2

theorem clamps_validTemperature : Clamps TemperatureInRange validTemperature :=
  .replace (by decide +kernel) temperatureInRange_iff

theorem clamps_validTopP : Clamps TopPInRange validTopP :=
  .keep (by decide +kernel)

theorem clamps_validPenalty : Clamps PenaltyInRange validPenalty :=
  .keep (by decide +kernel)

theorem clamps_penaltyWindow : Clamps (1 ≤ ·) fun n : Nat => if n = 0 then 1 else n :=
  .replaceZero (Nat.le_refl 1)

theorem valid_validate (p : SamplingParams) : p.validate.Valid where
  temperature := clamps_validTemperature.inRange _
  topP := clamps_validTopP.inRange _
  repetitionPenalty := clamps_validPenalty.inRange _
  penaltyWindow := clamps_penaltyWindow.inRange _

theorem retains_validate (p : SamplingParams) : p.Retains p.validate where
  temperature := clamps_validTemperature.keeps _
  topP := clamps_validTopP.keeps _
  topK := rfl
  repetitionPenalty := clamps_validPenalty.keeps _
  penaltyWindow := clamps_penaltyWindow.keeps _
  seed := rfl

theorem Valid.eq_of_retains {p q : SamplingParams} (hp : p.Valid) (h : p.Retains q) : q = p := by
  obtain ⟨_, _, _, _, _, _⟩ := p
  obtain ⟨_, _, _, _, _, _⟩ := q
  rw [mk.injEq]
  exact ⟨h.temperature hp.temperature, h.topP hp.topP, h.topK,
    h.repetitionPenalty hp.repetitionPenalty, h.penaltyWindow hp.penaltyWindow, h.seed⟩

theorem clamps_validate : Clamps Valid validate where
  inRange := valid_validate
  keeps p hp := hp.eq_of_retains p.retains_validate

example :
    ({ temperature := .infinity false, topP := .invalid, repetitionPenalty := .infinity false } :
      SamplingParams).validate =
      { temperature := 0, topP := 1, repetitionPenalty := .infinity false } := by
  decide +kernel

end SamplingParams

end Dialogue
