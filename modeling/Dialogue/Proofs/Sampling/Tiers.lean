import Mathlib.Order.Basic
import Dialogue.Proofs.Sampling.Descending
import Dialogue.Proofs.Sampling.Ranges

/-!
Candidates by the tier of their logits. Scaling never raises a tier, and lowers one only where an
infinite penalty leaves a number without a value; sorting puts the greatest tier first, so that no
cut takes it away; and what is selected in the end is of the greatest tier that is left.
-/

namespace Dialogue

open Binary

namespace Stage

variable {penalty t x : Binary32}

/-- Where a penalty leaves a number without a value: it is infinite, and so is the number, or the
number is zero. -/
theorem penalize_cases (hpenalty : 1 < penalty) (hx : x.isNaN = false) :
    if (penalty.isInfinite && (x.isZero || x.isInfinite && decide (0 < x))) = true then
      penalize penalty x = invalid
    else (penalize penalty x).isNaN = false := by
  have hone : (0 : Int) ≤ (1 : Binary32).value := by decide +kernel
  have hnull : (0 : Int) ≤ (0 : Binary32).value := by decide +kernel
  by_cases hpositive : 0 < x
  · have hquotient := div_cases hx hpenalty.2.1
    rw [show penalize penalty x = x / penalty from if_pos hpositive]
    simpa [hpositive, isZero_eq_false_of_lt hnull hpositive, Bool.and_comm] using hquotient
  · have hproduct := mul_cases hx hpenalty.2.1
    rw [show penalize penalty x = x * penalty from if_neg hpositive]
    simpa [hpositive, isZero_eq_false_of_lt hone hpenalty, Bool.and_comm] using hproduct

theorem penalize_of_isNaN (hx : x.isNaN = true) : penalize penalty x = x.quiet := by
  rw [penalize, mul_of_isNaN hx, div_of_isNaN hx, ite_self]

theorem tier_penalize_le (hpenalty : 1 < penalty) : (penalize penalty x).tier ≤ x.tier := by
  cases hx : x.isNaN
  · have hcases := penalize_cases hpenalty hx
    rw [tier_eq_one_iff.mpr hx]
    split at hcases
    · rw [hcases]
      decide +kernel
    · exact Nat.le_of_eq (tier_eq_one_iff.mpr hcases)
  · rw [penalize_of_isNaN hx]
    exact Nat.le_of_eq (tier_quiet hx)

theorem tier_penalize (hpenalty : 1 < penalty) (h : penalty.isInfinite = false ∨ x.isNaN = true) :
    (penalize penalty x).tier = x.tier := by
  cases hx : x.isNaN
  · have hcases := penalize_cases hpenalty hx
    rw [hx] at h
    rw [h.resolve_right nofun] at hcases
    rw [tier_eq_one_iff.mpr hx, tier_eq_one_iff.mpr hcases]
  · rw [penalize_of_isNaN hx, tier_quiet hx]

theorem tier_div (ht : (temperature t).InRange) (x : Binary32) : (x / t).tier = x.tier := by
  obtain ⟨hleast, hfinite⟩ := ht
  cases hx : x.isNaN
  · have hpositive : (0 : Int) ≤ leastTemperature.value := by decide +kernel
    have hcases := div_cases hx hleast.2.1
    rw [isZero_eq_false_of_lt hpositive hleast, isInfinite_of_isFinite hfinite] at hcases
    simp only [Bool.and_false, Bool.or_false, Bool.false_eq_true, if_false] at hcases
    rw [tier_eq_one_iff.mpr hx, tier_eq_one_iff.mpr hcases]
  · rw [div_of_isNaN hx, tier_quiet hx]

/-- Whether candidates that reach a tier still do after the stage. -/
def Keeps (tier : Nat) : Stage → Prop
  | .repetitionPenalty penalty _ _ => penalty.isInfinite = false ∨ tier = 2
  | _ => True

/-- What a stage makes of a candidate if it drops none. -/
structure Scales (stage : Stage) (c c' : Candidate) : Prop where
  token : c'.token = c.token
  le : c'.logit.tier ≤ c.logit.tier
  keeps : ∀ {tier}, stage.Keeps tier → tier ≤ c.logit.tier → tier ≤ c'.logit.tier

theorem Scales.of_tier_eq {stage : Stage} {c : Candidate} (htier : x.tier = c.logit.tier) :
    stage.Scales c { c with logit := x } where
  token := rfl
  le := Nat.le_of_eq htier
  keeps _ h := h.trans_eq htier.symm

theorem Scales.penalize {window : Nat} {recent : List TokenId}
    (hstage : (repetitionPenalty penalty window recent).InRange) (c : Candidate) :
    (repetitionPenalty penalty window recent).Scales c
      { c with logit := penalize penalty c.logit } where
  token := rfl
  le := tier_penalize_le hstage.1
  keeps := by
    rintro tier hkeeps hle
    have h : penalty.isInfinite = false ∨ c.logit.isNaN = true := by
      apply hkeeps.imp_right
      rintro rfl
      exact (tier_eq_two_iff.mp (Nat.le_antisymm c.logit.tier_le_two hle)).1
    exact hle.trans_eq (tier_penalize hstage.1 h).symm

theorem apply_cases {stage : Stage} (hstage : stage.InRange) (cs : List Candidate) :
    (∃ scale : Candidate → Candidate, apply cs stage = cs.map scale ∧
      ∀ c, stage.Scales c (scale c)) ∨
    ∃ n, 0 < n ∧ apply cs stage = (Candidate.sortDescending cs).take n := by
  have hsame : apply cs stage = cs → ∃ scale : Candidate → Candidate,
      apply cs stage = cs.map scale ∧ ∀ c, stage.Scales c (scale c) := fun heq =>
    ⟨id, by rw [heq, List.map_id], fun c => .of_tier_eq rfl⟩
  cases stage with
  | repetitionPenalty penalty window recent =>
      refine .inl ⟨_, rfl, ?_⟩
      intro c
      split
      · exact .penalize hstage c
      · exact .of_tier_eq rfl
  | temperature t => exact .inl ⟨_, rfl, fun c => .of_tier_eq (tier_div hstage c.logit)⟩
  | topK | topP => exact (apply_cutoff_cases rfl cs).imp_left hsame

end Stage

namespace Candidate

variable {cs : List Candidate} {c : Candidate} {tier : Nat}

theorem pairwise_tier_sortDescending (cs : List Candidate) :
    (sortDescending cs).Pairwise fun a b => b.logit.tier ≤ a.logit.tier :=
  (pairwise_rank_sortDescending cs).imp tier_mono

/-- Some candidate is of a tier or of a greater one. -/
def Reaches (tier : Nat) (cs : List Candidate) : Prop :=
  ∃ c ∈ cs, tier ≤ c.logit.tier

theorem Reaches.take_sortDescending (h : Reaches tier cs) {n : Nat} (hn : 0 < n) :
    Reaches tier ((sortDescending cs).take n) := by
  obtain ⟨d, hd, hle⟩ := h
  obtain ⟨first, hfirst, hrank⟩ := exists_greatest_take (List.ne_nil_of_mem hd) hn
  exact ⟨first, hfirst, Nat.le_trans hle (tier_mono (hrank d hd))⟩

theorem Reaches.apply (h : Reaches tier cs) {stage : Stage} (hstage : stage.InRange)
    (hkeeps : stage.Keeps tier) : Reaches tier (Stage.apply cs stage) := by
  rcases Stage.apply_cases hstage cs with ⟨scale, happly, hscale⟩ | ⟨n, hn, happly⟩
  · obtain ⟨c, hc, hle⟩ := h
    rw [happly]
    exact ⟨scale c, List.mem_map_of_mem hc, (hscale c).keeps hkeeps hle⟩
  · rw [happly]
    exact h.take_sortDescending hn

theorem exists_of_mem_apply {stage : Stage} (hstage : stage.InRange)
    (hc : c ∈ Stage.apply cs stage) :
    ∃ d ∈ cs, d.token = c.token ∧ c.logit.tier ≤ d.logit.tier := by
  rcases Stage.apply_cases hstage cs with ⟨scale, happly, hscale⟩ | ⟨n, hn, happly⟩
  · rw [happly] at hc
    obtain ⟨d, hd, rfl⟩ := List.mem_map.mp hc
    exact ⟨d, hd, (hscale d).token.symm, (hscale d).le⟩
  · rw [happly] at hc
    exact ⟨c, mem_of_mem_take_sortDescending hc, rfl, Nat.le_refl _⟩

theorem isNaN_of_drawable (h : Random.drawable (softmax cs) = true) (hc : c ∈ cs) :
    c.logit.isNaN = false := by
  rw [← Bool.not_eq_true]
  intro hnan
  -- its weight is not a number whatever the greatest logit and the sum of the weights are
  obtain ⟨w, hw, hweight⟩ : ∃ w ∈ softmax cs, w.isNaN = true := by
    refine ⟨_, List.mem_map_of_mem (List.mem_map_of_mem hc), ?_⟩
    have hexp : (c.logit - maxLogit cs).exp.isNaN = true := by
      rw [sub_of_isNaN hnan, exp_of_isNaN (isNaN_quiet hnan)]
      exact isNaN_quiet (isNaN_quiet hnan)
    rw [div_of_isNaN hexp]
    exact isNaN_quiet hexp
  rcases hweights : softmax cs with _ | ⟨first, rest⟩
  · rw [hweights] at hw
    cases hw
  · rw [hweights] at h hw
    rw [Random.drawable, Bool.and_eq_true, List.all_eq_true] at h
    have hnonnegative := of_decide_eq_true (h.1 w hw)
    rw [hnonnegative.2.1] at hweight
    cases hweight

theorem mem_ofLogits {logits : Logits} :
    c ∈ ofLogits logits ↔ ∃ i, logits[i]? = some c.logit ∧ c.token = UInt32.ofNat i := by
  obtain ⟨token, logit⟩ := c
  rw [ofLogits, List.mem_map]
  constructor
  · rintro ⟨⟨x, i⟩, hmem, heq⟩
    cases heq
    exact ⟨i, List.mem_zipIdx_iff_getElem?.mp hmem, rfl⟩
  · rintro ⟨i, hi, rfl⟩
    exact ⟨(logit, i), List.mem_zipIdx_iff_getElem?.mpr hi, rfl⟩

end Candidate

theorem Selector.exists_of_select {cs : List Candidate} {source : Random.Source}
    {selector : Selector} {token : TokenId} (h : (selector.select cs source).1 = some token) :
    ∃ c ∈ cs, c.token = token ∧ ∀ d ∈ cs, d.logit.tier ≤ c.logit.tier := by
  have hgreedy : greedyToken cs = some token →
      ∃ c ∈ cs, c.token = token ∧ ∀ d ∈ cs, d.logit.tier ≤ c.logit.tier := by
    intro hgreedy
    obtain ⟨c, hc, rfl⟩ := Option.map_eq_some_iff.mp hgreedy
    exact ⟨c, Candidate.greatest_mem hc, rfl,
      fun d hd => tier_mono (Candidate.rank_le_greatest hc d hd)⟩
  cases selector with
  | greedy => exact hgreedy h
  | distribution =>
      rw [select, Random.draw] at h
      by_cases hdrawable : Random.drawable (Candidate.softmax cs) = true
      · rw [if_pos hdrawable] at h
        obtain ⟨c, hc, rfl⟩ := Option.map_eq_some_iff.mp h
        have hmem := List.mem_of_getElem? hc
        -- a draw is made only among numbers, which are all of one tier
        have htier (d : Candidate) (hd : d ∈ cs) : d.logit.tier = 1 :=
          tier_eq_one_iff.mpr (Candidate.isNaN_of_drawable hdrawable hd)
        exact ⟨c, hmem, rfl, fun d hd => Nat.le_of_eq ((htier d hd).trans (htier c hmem).symm)⟩
      · rw [if_neg hdrawable] at h
        exact hgreedy h

namespace Chain

open Candidate (Reaches)

variable {stages : List Stage} {cs : List Candidate} {tier : Nat}

theorem reaches_applyStages (hstages : ∀ stage ∈ stages, stage.InRange)
    (hkeeps : ∀ stage ∈ stages, stage.Keeps tier) (h : Reaches tier cs) :
    Reaches tier (applyStages stages cs) := by
  induction stages generalizing cs with
  | nil => exact h
  | cons stage stages ih =>
      rw [List.forall_mem_cons] at hstages hkeeps
      exact ih hstages.2 hkeeps.2 (h.apply hstages.1 hkeeps.1)

theorem exists_of_mem_applyStages (hstages : ∀ stage ∈ stages, stage.InRange) {c : Candidate}
    (hc : c ∈ applyStages stages cs) :
    ∃ d ∈ cs, d.token = c.token ∧ c.logit.tier ≤ d.logit.tier := by
  induction stages generalizing cs with
  | nil => exact ⟨c, hc, rfl, Nat.le_refl _⟩
  | cons stage stages ih =>
      rw [List.forall_mem_cons] at hstages
      obtain ⟨e, he, htoken, htier⟩ := ih hstages.2 hc
      obtain ⟨d, hd, htoken', htier'⟩ := Candidate.exists_of_mem_apply hstages.1 he
      exact ⟨d, hd, htoken'.trans htoken, Nat.le_trans htier htier'⟩

theorem exists_of_sample {c : Chain} (hstages : ∀ stage ∈ c.stages, stage.InRange)
    {logits : Logits} (h : logits ≠ []) :
    ∃ i x, logits[i]? = some x ∧ (c.sample logits).1 = some (UInt32.ofNat i) ∧
      ∀ y ∈ logits, (∀ stage ∈ c.stages, stage.Keeps y.tier) → y.tier ≤ x.tier := by
  obtain ⟨token, htoken⟩ := Option.isSome_iff_exists.mp (sample_isSome h c)
  obtain ⟨e, he, rfl, hgreatest⟩ := Selector.exists_of_select htoken
  obtain ⟨d, hd, htoken', htier⟩ := exists_of_mem_applyStages hstages he
  obtain ⟨i, hi, hindex⟩ := Candidate.mem_ofLogits.mp hd
  refine ⟨i, d.logit, hi, ?_, ?_⟩
  · rw [htoken, ← htoken', hindex]
  · intro y hy hkeeps
    obtain ⟨j, hj⟩ := List.mem_iff_getElem?.mp hy
    have hreaches : Reaches y.tier (Candidate.ofLogits logits) :=
      ⟨⟨UInt32.ofNat j, y⟩, Candidate.mem_ofLogits.mpr ⟨j, hj, rfl⟩, Nat.le_refl _⟩
    obtain ⟨c', hc', hle⟩ := reaches_applyStages hstages hkeeps hreaches
    exact Nat.le_trans hle (Nat.le_trans (hgreatest c' hc') htier)

end Chain

namespace Stage

theorem keeps_two (stage : Stage) : stage.Keeps 2 := by
  cases stage with
  | repetitionPenalty => exact .inr rfl
  | topK | topP | temperature => trivial

/-- Whether a stage sorts that many candidates; a cutoff that is not below their number does not. -/
def Sorts (count : Nat) : Stage → Prop
  | .topK k => k < count
  | .topP _ => True
  | _ => False

theorem pairwise_tier_apply {stage : Stage} {cs : List Candidate} (hstage : stage.InRange)
    (hsorts : stage.Sorts cs.length) :
    (apply cs stage).Pairwise fun a b => b.logit.tier ≤ a.logit.tier := by
  have htake (n : Nat) :=
    (Candidate.pairwise_tier_sortDescending cs).sublist (List.take_sublist n _)
  cases stage with
  | topK k =>
      have hcut : ¬ (k = 0 ∨ cs.length ≤ k) := by
        rintro (rfl | hle)
        · exact Nat.lt_irrefl 0 hstage
        · exact Nat.not_le_of_lt hsorts hle
      rw [apply, if_neg hcut]
      exact htake k
  | topP p =>
      rw [apply]
      split
      · rename_i hkept
        rcases hkept with rfl | hle
        · exact .nil
        · exact absurd hstage.2.2.2 (Int.not_lt.mpr hle.2.2)
      · exact htake _
  | repetitionPenalty | temperature => cases hsorts

end Stage

/-- No number comes after a logit that is not one. -/
def Candidate.NumbersFirst (cs : List Candidate) : Prop :=
  cs.Pairwise fun a b => a.logit.isNaN = true → b.logit.isNaN = true

namespace Chain

variable {q : SamplingParams} {c : Chain} {logits : Logits}

/-- The token that is sampled is the index of a logit with a property. -/
def Samples (c : Chain) (logits : Logits) (P : Binary32 → Prop) : Prop :=
  ∃ i x, logits[i]? = some x ∧ P x ∧ (c.sample logits).1 = some (UInt32.ofNat i)

theorem Stems.keeps (h : c.Stems q) (hpenalty : q.repetitionPenalty.isInfinite = false)
    (tier : Nat) : ∀ stage ∈ c.stages, stage.Keeps tier := by
  intro stage hstage
  cases stage with
  | repetitionPenalty penalty window recent =>
      have heq := SamplingParams.eq_of_mem_stages (h.mem_stages hstage)
      rw [← heq] at hpenalty
      exact .inl hpenalty
  | topK | topP | temperature => trivial

theorem numbersFirst_applyStages {before : List Stage} {stage : Stage}
    (hbefore : ∀ stage ∈ before, stage.InRange) (hstage : stage.InRange)
    (hlogits : ∀ x ∈ logits, x.tier ≤ 1)
    (hsorts : stage.Sorts (applyStages before (Candidate.ofLogits logits)).length) :
    Candidate.NumbersFirst (applyStages (before ++ [stage]) (Candidate.ofLogits logits)) := by
  have hstages : ∀ s ∈ before ++ [stage], s.InRange := by
    rw [List.forall_mem_append, List.forall_mem_singleton]
    exact ⟨hbefore, hstage⟩
  have hsorted : (applyStages (before ++ [stage]) (Candidate.ofLogits logits)).Pairwise
      fun a b => b.logit.tier ≤ a.logit.tier := by
    rw [applyStages, List.foldl_concat]
    exact Stage.pairwise_tier_apply hstage hsorts
  refine hsorted.imp_of_mem ?_
  intro a b ha hb hle hnan
  obtain ⟨d, hd, -, htier⟩ := exists_of_mem_applyStages hstages ha
  obtain ⟨i, hi, -⟩ := Candidate.mem_ofLogits.mp hd
  have hd := hlogits d.logit (List.mem_of_getElem? hi)
  have hone : a.logit.tier ≠ 1 := by
    rw [ne_eq, tier_eq_one_iff, hnan]
    nofun
  have hzero : b.logit.tier = 0 := by omega
  exact (tier_eq_zero_iff.mp hzero).1

/-- A logit that is not a number wins only without a sign. With a finite penalty those with one come
last wherever candidates are sorted, and a number is sampled; but as soon as there is one without,
such a one is sampled. -/
theorem samples_number_or_unsigned (q : SamplingParams) (entropy : Nat → UInt32) (acts : List Act)
    (logits : Logits) (hnumber : ∃ x ∈ logits, x.isNaN = false) :
    let c := ((q.validate.chain entropy).run acts).2
    ((∀ x ∈ logits, x.isNaN = true → x.negative = true) →
      q.validate.repetitionPenalty.isInfinite = false →
      (c.Samples logits fun x => x.isNaN = false) ∧
      ∀ before stage, before ++ [stage] <+: c.stages →
        stage.Sorts (applyStages before (Candidate.ofLogits logits)).length →
        Candidate.NumbersFirst (applyStages (before ++ [stage]) (Candidate.ofLogits logits))) ∧
    ((∃ x ∈ logits, x.isNaN = true ∧ x.negative = false) →
      c.Samples logits fun x => x.isNaN = true ∧ x.negative = false) := by
  intro c
  have hstems : c.Stems q.validate := (q.validate.anew_chain entropy).stems.run acts
  obtain ⟨y, hy, hynumber⟩ := hnumber
  obtain ⟨i, x, hi, hsample, hgreatest⟩ :=
    exists_of_sample hstems.inRange (List.ne_nil_of_mem hy)
  constructor
  · intro hsigned hpenalty
    constructor
    · have hle := hgreatest y hy (hstems.keeps hpenalty _)
      have hone := tier_le_one_iff.mpr (hsigned x (List.mem_of_getElem? hi))
      rw [tier_eq_one_iff.mpr hynumber] at hle
      exact ⟨i, x, hi, tier_eq_one_iff.mp (by omega), hsample⟩
    · rintro before stage ⟨after, hprefix⟩ hsorts
      have hrange := hstems.inRange
      rw [← hprefix, List.forall_mem_append, List.forall_mem_append,
        List.forall_mem_singleton] at hrange
      exact numbersFirst_applyStages hrange.1.1 hrange.1.2
        (fun x hx => tier_le_one_iff.mpr (hsigned x hx)) hsorts
  · rintro ⟨z, hz, hpositive⟩
    have htwo : z.tier = 2 := tier_eq_two_iff.mpr hpositive
    have hle := hgreatest z hz fun stage _ => by rw [htwo]; exact stage.keeps_two
    have hle' := x.tier_le_two
    exact ⟨i, x, hi, tier_eq_two_iff.mp (by omega), hsample⟩

theorem samples_number_over_signed :
    (∃ x ∈ [ofBits 0xffc00000, (1 : Binary32)], x.isNaN = false) ∧
      ((({ topK := 1 } : SamplingParams).validate.chain fun _ => 0).run [.accept 1]).2.Samples
        [ofBits 0xffc00000, 1] fun x => x.isNaN = false := by
  have hnumber : ∃ x ∈ [ofBits 0xffc00000, (1 : Binary32)], x.isNaN = false :=
    ⟨1, List.mem_cons_of_mem _ List.mem_cons_self, by decide +kernel⟩
  have hwins := samples_number_or_unsigned { topK := 1 } (fun _ => 0) [.accept 1] _ hnumber
  exact ⟨hnumber, (hwins.1 (by decide +kernel) (by decide +kernel)).1⟩

/-- The token of a logit that is not a number is sampled beside one that is. -/
theorem samples_unsigned_over_one :
    ¬ (SamplingParams.greedy.validate.chain fun _ => 0).Samples [ofBits 0x7fc00000, 1]
      fun x => x.isNaN = false := by
  rintro ⟨i, x, hi, hx, hsample⟩
  have hfirst : ((SamplingParams.greedy.validate.chain fun _ => 0).sample
      [ofBits 0x7fc00000, 1]).1 = some 0 := by decide +kernel
  rw [hfirst] at hsample
  match i with
  | 0 =>
      cases hi
      exact absurd hx (by decide +kernel)
  | 1 => exact absurd hsample (by decide)
  | i + 2 => cases hi

end Chain

end Dialogue
