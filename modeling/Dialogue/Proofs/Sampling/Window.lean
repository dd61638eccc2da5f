import Mathlib.Data.List.DropRight
import Dialogue.Proofs.Sampling.Tiers

namespace Dialogue

open Binary

namespace Stage

theorem length_rtake {α : Type} (n : Nat) (l : List α) : (l.rtake n).length = min n l.length := by
  rw [List.rtake, List.length_drop]
  omega

theorem tail_rtake {α : Type} {n : Nat} {l : List α} (h : n < l.length) :
    (l.rtake (n + 1)).tail = l.rtake n := by
  rw [List.rtake, List.rtake, List.tail_drop]
  congr 1
  omega

theorem remember_rtake (window : Nat) (accepted : List TokenId) (token : TokenId) :
    remember window (accepted.rtake window) token = (accepted ++ [token]).rtake window := by
  cases window with
  | zero => rw [remember, if_pos rfl, List.rtake_zero, List.rtake_zero]
  | succ n =>
      rw [remember, if_neg (Nat.succ_ne_zero n), List.rtake_concat_succ, length_rtake]
      split
      · rw [tail_rtake (by omega)]
      · have hall (m : Nat) (hm : accepted.length ≤ m) : accepted.rtake m = accepted := by
          rw [List.rtake, Nat.sub_eq_zero_of_le hm, List.drop_zero]
        rw [hall (n + 1) (by omega), hall n (by omega)]

/-- A window holds the last tokens that were accepted. -/
theorem foldl_remember (window : Nat) (accepted : List TokenId) :
    accepted.foldl (remember window) [] = accepted.rtake window := by
  induction accepted using List.reverseRecOn with
  | nil => rw [List.foldl_nil, List.rtake_nil]
  | append_singleton accepted token ih =>
      rw [List.foldl_append, List.foldl_cons, List.foldl_nil, ih, remember_rtake]

/-- A window on tokens holds the last of them, as many as it has room for. -/
structure Window (window : Nat) (tokens recent : List TokenId) : Prop where
  suffix : recent <:+ tokens
  length : recent.length = min window tokens.length

theorem window_rtake (window : Nat) (tokens : List TokenId) :
    Window window tokens (tokens.rtake window) :=
  ⟨List.drop_suffix _ tokens, length_rtake window tokens⟩

theorem Window.eq {window : Nat} {tokens recent : List TokenId}
    (h : Window window tokens recent) : recent = tokens.rtake window := by
  rw [List.suffix_iff_eq_drop.mp h.suffix, h.length, List.rtake]
  congr 1
  omega

def acceptAll (accepted : List TokenId) (stage : Stage) : Stage :=
  accepted.foldl (fun stage token => stage.accept token) stage

theorem acceptAll_penalty (penalty : Binary32) (window : Nat) (recent accepted : List TokenId) :
    acceptAll accepted (.repetitionPenalty penalty window recent) =
      .repetitionPenalty penalty window (accepted.foldl (remember window) recent) := by
  induction accepted generalizing recent with
  | nil => rfl
  | cons token accepted ih => exact ih (remember window recent token)

theorem acceptAll_ofPenalty (penalty : Binary32) (window : Nat) (accepted : List TokenId) :
    acceptAll accepted (ofPenalty penalty window) =
      .repetitionPenalty penalty window (accepted.rtake window) := by
  rw [ofPenalty, acceptAll_penalty, foldl_remember]

theorem acceptAll_concat (accepted : List TokenId) (token : TokenId) (stage : Stage) :
    acceptAll (accepted ++ [token]) stage = (acceptAll accepted stage).accept token :=
  List.foldl_append

theorem reset_acceptAll (accepted : List TokenId) (stage : Stage) :
    (acceptAll accepted stage).reset = stage.reset := by
  induction accepted generalizing stage with
  | nil => rfl
  | cons token accepted ih => exact (ih (stage.accept token)).trans (stage.reset_accept token)

theorem hearAll_eq_acceptAll {stage : Stage} (h : stage.reset = stage) (acts : List Chain.Act) :
    hearAll acts stage = acceptAll (Chain.accepted acts) stage := by
  induction acts using List.reverseRecOn with
  | nil => rfl
  | append_singleton acts act ih =>
      rw [hearAll, List.foldl_append, List.foldl_cons, List.foldl_nil, ← hearAll, ih,
        Chain.accepted_concat]
      cases act with
      | sample logits => rfl
      | accept token => exact (acceptAll_concat _ token stage).symm
      | reset => exact (reset_acceptAll _ _).trans h

end Stage

namespace Candidate

variable {cs : List Candidate}

/-- What a penalty on tokens makes of a candidate. -/
structure Penalized (penalty : Binary32) (tokens : List TokenId) (c c' : Candidate) : Prop where
  token : c'.token = c.token
  divided : c.token ∈ tokens → 0 < c.logit → c'.logit = c.logit / penalty
  multiplied : c.token ∈ tokens → ¬ 0 < c.logit → c'.logit = c.logit * penalty
  kept : c.token ∉ tokens → c'.logit = c.logit

theorem forall₂_penalized (penalty : Binary32) (window : Nat) (tokens : List TokenId)
    (cs : List Candidate) : List.Forall₂ (Penalized penalty tokens) cs
      (Stage.apply cs (.repetitionPenalty penalty window tokens)) := by
  rw [Stage.apply, List.forall₂_map_right_iff, List.forall₂_same]
  intro c hc
  by_cases hmem : c.token ∈ tokens
  · rw [if_pos (List.contains_iff_mem.mpr hmem)]
    exact ⟨rfl, fun _ hpositive => if_pos hpositive, fun _ hother => if_neg hother,
      fun hnot => absurd hmem hnot⟩
  · rw [if_neg (by simpa using hmem)]
    exact ⟨rfl, fun hin => absurd hin hmem, fun hin => absurd hin hmem, fun _ => rfl⟩

def Numbers (cs : List Candidate) : Prop :=
  ∀ c ∈ cs, c.logit.isNaN = false

theorem Numbers.apply (h : Numbers cs) {stage : Stage} (hstage : stage.InRange)
    (hkeeps : stage.Keeps 1) : Numbers (Stage.apply cs stage) := by
  intro c hc
  rcases Stage.apply_cases hstage cs with ⟨scale, happly, hscale⟩ | ⟨n, -, happly⟩
  · rw [happly] at hc
    obtain ⟨d, hd, rfl⟩ := List.mem_map.mp hc
    have hone := tier_eq_one_iff.mpr (h d hd)
    have hle := (hscale d).le
    have hge := (hscale d).keeps hkeeps (Nat.le_of_eq hone.symm)
    exact tier_eq_one_iff.mp (by omega)
  · rw [happly] at hc
    exact h c (mem_of_mem_take_sortDescending hc)

theorem Numbers.applyStages (h : Numbers cs) {stages used : List Stage}
    (hstages : ∀ stage ∈ stages, stage.InRange ∧ stage.Keeps 1) (hused : used.Sublist stages) :
    Numbers (Chain.applyStages used cs) := by
  have hkept : ∀ stage ∈ used, stage.InRange ∧ stage.Keeps 1 :=
    fun stage hstage => hstages stage (hused.subset hstage)
  clear hused
  induction used generalizing cs with
  | nil => exact h
  | cons stage used ih =>
      rw [List.forall_mem_cons] at hkept
      exact ih (h.apply hkept.1.1 hkept.1.2) hkept.2

/-- An infinite penalty leaves the zeros of its window without a value, and no other number. -/
theorem numbers_apply_penalty_iff {penalty : Binary32} (window : Nat) (recent : List TokenId)
    (hpenalty : 1 < penalty) (hinfinite : penalty.isInfinite = true)
    (hfinite : ∀ c ∈ cs, c.logit.isFinite = true) :
    Numbers (Stage.apply cs (.repetitionPenalty penalty window recent)) ↔
      ∀ c ∈ cs, c.token ∈ recent → c.logit.isZero = false := by
  have hvalue (c : Candidate) (hc : c ∈ cs) :
      (Stage.penalize penalty c.logit).isNaN = c.logit.isZero := by
    have hcases := Stage.penalize_cases hpenalty (isNaN_of_isFinite (hfinite c hc))
    rw [hinfinite, isInfinite_of_isFinite (hfinite c hc)] at hcases
    cases hzero : c.logit.isZero <;> simp [hzero] at hcases
    · exact hcases
    · rw [hcases]
      exact isNaN_invalid
  rw [Numbers, Stage.apply, List.forall_mem_map]
  apply forall₂_congr
  intro c hc
  by_cases hrecent : c.token ∈ recent
  · simp [hrecent, hvalue c hc]
  · simp [hrecent, isNaN_of_isFinite (hfinite c hc)]

end Candidate

namespace SamplingParams

variable {p : SamplingParams}

theorem keeps_filterStages (p : SamplingParams) (tier : Nat) :
    ∀ stage ∈ p.filterStages, stage.Keeps tier := by
  intro stage hstage
  cases stage with
  | repetitionPenalty penalty window recent =>
      exact absurd hstage (p.not_mem_filterStages penalty window recent)
  | topK | topP | temperature => trivial

theorem map_acceptAll_filterStages (p : SamplingParams) (accepted : List TokenId) :
    p.filterStages.map (Stage.acceptAll accepted) = p.filterStages := by
  rw [List.map_congr_left, List.map_id]
  intro stage hstage
  induction accepted with
  | nil => rfl
  | cons token accepted ih =>
      cases stage with
      | repetitionPenalty penalty window recent =>
          exact absurd hstage (p.not_mem_filterStages penalty window recent)
      | topK | topP | temperature => exact ih

theorem map_acceptAll_stages (hpenalty : 1 < p.repetitionPenalty) (accepted : List TokenId) :
    p.stages.map (Stage.acceptAll accepted) =
      .repetitionPenalty p.repetitionPenalty p.penaltyWindow (accepted.rtake p.penaltyWindow) ::
        if p.isGreedy then [] else p.filterStages := by
  rw [stages, penaltyStages, if_pos hpenalty, List.map_append, List.map_singleton,
    Stage.acceptAll_ofPenalty, List.singleton_append]
  split
  · rfl
  · rw [map_acceptAll_filterStages]

end SamplingParams

namespace Chain

variable {p : SamplingParams}

/-- The stages of a chain are those of its parameters, after they took note of these tokens. -/
def Remembers (p : SamplingParams) (tokens : List TokenId) (c : Chain) : Prop :=
  c.stages = p.stages.map (Stage.acceptAll tokens)

theorem Anew.remembers {c : Chain} (h : c.Anew p) : c.Remembers p [] :=
  h.stages.trans (List.map_id p.stages).symm

theorem Remembers.accept {c : Chain} {tokens : List TokenId} (h : c.Remembers p tokens)
    (token : TokenId) : (c.accept token).Remembers p (tokens ++ [token]) := by
  rw [Remembers, Chain.accept, h, List.map_map]
  exact List.map_congr_left fun stage _ => (Stage.acceptAll_concat tokens token stage).symm

theorem Remembers.foldl_accept {c : Chain} {tokens : List TokenId} (h : c.Remembers p tokens)
    (accepted : List TokenId) :
    (accepted.foldl Chain.accept c).Remembers p (tokens ++ accepted) := by
  induction accepted generalizing c tokens with
  | nil => rwa [List.append_nil]
  | cons token accepted ih =>
      rw [List.append_cons]
      exact ih (h.accept token)

theorem Stems.foldl_accept {c : Chain} (h : c.Stems p) (accepted : List TokenId) :
    (accepted.foldl Chain.accept c).Stems p := by
  induction accepted generalizing c with
  | nil => exact h
  | cons token accepted ih => exact ih (h.accept token)

/-- From finite logits, stages of validated parameters lead to numbers only, unless an infinite
penalty meets a zero in its window. The stages are used in their order, and any of them may be left
out. -/
theorem numbers_applyStages_iff (q : SamplingParams) (entropy : Nat → UInt32)
    (accepted : List TokenId) (cs : List Candidate)
    (hfinite : ∀ c ∈ cs, c.logit.isFinite = true) :
    (∀ used, used.Sublist (accepted.foldl accept (q.validate.chain entropy)).stages →
        Candidate.Numbers (applyStages used cs)) ↔
      (q.validate.repetitionPenalty.isInfinite = true →
        ∀ c ∈ cs, c.token ∈ accepted.rtake q.validate.penaltyWindow → c.logit.isZero = false) := by
  have hstems := (q.validate.anew_chain entropy).stems.foldl_accept accepted
  have hrange := hstems.inRange
  have hnumbers : Candidate.Numbers cs := fun c hc => isNaN_of_isFinite (hfinite c hc)
  cases hinfinite : q.validate.repetitionPenalty.isInfinite
  · simp only [Bool.false_eq_true, false_imp_iff, iff_true]
    intro used hused
    exact hnumbers.applyStages
      (fun stage hstage => ⟨hrange stage hstage, hstems.keeps hinfinite 1 stage hstage⟩) hused
  · have hpenalty := SamplingParams.one_lt_penalty hinfinite
    have hremembers := (q.validate.anew_chain entropy).remembers.foldl_accept accepted
    have hstages := hremembers.trans (SamplingParams.map_acceptAll_stages hpenalty _)
    rw [List.nil_append] at hstages
    rw [hstages, List.forall_mem_cons] at hrange
    have hfilters : ∀ stage ∈ (if q.validate.isGreedy then [] else q.validate.filterStages),
        stage.InRange ∧ stage.Keeps 1 := by
      intro stage hstage
      refine ⟨hrange.2 stage hstage, ?_⟩
      split at hstage
      · cases hstage
      · exact q.validate.keeps_filterStages 1 stage hstage
    rw [hstages, forall_prop_of_true rfl,
      ← Candidate.numbers_apply_penalty_iff q.validate.penaltyWindow _ hpenalty hinfinite hfinite]
    constructor
    · intro hused
      exact hused [_] (List.singleton_sublist.mpr List.mem_cons_self)
    · intro happlied used hused
      rcases List.sublist_cons_iff.mp hused with hrest | ⟨rest, rfl, hrest⟩
      · exact hnumbers.applyStages hfilters hrest
      · exact happlied.applyStages hfilters hrest

theorem numbers_applyStages_of_two :
    (∀ c ∈ [Candidate.mk 0 0], c.logit.isFinite = true) ∧
      ∀ used, used.Sublist
          ([0].foldl accept (({ repetitionPenalty := 2 } : SamplingParams).validate.chain
            fun _ => 0)).stages →
        Candidate.Numbers (applyStages used [⟨0, 0⟩]) := by
  have hfinite : ∀ c ∈ [Candidate.mk 0 0], c.logit.isFinite = true := by decide +kernel
  refine ⟨hfinite, (numbers_applyStages_iff _ _ _ _ hfinite).mpr ?_⟩
  intro hinfinite
  exact absurd hinfinite (by decide +kernel)

/-- A penalty whose text overflows passes, and a zero it is applied to is not a number. -/
theorem not_numbers_of_overflow :
    ∃ q, SamplingParams.ofJson "\x7b\"repetition_penalty\":1e39\x7d" = some q ∧
      ¬ Candidate.Numbers (applyStages
        (([0].foldl accept (q.validate.chain fun _ => 0)).stages.take 1) [⟨0, 0⟩]) := by
  refine ⟨{ repetitionPenalty := .infinity false }, by decide +kernel, ?_⟩
  rw [Candidate.Numbers]
  decide +kernel

end Chain

end Dialogue
