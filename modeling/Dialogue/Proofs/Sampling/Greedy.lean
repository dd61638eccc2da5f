import Dialogue.Proofs.Sampling.Descending
import Dialogue.Proofs.Sampling.Rewinding

namespace Dialogue

namespace Candidate

variable {cs : List Candidate} {x : Binary32}

/-- The greatest logit of candidates. -/
structure IsTop (cs : List Candidate) (x : Binary32) : Prop where
  mem : ∃ c ∈ cs, c.logit = x
  le : ∀ c ∈ cs, c.logit.rank ≤ x.rank

/-- Either of two candidates may be selected greedily: both have the greatest logit, and they are
one if it occurs once. -/
structure Tied (cs : List Candidate) (c d : Candidate) : Prop where
  left : c ∈ cs
  right : d ∈ cs
  logit : c.logit = d.logit
  greatest : ∀ e ∈ cs, e.logit.rank ≤ d.logit.rank
  once : (cs.filter fun e => e.logit = d.logit).length = 1 → c = d

theorem IsTop.unique {y : Binary32} (hx : IsTop cs x) (hy : IsTop cs y) : x = y := by
  obtain ⟨c, hc, rfl⟩ := hx.mem
  obtain ⟨d, hd, rfl⟩ := hy.mem
  exact Binary.rank_inj.mp (Int.le_antisymm (hy.le c hc) (hx.le d hd))

theorem isTop_greatest {c : Candidate} (h : greatest cs = some c) : IsTop cs c.logit where
  mem := ⟨c, greatest_mem h, rfl⟩
  le := rank_le_greatest h

theorem IsTop.take_sortDescending (h : IsTop cs x) {n : Nat} (hn : 0 < n) :
    IsTop ((sortDescending cs).take n) x := by
  obtain ⟨c, hc, rfl⟩ := h.mem
  obtain ⟨first, hfirst, hle⟩ := exists_greatest_take (List.ne_nil_of_mem hc) hn
  refine ⟨⟨first, hfirst, ?_⟩, fun d hd => h.le d (mem_of_mem_take_sortDescending hd)⟩
  exact Binary.rank_inj.mp
    (Int.le_antisymm (h.le first (mem_of_mem_take_sortDescending hfirst)) (hle c hc))

theorem IsTop.apply (h : IsTop cs x) {stage : Stage} (hstage : stage.isCutoff = true) :
    IsTop (Stage.apply cs stage) x := by
  rcases Stage.apply_cutoff_cases hstage cs with happly | ⟨n, hn, happly⟩
  · rw [happly]
    exact h
  · rw [happly]
    exact h.take_sortDescending hn

theorem subset_apply {stage : Stage} (hstage : stage.isCutoff = true) (cs : List Candidate) :
    Stage.apply cs stage ⊆ cs := by
  rcases Stage.apply_cutoff_cases hstage cs with happly | ⟨n, -, happly⟩
  · rw [happly]
    exact List.Subset.refl cs
  · rw [happly]
    exact fun c => mem_of_mem_take_sortDescending

end Candidate

namespace Chain

open Candidate (IsTop Tied greatest)

variable {stages : List Stage} {cs : List Candidate}

theorem applyStages_append (stages more : List Stage) (cs : List Candidate) :
    applyStages (stages ++ more) cs = applyStages more (applyStages stages cs) :=
  List.foldl_append

theorem cutoffs_keep_top (hstages : ∀ stage ∈ stages, stage.isCutoff = true) {x : Binary32}
    (h : IsTop cs x) : IsTop (applyStages stages cs) x ∧ applyStages stages cs ⊆ cs := by
  induction stages generalizing cs with
  | nil => exact ⟨h, List.Subset.refl cs⟩
  | cons stage stages ih =>
      rw [List.forall_mem_cons] at hstages
      obtain ⟨htop, hsubset⟩ := ih hstages.2 (h.apply hstages.1)
      exact ⟨htop, List.Subset.trans hsubset (Candidate.subset_apply hstages.1 cs)⟩

theorem exists_tied (hstages : ∀ stage ∈ stages, stage.isCutoff = true) (hcs : cs ≠ []) :
    ∃ c d, greatest (applyStages stages cs) = some c ∧ greatest cs = some d ∧ Tied cs c d := by
  obtain ⟨d, hd⟩ := Option.isSome_iff_exists.mp (Candidate.greatest_isSome hcs)
  obtain ⟨c, hc⟩ := Option.isSome_iff_exists.mp
    (Candidate.greatest_isSome (applyStages_ne_nil hcs stages))
  have htop := Candidate.isTop_greatest hd
  obtain ⟨hkept, hsubset⟩ := cutoffs_keep_top hstages htop
  have hmem := hsubset (Candidate.greatest_mem hc)
  have hlogit : c.logit = d.logit := (Candidate.isTop_greatest hc).unique hkept
  refine ⟨c, d, hc, hd, hmem, Candidate.greatest_mem hd, hlogit, htop.le, fun honce => ?_⟩
  -- both are in the list of candidates with that logit, which has one element
  obtain ⟨e, he⟩ := List.length_eq_one_iff.mp honce
  have heq : ∀ b ∈ cs, b.logit = d.logit → b = e := by
    intro b hb hlogit
    have hfilter : b ∈ cs.filter fun e => e.logit = d.logit :=
      List.mem_filter.mpr ⟨hb, decide_eq_true hlogit⟩
    rwa [he, List.mem_singleton] at hfilter
  rw [heq c hmem hlogit, heq d (Candidate.greatest_mem hd) rfl]

end Chain

namespace Stage

theorem hearAll_cutoff {stage : Stage} (h : stage.isCutoff = true) (acts : List Chain.Act) :
    hearAll acts stage = stage := by
  induction acts with
  | nil => rfl
  | cons act rest ih =>
      have hhear : stage.hear act = stage := by
        cases stage with
        | repetitionPenalty | temperature => cases h
        | topK | topP => cases act <;> rfl
      rw [hearAll, List.foldl_cons, hhear]
      exact ih

end Stage

namespace SamplingParams

variable {p : SamplingParams}

def unscaledStages (p : SamplingParams) : List Stage :=
  p.penaltyStages ++ p.filterStages.filter Stage.isCutoff

/-- The chain that has its cutoffs even if it selects greedily. -/
def unscaledChain (p : SamplingParams) (entropy : Nat → UInt32) : Chain :=
  .new p.unscaledStages p.selector p.seed entropy

theorem selector_of_greedy (h : p.isGreedy = true) : p.selector = .greedy :=
  if_pos h

theorem run_unscaledStages (h : p.isGreedy = true) (entropy : Nat → UInt32)
    (acts : List Chain.Act) :
    ((p.unscaledChain entropy).run acts).2.stages =
      ((p.chain entropy).run acts).2.stages ++ p.filterStages.filter Stage.isCutoff := by
  have hcutoffs : (p.filterStages.filter Stage.isCutoff).map (Stage.hearAll acts) =
      p.filterStages.filter Stage.isCutoff := by
    rw [List.map_congr_left fun stage hstage =>
      Stage.hearAll_cutoff (List.of_mem_filter hstage) acts, List.map_id']
  have hunscaled : (p.unscaledChain entropy).stages =
      p.penaltyStages ++ p.filterStages.filter Stage.isCutoff := rfl
  have hgreedy : (p.chain entropy).stages = p.penaltyStages := by
    rw [(p.anew_chain entropy).stages, stages, if_pos h, List.append_nil]
  rw [Chain.run_stages, Chain.run_stages, hunscaled, hgreedy, List.map_append, hcutoffs]

end SamplingParams

theorem Selector.select_greedy {cs : List Candidate} {c : Candidate}
    (h : Candidate.greatest cs = some c) (source : Random.Source) :
    (Selector.greedy.select cs source).1 = some c.token :=
  congrArg (Option.map Candidate.token) h

/-- Greedy selection has the same logit with cutoffs before it and without, the greatest, and the
same token if that logit occurs once. A chain that selects greedily may thus leave its cutoffs out,
whatever it was used for. -/
theorem greedy_skips_cutoffs :
    (∀ stages cs source, (∀ stage ∈ stages, stage.isCutoff = true) → cs ≠ [] →
      ∃ kept top,
        Candidate.greatest (Chain.applyStages stages cs) = some kept ∧
        Candidate.greatest cs = some top ∧
        (Selector.greedy.select (Chain.applyStages stages cs) source).1 = some kept.token ∧
        (Selector.greedy.select cs source).1 = some top.token ∧
        Candidate.Tied cs kept top) ∧
    ∀ (p : SamplingParams) (entropy : Nat → UInt32) (acts : List Chain.Act) (logits : Logits),
      p.isGreedy = true → logits ≠ [] →
      let c := ((p.chain entropy).run acts).2
      let unscaled := ((p.unscaledChain entropy).run acts).2
      ∃ kept top, (unscaled.sample logits).1 = some kept.token ∧
        (c.sample logits).1 = some top.token ∧
        Candidate.Tied (Chain.applyStages c.stages (Candidate.ofLogits logits)) kept top := by
  constructor
  · intro stages cs source hstages hcs
    obtain ⟨kept, top, hkept, htop, htied⟩ := Chain.exists_tied hstages hcs
    exact ⟨kept, top, hkept, htop, Selector.select_greedy hkept source,
      Selector.select_greedy htop source, htied⟩
  · intro p entropy acts logits hgreedy hlogits c unscaled
    have hpenalized : Chain.applyStages c.stages (Candidate.ofLogits logits) ≠ [] :=
      Chain.applyStages_ne_nil (Candidate.ofLogits_ne_nil hlogits) c.stages
    have hselector : c.selector = .greedy :=
      (Chain.run_selector _ acts).trans (SamplingParams.selector_of_greedy hgreedy)
    have hunscaled : unscaled.selector = .greedy :=
      (Chain.run_selector _ acts).trans (SamplingParams.selector_of_greedy hgreedy)
    have hstages : unscaled.stages = c.stages ++ p.filterStages.filter Stage.isCutoff :=
      SamplingParams.run_unscaledStages hgreedy entropy acts
    have hcutoffs : ∀ stage ∈ p.filterStages.filter Stage.isCutoff, stage.isCutoff = true :=
      fun stage => List.of_mem_filter
    obtain ⟨kept, top, hkept, htop, htied⟩ := Chain.exists_tied hcutoffs hpenalized
    rw [← Chain.applyStages_append, ← hstages] at hkept
    refine ⟨kept, top, ?_, ?_, htied⟩
    · rw [Chain.sample, hunscaled]
      exact Selector.select_greedy hkept unscaled.source
    · rw [Chain.sample, hselector]
      exact Selector.select_greedy htop c.source

/-- Of equal logits a cutoff keeps the first, and greedy selection without it takes the last. In a
chain a penalty may make them equal. -/
theorem greedy_skips_cutoffs_of_tie :
    let cs : List Candidate := [⟨0, 1⟩, ⟨1, 2⟩, ⟨2, 2⟩]
    let p : SamplingParams := { temperature := 0, topK := 2, topP := 1, repetitionPenalty := 2 }
    let c := ((p.chain fun _ => 0).run [.accept 0]).2
    let unscaled := ((p.unscaledChain fun _ => 0).run [.accept 0]).2
    ((∀ stage ∈ [Stage.topK 1], stage.isCutoff = true) ∧ cs ≠ [] ∧
      Candidate.greatest (Chain.applyStages [.topK 1] cs) = some ⟨1, 2⟩ ∧
      Candidate.greatest cs = some ⟨2, 2⟩ ∧ Candidate.Tied cs ⟨1, 2⟩ ⟨2, 2⟩) ∧
    p.isGreedy = true ∧ [4, 2] ≠ ([] : Logits) ∧ unscaled.stages ≠ c.stages ∧
      (unscaled.sample [4, 2]).1 = some 1 ∧ (c.sample [4, 2]).1 = some 1 ∧
      Candidate.Tied [⟨0, 2⟩, ⟨1, 2⟩] ⟨1, 2⟩ ⟨1, 2⟩ := by
  intro cs p c unscaled
  refine ⟨?_, ?_⟩
  · have hstages : ∀ stage ∈ [Stage.topK 1], stage.isCutoff = true := by decide
    have hcs : cs ≠ [] := List.cons_ne_nil _ _
    have hdescends : Candidate.Descends cs [⟨1, 2⟩, ⟨2, 2⟩, ⟨0, 1⟩] := by decide +kernel
    have hkept : Candidate.greatest (Chain.applyStages [.topK 1] cs) = some ⟨1, 2⟩ := by
      rw [Chain.applyStages, List.foldl_cons, Stage.apply_topK_of_lt (by decide) (by decide),
        ← Candidate.descends_iff.mp hdescends]
      rfl
    have htop : Candidate.greatest cs = some ⟨2, 2⟩ := by decide +kernel
    obtain ⟨kept, top, hkept', htop', -, -, htied⟩ :=
      greedy_skips_cutoffs.1 [.topK 1] cs (.ofSeed 0) hstages hcs
    cases hkept.symm.trans hkept'
    cases htop.symm.trans htop'
    exact ⟨hstages, hcs, hkept, htop, htied⟩
  · have hgreedy : p.isGreedy = true := by decide +kernel
    have hlogits : [4, 2] ≠ ([] : Logits) := List.cons_ne_nil _ _
    have hpenalized : Chain.applyStages c.stages (Candidate.ofLogits [4, 2]) =
        [⟨0, 2⟩, ⟨1, 2⟩] := by decide +kernel
    have hsamples : (unscaled.sample [4, 2]).1 = some 1 ∧ (c.sample [4, 2]).1 = some 1 := by
      decide +kernel
    obtain ⟨kept, top, hkept, htop, htied⟩ :=
      greedy_skips_cutoffs.2 p (fun _ => 0) [.accept 0] [4, 2] hgreedy hlogits
    rw [hsamples.1] at hkept
    rw [hsamples.2] at htop
    rw [hpenalized] at htied
    have heq : ∀ d ∈ [Candidate.mk 0 2, ⟨1, 2⟩], some 1 = some d.token → d = ⟨1, 2⟩ := by decide
    rw [heq kept htied.left hkept, heq top htied.right htop] at htied
    exact ⟨hgreedy, hlogits, by decide +kernel, hsamples.1, hsamples.2, htied⟩

end Dialogue
