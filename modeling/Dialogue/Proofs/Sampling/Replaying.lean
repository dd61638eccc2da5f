import Dialogue.Proofs.Sampling.Rewinding

namespace Dialogue.Chain

variable {c : Chain}

theorem seed_perform (c : Chain) (act : Act) : (c.perform act).2.seed = c.seed := by
  cases act <;> rfl

theorem reset_perform (hseed : c.seed.isSome = true) (act : Act) :
    (c.perform act).2.reset = c.reset := by
  cases act with
  | sample logits =>
      have hrewind := Selector.select_rewind (applyStages c.stages (Candidate.ofLogits logits))
        c.source c.selector
      simp only [perform, sample, reset, hseed, if_true, hrewind]
  | accept token => rw [perform, accept, reset, reset, Stage.map_reset_accept]
  | reset =>
      simp only [perform, reset, hseed, if_true, Stage.map_reset_reset]
      rfl

theorem reset_run (hseed : c.seed.isSome = true) (acts : List Act) :
    (c.run acts).2.reset = c.reset := by
  induction acts generalizing c with
  | nil => rfl
  | cons act rest ih =>
      rw [run, ih (c.seed_perform act ▸ hseed), reset_perform hseed]

theorem run_append (c : Chain) (acts more : List Act) :
    c.run (acts ++ more) =
      ((c.run acts).1 ++ ((c.run acts).2.run more).1, ((c.run acts).2.run more).2) := by
  induction acts generalizing c with
  | nil => rfl
  | cons act rest ih => simp only [List.cons_append, run, ih]

theorem reset_new {stages : List Stage} (hfresh : ∀ stage ∈ stages, stage.reset = stage)
    (selector : Selector) (seed : UInt64) (entropy : Nat → UInt32) :
    (new stages selector (some seed) entropy).reset = new stages selector (some seed) entropy := by
  have hstages : stages.map Stage.reset = stages := by
    rw [List.map_congr_left hfresh, List.map_id']
  rw [new, reset, hstages]
  rfl

/-- Whatever a seeded chain was used for, after a reset it selects the tokens of a new one. -/
theorem seeded_chain_replays {stages : List Stage}
    (hfresh : ∀ stage ∈ stages, stage.reset = stage) (selector : Selector) (seed : UInt64)
    (entropy entropy' : Nat → UInt32) (past future : List Act) :
    let used := new stages selector (some seed) entropy
    let built := new stages selector (some seed) entropy'
    used.run (past ++ .reset :: future) =
      ((used.run past).1 ++ none :: (built.run future).1, (built.run future).2) := by
  intro used built
  have hreset : (used.run past).2.reset = built :=
    (reset_run rfl past).trans (reset_new hfresh selector seed entropy)
  rw [run_append, run, perform, hreset]

/-- Of the past only the first sample draws a word, and one token is remembered by the first stage
and two by the last. -/
theorem seeded_chain_replays_drawn :
    let stages : List Stage := [.ofPenalty 2 1, .topK 3, .ofTemperature 0.5, .ofPenalty 1.5 2]
    let built := new stages .distribution (some 42) fun _ => 0
    let past : List Act := [.sample [1, 1, 2], .accept 2, .sample [.invalid], .accept 0]
    let future : List Act := [.sample [1, 1, 2], .accept 1, .sample [1, 1, 2], .reset,
      .sample [1, 1, 2]]
    (∀ stage ∈ stages, stage.reset = stage) ∧
      (built.run past).2.source.drawn = 1 ∧
      (built.run past).2.stages =
        [.repetitionPenalty 2 1 [0], .topK 3, .ofTemperature 0.5,
          .repetitionPenalty 1.5 2 [2, 0]] ∧
      built.run (past ++ .reset :: future) =
        ((built.run past).1 ++ none :: (built.run future).1, (built.run future).2) := by
  intro stages built past future
  have hfresh : ∀ stage ∈ stages, stage.reset = stage := by
    simp only [stages, List.forall_mem_cons]
    exact ⟨rfl, rfl, rfl, rfl, nofun⟩
  refine ⟨hfresh, by decide +kernel, by decide +kernel, ?_⟩
  exact seeded_chain_replays hfresh .distribution 42 _ _ past future

end Dialogue.Chain
