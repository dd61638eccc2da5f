import Dialogue.Sampling.Params

namespace Dialogue

namespace Stage

@[simp] theorem reset_reset (stage : Stage) : stage.reset.reset = stage.reset := by
  cases stage <;> rfl

@[simp] theorem reset_accept (token : TokenId) (stage : Stage) :
    (stage.accept token).reset = stage.reset := by
  cases stage <;> rfl

theorem map_reset_reset (stages : List Stage) :
    (stages.map reset).map reset = stages.map reset := by
  rw [List.map_map]
  exact List.map_congr_left fun stage _ => stage.reset_reset

theorem map_reset_accept (token : TokenId) (stages : List Stage) :
    (stages.map (accept token)).map reset = stages.map reset := by
  rw [List.map_map]
  exact List.map_congr_left fun stage _ => stage.reset_accept token

end Stage

theorem Random.draw_rewind (weights : List Binary32) (s : Source) :
    (draw weights s).2.rewind = s.rewind := by
  rw [draw]
  split <;> rfl

theorem Selector.select_rewind (cs : List Candidate) (source : Random.Source)
    (selector : Selector) : (selector.select cs source).2.rewind = source.rewind := by
  cases selector with
  | greedy => rfl
  | distribution =>
      have hrewind := Random.draw_rewind (Candidate.softmax cs) source
      rw [select]
      rcases hdraw : Random.draw (Candidate.softmax cs) source with ⟨i | i, source'⟩
      all_goals
        rw [hdraw] at hrewind
        exact hrewind

namespace Chain

/-- What is asked of a chain. -/
inductive Act where
  | sample (logits : Logits)
  | accept (token : TokenId)
  | reset

def perform (c : Chain) : Act → Option TokenId × Chain
  | .sample logits => c.sample logits
  | .accept token => (none, c.accept token)
  | .reset => (none, c.reset)

def run (c : Chain) : List Act → List (Option TokenId) × Chain
  | [] => ([], c)
  | act :: rest =>
    let (token, next) := c.perform act
    (token :: (next.run rest).1, (next.run rest).2)

/-- The tokens accepted since the last reset. -/
def accepted (acts : List Act) : List TokenId :=
  acts.foldl (fun tokens act =>
    match act with
    | .sample _ => tokens
    | .accept token => tokens ++ [token]
    | .reset => []) []

/-- A chain was made from parameters, whatever it did since. -/
structure Stems (p : SamplingParams) (c : Chain) : Prop where
  stages : c.stages.map Stage.reset = p.stages
  selector : c.selector = p.selector
  seed : c.seed = p.seed
  source : ∀ seed, p.seed = some seed → c.source.rewind = .ofSeed seed

/-- A chain stands where its parameters put it: only what it draws from without a seed is its own.
-/
structure Anew (p : SamplingParams) (c : Chain) : Prop where
  stages : c.stages = p.stages
  selector : c.selector = p.selector
  seed : c.seed = p.seed
  source : ∀ seed, p.seed = some seed → c.source = .ofSeed seed

/-- Chains that select the same tokens: what they draw from matters only if they draw. -/
structure Agrees (c c' : Chain) : Prop where
  stages : c'.stages = c.stages
  selector : c'.selector = c.selector
  seed : c'.seed = c.seed
  source : c.selector = .distribution → c'.source = c.source

end Chain

namespace Stage

def hear (stage : Stage) : Chain.Act → Stage
  | .sample _ => stage
  | .accept token => stage.accept token
  | .reset => stage.reset

def hearAll (acts : List Chain.Act) (stage : Stage) : Stage :=
  acts.foldl hear stage

end Stage

namespace Chain

theorem accepted_concat (acts : List Act) (act : Act) :
    accepted (acts ++ [act]) =
      match act with
      | .sample _ => accepted acts
      | .accept token => accepted acts ++ [token]
      | .reset => [] :=
  List.foldl_append

theorem perform_stages (c : Chain) (act : Act) :
    (c.perform act).2.stages = c.stages.map fun stage => stage.hear act := by
  cases act with
  | sample logits => exact (List.map_id c.stages).symm
  | accept token => rfl
  | reset => rfl

theorem run_stages (c : Chain) (acts : List Act) :
    (c.run acts).2.stages = c.stages.map (Stage.hearAll acts) := by
  induction acts generalizing c with
  | nil => exact (List.map_id c.stages).symm
  | cons act rest ih =>
      rw [run, ih, perform_stages, List.map_map]
      rfl

theorem run_selector (c : Chain) (acts : List Act) : (c.run acts).2.selector = c.selector := by
  induction acts generalizing c with
  | nil => rfl
  | cons act rest ih =>
      rw [run, ih]
      cases act <;> rfl

end Chain

namespace SamplingParams

/-- Parameters whose chain selects the same tokens every time: it has a seed or never draws. -/
def Settled (p : SamplingParams) : Prop :=
  p.seed.isSome = true ∨ p.isGreedy = true

variable {p : SamplingParams}

theorem map_reset_stages (p : SamplingParams) : p.stages.map Stage.reset = p.stages := by
  have hpenalty : p.penaltyStages.map Stage.reset = p.penaltyStages := by
    rw [penaltyStages]
    split <;> rfl
  have hfilter : p.filterStages.map Stage.reset = p.filterStages := by
    rw [filterStages]
    split <;> split <;> rfl
  rw [stages, List.map_append, hpenalty]
  split
  · rfl
  · rw [hfilter]

theorem anew_chain (p : SamplingParams) (entropy : Nat → UInt32) : (p.chain entropy).Anew p where
  stages := rfl
  selector := rfl
  seed := rfl
  source seed hseed := by simp only [chain, Chain.new, hseed]

theorem Settled.seed_of_draws (h : p.Settled) (hselector : p.selector = .distribution) :
    ∃ seed, p.seed = some seed := by
  rcases h with hseed | hgreedy
  · exact Option.isSome_iff_exists.mp hseed
  · rw [selector, if_pos hgreedy] at hselector
    cases hselector

end SamplingParams

namespace Chain

variable {p : SamplingParams} {c c' : Chain}

namespace Stems

theorem sample (h : c.Stems p) (logits : Logits) : (c.sample logits).2.Stems p where
  stages := h.stages
  selector := h.selector
  seed := h.seed
  source seed hseed :=
    (Selector.select_rewind _ c.source c.selector).trans (h.source seed hseed)

theorem accept (h : c.Stems p) (token : TokenId) : (c.accept token).Stems p where
  stages := (Stage.map_reset_accept token c.stages).trans h.stages
  selector := h.selector
  seed := h.seed
  source := h.source

theorem reset (h : c.Stems p) : c.reset.Stems p where
  stages := (Stage.map_reset_reset c.stages).trans h.stages
  selector := h.selector
  seed := h.seed
  source seed hseed := by
    rw [← h.source seed hseed, Chain.reset, h.seed, hseed]
    rfl

theorem perform (h : c.Stems p) (act : Act) : (c.perform act).2.Stems p := by
  cases act with
  | sample logits => exact h.sample logits
  | accept token => exact h.accept token
  | reset => exact h.reset

theorem run (h : c.Stems p) (acts : List Act) : (c.run acts).2.Stems p := by
  induction acts generalizing c with
  | nil => exact h
  | cons act rest ih => exact ih (h.perform act)

theorem anew_reset (h : c.Stems p) : c.reset.Anew p where
  stages := h.stages
  selector := h.selector
  seed := h.seed
  source seed hseed := by
    rw [← h.source seed hseed, Chain.reset, h.seed, hseed]
    rfl

end Stems

namespace Anew

theorem stems (h : c.Anew p) : c.Stems p where
  stages := by rw [h.stages, p.map_reset_stages]
  selector := h.selector
  seed := h.seed
  source seed hseed := by
    rw [h.source seed hseed]
    rfl

theorem eq (h : c.Anew p) (h' : c'.Anew p) (hseed : p.seed.isSome = true) : c = c' := by
  obtain ⟨seed, hseed⟩ := Option.isSome_iff_exists.mp hseed
  obtain ⟨_, _, _, _⟩ := c
  obtain ⟨_, _, _, _⟩ := c'
  rw [Chain.mk.injEq]
  exact ⟨h.stages.trans h'.stages.symm, h.selector.trans h'.selector.symm,
    h.seed.trans h'.seed.symm, (h.source seed hseed).trans (h'.source seed hseed).symm⟩

theorem agrees (h : c.Anew p) (h' : c'.Anew p) (hsettled : p.Settled) : c.Agrees c' where
  stages := h'.stages.trans h.stages.symm
  selector := h'.selector.trans h.selector.symm
  seed := h'.seed.trans h.seed.symm
  source hselector := by
    obtain ⟨seed, hseed⟩ := hsettled.seed_of_draws (h.selector.symm.trans hselector)
    exact (h'.source seed hseed).trans (h.source seed hseed).symm

end Anew

namespace Agrees

theorem sample (h : c.Agrees c') (logits : Logits) :
    (c'.sample logits).1 = (c.sample logits).1 ∧
      (c.sample logits).2.Agrees (c'.sample logits).2 := by
  obtain ⟨_, _, _, source⟩ := c
  obtain ⟨stages, selector, seed, source'⟩ := c'
  obtain ⟨hstages, hselector, hseed, hsource⟩ := h
  dsimp only at hstages hselector hseed hsource
  subst hstages hselector hseed
  cases selector with
  | greedy => exact ⟨rfl, rfl, rfl, rfl, nofun⟩
  | distribution =>
      cases hsource rfl
      exact ⟨rfl, rfl, rfl, rfl, fun _ => rfl⟩

theorem accept (h : c.Agrees c') (token : TokenId) :
    (c.accept token).Agrees (c'.accept token) where
  stages := congrArg (List.map _) h.stages
  selector := h.selector
  seed := h.seed
  source := h.source

theorem reset (h : c.Agrees c') : c.reset.Agrees c'.reset where
  stages := congrArg (List.map _) h.stages
  selector := h.selector
  seed := h.seed
  source hselector := by
    rw [Chain.reset, Chain.reset, h.seed, h.source hselector]

end Agrees

end Chain

end Dialogue
