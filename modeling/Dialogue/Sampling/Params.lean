import Dialogue.Json.Decode
import Dialogue.Sampling.Chain

namespace Dialogue

structure SamplingParams where
  temperature : Binary32 := 0.7
  topP : Binary32 := 0.95
  topK : Nat := 0
  repetitionPenalty : Binary32 := 1
  penaltyWindow : Nat := 64
  seed : Option UInt64 := none
deriving DecidableEq

namespace SamplingParams

/-- The greatest temperature that selects greedily. -/
def greedyTemperature : Binary32 := 1e-5

def greedy : SamplingParams :=
  { temperature := 0, topP := 1 }

def validTemperature (t : Binary32) : Binary32 :=
  if !t.isFinite || t < 0 then 0 else t

def validTopP (p : Binary32) : Binary32 :=
  if 0 < p ∧ p ≤ 1 then p else 1

def validPenalty (penalty : Binary32) : Binary32 :=
  if 1 ≤ penalty then penalty else 1

def validate (p : SamplingParams) : SamplingParams :=
  { p with
    temperature := validTemperature p.temperature
    topP := validTopP p.topP
    repetitionPenalty := validPenalty p.repetitionPenalty
    penaltyWindow := if p.penaltyWindow = 0 then 1 else p.penaltyWindow }

def isGreedy (p : SamplingParams) : Bool :=
  p.temperature ≤ greedyTemperature

def selector (p : SamplingParams) : Selector :=
  if p.isGreedy then .greedy else .distribution

def penaltyStages (p : SamplingParams) : List Stage :=
  if 1 < p.repetitionPenalty then [.ofPenalty p.repetitionPenalty p.penaltyWindow] else []

def filterStages (p : SamplingParams) : List Stage :=
  (if 0 < p.topK then [.topK p.topK] else []) ++
    .ofTemperature p.temperature :: (if p.topP < 1 then [.topP p.topP] else [])

def stages (p : SamplingParams) : List Stage :=
  p.penaltyStages ++ if p.isGreedy then [] else p.filterStages

def chain (p : SamplingParams) (entropy : Nat → UInt32) : Chain :=
  .new p.stages p.selector p.seed entropy

/-- Makes the chain, which fails if there cannot be memory for its stages. -/
def build (p : SamplingParams) (entropy : Nat → UInt32) : Except Stage.Error Chain := do
  forM p.stages Stage.reserve
  .ok (p.chain entropy)

def fieldNames : List String :=
  ["temperature", "top_p", "top_k", "repetition_penalty", "penalty_window", "seed"]

def ofFields (fields : Json.Fields) : Option SamplingParams := do
  let missing : SamplingParams := {}
  some {
    temperature := ← fields.getD "temperature" Json.Value.binary32? missing.temperature
    topP := ← fields.getD "top_p" Json.Value.binary32? missing.topP
    topK := ← fields.getD "top_k" Json.Value.size? missing.topK
    repetitionPenalty :=
      ← fields.getD "repetition_penalty" Json.Value.binary32? missing.repetitionPenalty
    penaltyWindow := ← fields.getD "penalty_window" Json.Value.size? missing.penaltyWindow
    seed := ← fields.getD "seed" (Json.Value.nullable? Json.Value.uint64?) missing.seed }

def ofJson (text : String) : Option SamplingParams := do
  ofFields (← Json.fields? fieldNames (← Json.parse text))

theorem forM_reserve_filterStages (p : SamplingParams) :
    forM p.filterStages Stage.reserve = .ok () := by
  rw [filterStages]
  split <;> split <;> rfl

theorem build_eq (p : SamplingParams) (entropy : Nat → UInt32) :
    p.build entropy =
      if 1 < p.repetitionPenalty ∧ Stage.windowLimit ≤ p.penaltyWindow then
        .error .capacityOverflow
      else .ok (p.chain entropy) := by
  have hrest : forM (if p.isGreedy then [] else p.filterStages) Stage.reserve = .ok () := by
    split
    · rfl
    · exact p.forM_reserve_filterStages
  rw [build, stages, List.forM_append, hrest, penaltyStages]
  by_cases hpenalty : 1 < p.repetitionPenalty
  · by_cases hwindow : p.penaltyWindow < Stage.windowLimit
    · rw [if_pos hpenalty, if_neg (by omega)]
      simp [Stage.reserve, Stage.ofPenalty, hwindow, bind, Except.bind, pure, Except.pure]
    · rw [if_pos hpenalty, if_pos ⟨hpenalty, by omega⟩]
      simp [Stage.reserve, Stage.ofPenalty, hwindow, bind, Except.bind]
  · rw [if_neg hpenalty, if_neg (fun h => hpenalty h.1)]
    rfl

end SamplingParams

end Dialogue
