import Dialogue.Sampling.Candidate

namespace Dialogue

inductive Stage where
  | repetitionPenalty (penalty : Binary32) (window : Nat) (recent : List TokenId)
  | topK (k : Nat)
  | topP (p : Binary32)
  | temperature (t : Binary32)
deriving DecidableEq

namespace Stage

/-- Lower temperatures are raised to this one. -/
def leastTemperature : Binary32 := 1e-5

def ofTemperature (t : Binary32) : Stage :=
  .temperature (t.greater leastTemperature)

def ofPenalty (penalty : Binary32) (window : Nat) : Stage :=
  .repetitionPenalty penalty window []

inductive Error where
  | capacityOverflow
deriving DecidableEq

def Error.message : Error → String
  | .capacityOverflow => "capacity overflow"

/-- No memory can hold as many tokens as this. -/
def windowLimit : Nat := 1 <<< 61

def reserve : Stage → Except Error Unit
  | .repetitionPenalty _ window _ =>
    if window < windowLimit then .ok () else .error .capacityOverflow
  | _ => .ok ()

def name : Stage → String
  | .repetitionPenalty .. => "repetition_penalty"
  | .topK _ => "top_k"
  | .topP _ => "top_p"
  | .temperature _ => "temperature"

def penalize (penalty logit : Binary32) : Binary32 :=
  if 0 < logit then logit / penalty else logit * penalty

/-- How many probabilities it takes until their sum reaches `p`; all of them if it never does. -/
def nucleusSize (p cumulative : Binary32) : List Binary32 → Nat
  | [] => 0
  | q :: qs =>
    if p ≤ cumulative + q then 1 else nucleusSize p (cumulative + q) qs + 1

def apply (cs : List Candidate) : Stage → List Candidate
  | .repetitionPenalty penalty _ recent =>
    cs.map fun c =>
      if recent.contains c.token then { c with logit := penalize penalty c.logit } else c
  | .topK k =>
    if k = 0 ∨ cs.length ≤ k then cs else (Candidate.sortDescending cs).take k
  | .topP p =>
    if cs = [] ∨ 1 ≤ p then cs
    else
      let sorted := Candidate.sortDescending cs
      sorted.take (nucleusSize p 0 (Candidate.softmax sorted))
  | .temperature t => cs.map fun c => { c with logit := c.logit / t }

def remember (window : Nat) (recent : List TokenId) (token : TokenId) : List TokenId :=
  if window = 0 then recent
  else if recent.length = window then recent.tail ++ [token]
  else recent ++ [token]

def accept (token : TokenId) : Stage → Stage
  | .repetitionPenalty penalty window recent =>
    .repetitionPenalty penalty window (remember window recent token)
  | s => s

def reset : Stage → Stage
  | .repetitionPenalty penalty window _ => .repetitionPenalty penalty window []
  | s => s

end Stage

end Dialogue
