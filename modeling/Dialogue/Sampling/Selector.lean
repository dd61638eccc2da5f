import Dialogue.Random.Weighted
import Dialogue.Sampling.Candidate

namespace Dialogue

open Dialogue.Random (Source)

inductive Selector where
  | greedy
  /-- A draw by probability, or the greatest logit when the probabilities allow none. -/
  | distribution
deriving DecidableEq

namespace Selector

def name : Selector → String
  | .greedy => "greedy"
  | .distribution => "dist"

def greedyToken (cs : List Candidate) : Option TokenId :=
  (Candidate.greatest cs).map Candidate.token

def select (cs : List Candidate) (source : Source) : Selector → Option TokenId × Source
  | .greedy => (greedyToken cs, source)
  | .distribution =>
    match Random.draw (Candidate.softmax cs) source with
    | (some i, source) => (cs[i]?.map Candidate.token, source)
    | (none, source) => (greedyToken cs, source)

end Selector

end Dialogue
