import Dialogue.Sampling.Selector
import Dialogue.Sampling.Stage

namespace Dialogue

open Dialogue.Random (Source)

structure Chain where
  stages : List Stage
  selector : Selector
  seed : Option UInt64
  source : Source

namespace Chain

/-- A chain of fresh stages. Without a seed it draws the given words. -/
def new (stages : List Stage) (selector : Selector) (seed : Option UInt64)
    (entropy : Nat → UInt32) : Chain where
  stages := stages
  selector := selector
  seed := seed
  source :=
    match seed with
    | some seed => .ofSeed seed
    | none => { word := entropy }

def names (c : Chain) : List String :=
  c.stages.map Stage.name ++ [c.selector.name]

def applyStages (stages : List Stage) (cs : List Candidate) : List Candidate :=
  stages.foldl Stage.apply cs

def sample (c : Chain) (logits : Logits) : Option TokenId × Chain :=
  let (token, source) :=
    c.selector.select (applyStages c.stages (Candidate.ofLogits logits)) c.source
  (token, { c with source })

def accept (c : Chain) (token : TokenId) : Chain :=
  { c with stages := c.stages.map (Stage.accept token) }

def reset (c : Chain) : Chain :=
  { c with
    stages := c.stages.map Stage.reset
    source := if c.seed.isSome then c.source.rewind else c.source }

end Chain

end Dialogue
