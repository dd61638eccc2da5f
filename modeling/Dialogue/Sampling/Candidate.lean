import Dialogue.Binary.Exponential

namespace Dialogue

abbrev TokenId := UInt32

abbrev Logits := List Binary32

structure Candidate where
  token : TokenId
  logit : Binary32
deriving DecidableEq

namespace Candidate

def ofLogits (logits : Logits) : List Candidate :=
  logits.zipIdx.map fun (logit, i) => ⟨UInt32.ofNat i, logit⟩

/-- Descending in the total order of logits; equal logits keep their order. -/
def sortDescending (cs : List Candidate) : List Candidate :=
  cs.mergeSort fun a b => b.logit.rank ≤ a.logit.rank

/-- The last of the candidates with the greatest logit in the total order. -/
def greatest : List Candidate → Option Candidate
  | [] => none
  | c :: cs =>
    some (cs.foldl (fun best c => if best.logit.rank ≤ c.logit.rank then c else best) c)

def maxLogit (cs : List Candidate) : Binary32 :=
  cs.foldl (fun best c => best.greater c.logit) (.infinity true)

def exponentials (cs : List Candidate) : List Binary32 :=
  let top := maxLogit cs
  cs.map fun c => (c.logit - top).exp

def softmax (cs : List Candidate) : List Binary32 :=
  let exps := exponentials cs
  let total := exps.foldl (· + ·) 0
  exps.map (· / total)

@[simp] theorem length_softmax (cs : List Candidate) : (softmax cs).length = cs.length := by
  simp [softmax, exponentials]

end Candidate

end Dialogue
