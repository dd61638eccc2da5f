import Dialogue.Text.Utf8

namespace Dialogue.Text.Utf8

structure Fault where
  offset : Nat
  length : Option Nat
deriving DecidableEq

/-- Checks octets after a number of good ones and some that begin a character. -/
def faultAfter (good : Nat) (waiting : List UInt8) : List UInt8 → Option Fault
  | [] => if waiting = [] then none else some ⟨good, none⟩
  | b :: rest =>
    match read (waiting ++ [b]) with
    | .complete _ => faultAfter (good + waiting.length + 1) [] rest
    | .incomplete => faultAfter good (waiting ++ [b]) rest
    | .malformed => some ⟨good, some (max 1 waiting.length)⟩

def fault? (octets : List UInt8) : Option Fault :=
  faultAfter 0 [] octets

theorem length_pos_of_faultAfter {good offset bad : Nat} {waiting octets : List UInt8}
    (h : faultAfter good waiting octets = some ⟨offset, some bad⟩) : 0 < bad := by
  induction octets generalizing good waiting with
  | nil =>
      rw [faultAfter] at h
      split at h <;> simp at h
  | cons b rest ih =>
      rw [faultAfter] at h
      split at h
      · exact ih h
      · exact ih h
      · simp only [Option.some.injEq, Fault.mk.injEq] at h
        omega

/-- Whether an offset is between two characters, or at an end of the octets. -/
def isBoundary (octets : List UInt8) (i : Nat) : Bool :=
  i = 0 ||
    match octets[i]? with
    | some b => !isContinuation b
    | none => i = octets.length

def sliceFrom? (octets : List UInt8) (i : Nat) : Option (List UInt8) :=
  if isBoundary octets i then some (octets.drop i) else none

def sliceTo? (octets : List UInt8) (i : Nat) : Option (List UInt8) :=
  if isBoundary octets i then some (octets.take i) else none

def slice? (octets : List UInt8) (i j : Nat) : Option (List UInt8) :=
  if i ≤ j ∧ isBoundary octets i ∧ isBoundary octets j then some ((octets.take j).drop i) else none

def charOffsets (octets : List UInt8) : List Nat :=
  (List.range octets.length).filter (isBoundary octets)

def find? (octets part : List UInt8) : Option Nat :=
  (List.range (octets.length + 1)).find? fun i => part.isPrefixOf (octets.drop i)

end Dialogue.Text.Utf8
