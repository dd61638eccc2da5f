import Dialogue.Binary.Arithmetic
import Dialogue.Random.Source

namespace Dialogue.Random

def runningSums (total : Binary32) : List Binary32 → List Binary32
  | [] => []
  | w :: ws => (total + w) :: runningSums (total + w) ws

def sum (total : Binary32) (weights : List Binary32) : Binary32 :=
  weights.foldl (· + ·) total

def greatestUnit : Binary32 :=
  .ofBits 0x3f7ffffe

/-- The greatest scale, at most that with the given bits, that keeps every point below the total. -/
def fitScale (total : Binary32) : Nat → Binary32
  | 0 => 0
  | n + 1 =>
    let scale : Binary32 := .ofBits (n + 1)
    if total ≤ scale * greatestUnit then fitScale total n else scale

def unitPoint (x : UInt32) : Binary32 :=
  .ofBits (0x3f800000 + (x >>> 9).toNat) - 1

/-- Whether an index can be drawn: there are weights, none is negative or not a number, and their
sum is not zero. -/
def drawable : List Binary32 → Bool
  | [] => false
  | w :: ws => (w :: ws).all (fun v => (0 : Binary32) ≤ v) && !(sum w ws).isZero

def indexOf : List Binary32 → UInt32 → Nat
  | [], _ => 0
  | w :: ws, x =>
    let total := sum w ws
    let point := unitPoint x * fitScale total total.toNat
    ((w :: runningSums w ws).dropLast.filter fun s => s ≤ point).length

def draw (weights : List Binary32) (s : Source) : Option Nat × Source :=
  if drawable weights then
    let (x, s) := s.next
    (some (indexOf weights x), s)
  else (none, s)

end Dialogue.Random
