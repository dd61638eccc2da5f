import Dialogue.Binary.Basic

namespace Dialogue.Binary

variable {f : Format}

/-- `n / d` rounded to the nearest integer, a tie to the even one, for `d ≠ 0`. -/
def nearestRatio (n d : Nat) : Nat :=
  let quotient := n / d
  let twice := 2 * (n % d)
  if twice < d ∨ (twice = d ∧ quotient % 2 = 0) then quotient else quotient + 1

def pointed (places n : Nat) : String :=
  let fraction := Nat.repr (n % Nat.pow 10 places)
  let padding := String.ofList (List.replicate (places - fraction.length) '0')
  Nat.repr (n / Nat.pow 10 places) ++ "." ++ padding ++ fraction

def toFixed (places : Nat) (x : Binary f) : String :=
  if x.isNaN then "NaN"
  else
    let sign := if x.negative then "-" else ""
    if x.isInfinite then sign ++ "inf"
    else
      let (m, e) := f.unpack x.magnitude
      let scaled := m * Nat.pow 10 places
      let digits := if 0 ≤ e then scaled <<< e.toNat else nearestRatio scaled (1 <<< (-e).toNat)
      sign ++ pointed places digits

end Dialogue.Binary
