import Dialogue.Binary.Arithmetic
import Dialogue.Json.Value

/-!
The numbers that literals stand for. An integer that fits in 64 bits is exact; any other literal is
a double made from the digits that fit in 64 bits and one scaling by a power of ten, so its last
bits may differ from those of the nearest double.
-/

namespace Dialogue.Json

inductive Number where
  | natural (n : Nat)
  | negative (n : Nat)
  | real (x : Binary64)

/-- Appends digits to a significand as long as it fits in 64 bits; the rest are left over. -/
def absorb (significand : Nat) : List Digit → Nat × List Digit
  | [] => (significand, [])
  | d :: ds =>
    if significand * 10 + d < 1 <<< 64 then absorb (significand * 10 + d) ds
    else (significand, d :: ds)

def powerOfTen (n : Nat) : Binary64 :=
  .ofNat (Nat.pow 10 n)

def greatestPower : Nat := 308

def scaleDown (x : Binary64) (n : Nat) : Binary64 :=
  if n ≤ greatestPower then x / powerOfTen n
  else if x.isZero then x
  else scaleDown (x / powerOfTen greatestPower) (n - greatestPower)
termination_by n
decreasing_by simp [greatestPower] at *; omega

def scale (x : Binary64) (e : Int) : Option Binary64 :=
  if e < 0 then some (scaleDown x (-e).toNat)
  else if e ≤ greatestPower then
    let y := x * powerOfTen e.toNat
    if y.isInfinite then none else some y
  else if x.isZero then some x
  else none

def natOfDigits (ds : List Digit) : Nat :=
  ds.foldl (fun n d => n * 10 + d.val) 0

/-- Exponents beyond this are taken for infinite. -/
def greatestExponent : Nat := 1 <<< 31 - 1

namespace Literal

def real? (l : Literal) (significand : Nat) (shift : Int) : Option Binary64 :=
  let sign (x : Binary64) := if l.negative then -x else x
  match l.exponent with
  | none => (scale (.ofNat significand) shift).map sign
  | some (negative, ds) =>
    let n := natOfDigits ds
    if greatestExponent < n then
      if significand = 0 ∨ negative then some (sign 0) else none
    else (scale (.ofNat significand) (shift + if negative then -(n : Int) else n)).map sign

def isInteger (l : Literal) : Bool :=
  l.fraction.isEmpty && l.exponent.isNone

def number? (l : Literal) : Option Number :=
  let (significand, dropped) := absorb 0 l.whole
  if l.isInteger && dropped.isEmpty then
    if !l.negative then some (.natural significand)
    else if significand = 0 ∨ 1 <<< 63 < significand then
      some (.real (-Binary.ofNat significand))
    else some (.negative significand)
  else
    let (significand, unread) := absorb significand l.fraction
    let shift : Int := dropped.length + unread.length - l.fraction.length
    (l.real? significand shift).map .real

end Literal

def Number.toBinary32 : Number → Binary32
  | .natural n => .ofNat n
  | .negative n => -.ofNat n
  | .real x => x.convert

end Dialogue.Json
