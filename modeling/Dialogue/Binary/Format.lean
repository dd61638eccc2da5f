namespace Dialogue

structure Format where
  exponentWidth : Nat
  fractionWidth : Nat
deriving DecidableEq

namespace Format

def half : Format := ⟨5, 10⟩

def single : Format := ⟨8, 23⟩

def double : Format := ⟨11, 52⟩

def magnitudeWidth (f : Format) : Nat :=
  f.exponentWidth + f.fractionWidth

def width (f : Format) : Nat :=
  f.magnitudeWidth + 1

/-- The magnitude of an infinity; every magnitude above it is not a number. -/
def infinity (f : Format) : Nat :=
  ((1 <<< f.exponentWidth) - 1) <<< f.fractionWidth

def quietBit (f : Format) : Nat :=
  1 <<< (f.fractionWidth - 1)

def leastExponent (f : Format) : Int :=
  2 - ((1 <<< (f.exponentWidth - 1) : Nat) : Int) - (f.fractionWidth : Int)

def nearestQuotient (m k : Nat) : Nat :=
  let quotient := m >>> k
  let twice := (m - quotient <<< k) <<< 1
  let unit := 1 <<< k
  if twice < unit ∨ (twice = unit ∧ quotient % 2 = 0) then quotient else quotient + 1

/-- The magnitude nearest to `m * 2 ^ e`; what lies beyond the greatest finite number is infinite.
The significand overflowing into the exponent field is the carry to the next binade. -/
def round (f : Format) (m : Nat) (e : Int) : Nat :=
  if m = 0 then 0 else
    let unit := max f.leastExponent (e + m.log2 - f.fractionWidth)
    let significand :=
      if unit ≤ e then m <<< (e - unit).toNat else nearestQuotient m (unit - e).toNat
    min (significand + (unit - f.leastExponent).toNat <<< f.fractionWidth) f.infinity

/-- The magnitude nearest to `n / d * 2 ^ e`, for `d ≠ 0`. The quotient is taken to three bits more
than the significand holds, and a last bit tells whether anything was left over. -/
def roundQuotient (f : Format) (n d : Nat) (e : Int) : Nat :=
  let shift := f.fractionWidth + 3 + d.log2 + 1 - n.log2
  let scaled := n <<< shift
  let quotient := scaled / d
  let sticky := if scaled % d = 0 then 0 else 1
  f.round (2 * quotient + sticky) (e - shift - 1)

def unpack (f : Format) (magnitude : Nat) : Nat × Int :=
  let field := magnitude >>> f.fractionWidth
  if field = 0 then (magnitude, f.leastExponent)
  else (magnitude - (field - 1) <<< f.fractionWidth, f.leastExponent + field - 1)

theorem round_zero (f : Format) (e : Int) : f.round 0 e = 0 := rfl

theorem round_le_infinity (f : Format) (m : Nat) (e : Int) : f.round m e ≤ f.infinity := by
  unfold round
  split
  · exact Nat.zero_le _
  · exact Nat.min_le_right _ _

end Format

end Dialogue
