import Dialogue.Binary.Format

/-!
Numbers of a binary format as bit patterns, so that the sign and payload of a not-a-number are kept,
with their classes and their three orders: the numeric comparisons, the total order and `max`.
-/

namespace Dialogue

structure Binary (f : Format) where
  bits : BitVec f.width
deriving DecidableEq

abbrev Binary16 := Binary Format.half

abbrev Binary32 := Binary Format.single

abbrev Binary64 := Binary Format.double

namespace Binary

variable {f : Format}

def ofBits (n : Nat) : Binary f :=
  ⟨BitVec.ofNat _ n⟩

def toNat (x : Binary f) : Nat :=
  x.bits.toNat

def negative (x : Binary f) : Bool :=
  x.toNat >>> f.magnitudeWidth = 1

def magnitude (x : Binary f) : Nat :=
  if x.negative then x.toNat - 1 <<< f.magnitudeWidth else x.toNat

def ofParts (negative : Bool) (magnitude : Nat) : Binary f :=
  ofBits (if negative then magnitude + 1 <<< f.magnitudeWidth else magnitude)

def infinity (negative : Bool) : Binary f :=
  ofParts negative f.infinity

/-- What an operation without a value yields. -/
def invalid : Binary f :=
  ofParts true (f.infinity + f.quietBit)

def isNaN (x : Binary f) : Bool :=
  f.infinity < x.magnitude

def isFinite (x : Binary f) : Bool :=
  x.magnitude < f.infinity

def isInfinite (x : Binary f) : Bool :=
  x.magnitude = f.infinity

def isZero (x : Binary f) : Bool :=
  x.magnitude = 0

def quiet (x : Binary f) : Binary f :=
  ofParts x.negative (x.magnitude ||| f.quietBit)

def neg (x : Binary f) : Binary f :=
  ofParts (!x.negative) x.magnitude

instance : Neg (Binary f) := ⟨neg⟩

def value (x : Binary f) : Int :=
  if x.negative then -(x.magnitude : Int) else x.magnitude

/-- Orders all bit patterns: negative not-a-numbers, the numbers with `-0` before `+0`, positive
not-a-numbers. -/
def rank (x : Binary f) : Int :=
  if x.negative then -(x.magnitude : Int) - 1 else x.magnitude

instance : LT (Binary f) :=
  ⟨fun x y => x.isNaN = false ∧ y.isNaN = false ∧ x.value < y.value⟩

instance : LE (Binary f) :=
  ⟨fun x y => x.isNaN = false ∧ y.isNaN = false ∧ x.value ≤ y.value⟩

instance (x y : Binary f) : Decidable (x < y) :=
  inferInstanceAs (Decidable (_ ∧ _ ∧ _))

instance (x y : Binary f) : Decidable (x ≤ y) :=
  inferInstanceAs (Decidable (_ ∧ _ ∧ _))

/-- The greater of two numbers; a not-a-number gives way to the other. -/
def greater (x y : Binary f) : Binary f :=
  if x.isNaN then y
  else if y.isNaN then x
  else if x < y then y else x

end Binary

end Dialogue
