import Dialogue.Binary.Basic

namespace Dialogue.Binary

variable {f : Format}

def propagate (x y : Binary f) : Option (Binary f) :=
  if x.isNaN then some x.quiet
  else if y.isNaN then some y.quiet
  else none

def ofRatio (negative : Bool) (n d : Nat) (e : Int) : Binary f :=
  ofParts negative (f.roundQuotient n d e)

def ofNat (n : Nat) : Binary f :=
  ofParts false (f.round n 0)

def ofDecimal (negative : Bool) (m : Nat) (e : Int) : Binary f :=
  if 0 ≤ e then ofRatio negative (m * Nat.pow 10 e.toNat) 1 0
  else ofRatio negative m (Nat.pow 10 (-e).toNat) 0

instance (n : Nat) : OfNat (Binary f) n :=
  ⟨ofNat n⟩

instance : OfScientific (Binary f) :=
  ⟨fun m down e => ofDecimal false m (if down then -(e : Int) else e)⟩

/-- The sum of finite numbers. A zero sum is negative only if both terms are. -/
def addFinite (x y : Binary f) : Binary f :=
  let (m, e) := f.unpack x.magnitude
  let (n, d) := f.unpack y.magnitude
  let least := min e d
  let signed (negative : Bool) (k : Nat) : Int := if negative then -(k : Int) else k
  let sum :=
    signed x.negative (m <<< (e - least).toNat) + signed y.negative (n <<< (d - least).toNat)
  if sum = 0 then ofParts (x.negative && y.negative) 0
  else ofParts (sum < 0) (f.round sum.natAbs least)

def add (x y : Binary f) : Binary f :=
  match propagate x y with
  | some z => z
  | none =>
    if x.isInfinite then
      if y.isInfinite && x.negative != y.negative then invalid else x
    else if y.isInfinite then y
    else addFinite x y

/-- The difference; a second operand that is not a number keeps its own sign. -/
def sub (x y : Binary f) : Binary f :=
  if y.isNaN then add x y else add x (-y)

def mul (x y : Binary f) : Binary f :=
  match propagate x y with
  | some z => z
  | none =>
    let sign := x.negative != y.negative
    if x.isInfinite || y.isInfinite then
      if x.isZero || y.isZero then invalid else infinity sign
    else
      let (m, e) := f.unpack x.magnitude
      let (n, d) := f.unpack y.magnitude
      ofParts sign (f.round (m * n) (e + d))

def div (x y : Binary f) : Binary f :=
  match propagate x y with
  | some z => z
  | none =>
    let sign := x.negative != y.negative
    if x.isInfinite then
      if y.isInfinite then invalid else infinity sign
    else if y.isInfinite then ofParts sign 0
    else if y.isZero then
      if x.isZero then invalid else infinity sign
    else
      let (m, e) := f.unpack x.magnitude
      let (n, d) := f.unpack y.magnitude
      ofRatio sign m n (e - d)

instance : Add (Binary f) := ⟨add⟩

instance : Sub (Binary f) := ⟨sub⟩

instance : Mul (Binary f) := ⟨mul⟩

instance : Div (Binary f) := ⟨div⟩

/-- The nearest number of another format. A not-a-number keeps its sign and the leading bits of its
payload and becomes quiet. -/
def convert {g : Format} (x : Binary f) : Binary g :=
  if x.isNaN then
    let payload := x.magnitude - f.infinity
    let moved :=
      if f.fractionWidth ≤ g.fractionWidth then payload <<< (g.fractionWidth - f.fractionWidth)
      else payload >>> (f.fractionWidth - g.fractionWidth)
    ofParts x.negative ((g.infinity + moved) ||| g.quietBit)
  else if x.isInfinite then infinity x.negative
  else
    let (m, e) := f.unpack x.magnitude
    ofParts x.negative (g.round m e)

def nearestInt (x : Binary f) : Int :=
  let (m, e) := f.unpack x.magnitude
  let whole := if 0 ≤ e then m <<< e.toNat else Format.nearestQuotient m (-e).toNat
  if x.negative then -(whole : Int) else whole

def ofInt (n : Int) : Binary f :=
  ofParts (n < 0) (f.round n.natAbs 0)

end Dialogue.Binary
