import Dialogue.Binary.Arithmetic

/-!
The exponential of a single, evaluated in doubles. With `x * 32 / log 2 = 32 * q + i + r`, where
`0 ≤ i < 32` and `|r| ≤ 1 / 2`, it is `2 ^ q * 2 ^ (i / 32)` times a cubic in `r`.
-/

namespace Dialogue.Binary

/-- The significands of `2 ^ (i / 32)` as doubles, without their leading bit. -/
def rootFractions : Array Nat := #[
  0x0000000000000, 0x059b0d3158574, 0x0b5586cf9890f, 0x11301d0125b51,
  0x172b83c7d517b, 0x1d4873168b9aa, 0x2387a6e756238, 0x29e9df51fdee1,
  0x306fe0a31b715, 0x371a7373aa9cb, 0x3dea64c123422, 0x44e086061892d,
  0x4bfdad5362a27, 0x5342b569d4f82, 0x5ab07dd485429, 0x6247eb03a5585,
  0x6a09e667f3bcd, 0x71f75e8ec5f74, 0x7a11473eb0187, 0x82589994cce13,
  0x8ace5422aa0db, 0x93737b0cdc5e5, 0x9c49182a3f090, 0xa5503b23e255d,
  0xae89f995ad3ad, 0xb7f76f2fb5e47, 0xc199bdd85529c, 0xcb720dcef9069,
  0xd5818dcfba487, 0xdfc97337b9b5f, 0xea4afa2a490da, 0xf50765b6e4540]

def powerOfRoot (k : Int) : Binary64 :=
  let fraction := rootFractions.getD (k % 32).toNat 0
  ofParts false (Format.double.round (1 <<< 52 + fraction) (k / 32 - 52))

def rootsPerUnit : Binary64 :=
  ofBits 0x40471547652b82fe

def cubic : Binary64 × Binary64 × Binary64 :=
  (ofBits 0x3ebc6af84b912394, ofBits 0x3f2ebfce50fac4f3, ofBits 0x3f962e42ff0c52d6)

def expReduced (x : Binary32) : Binary32 :=
  let z : Binary64 := rootsPerUnit * x.convert
  let k := z.nearestInt
  let r := z - ofInt k
  let (third, second, first) := cubic
  let high := third * r + second
  let low := first * r + 1
  ((high * (r * r) + low) * powerOfRoot k).convert

/-- The exponential; above `88.72283` it is infinite and below `-103.97208` zero. -/
def exp (x : Binary32) : Binary32 :=
  if x.isNaN then x.quiet
  else if ofBits 0x42b17217 < x then infinity false
  else if x < ofBits 0xc2cff1b4 then 0
  else expReduced x

end Dialogue.Binary
