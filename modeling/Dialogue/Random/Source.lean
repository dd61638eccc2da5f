import Dialogue.Random.ChaCha

namespace Dialogue.Random

structure Source where
  word : Nat → UInt32
  drawn : Nat := 0

namespace Source

def next (s : Source) : UInt32 × Source :=
  (s.word s.drawn, { s with drawn := s.drawn + 1 })

def rewind (s : Source) : Source :=
  { s with drawn := 0 }

end Source

def advanceSeed (s : UInt64) : UInt64 :=
  s * 6364136223846793005 + 11634580027462260723

def rotateRight (x n : UInt32) : UInt32 :=
  x >>> n ||| x <<< ((32 - n) % 32)

/-- A word from the state of the seed's expansion: its high bits, rotated by its top five. -/
def seedWord (s : UInt64) : UInt32 :=
  rotateRight (((s >>> 18) ^^^ s) >>> 27).toUInt32 (s >>> 59).toUInt32

def seedState (seed : UInt64) : Nat → UInt64
  | 0 => seed
  | n + 1 => advanceSeed (seedState seed n)

def keyOfSeed (seed : UInt64) : ChaCha.Key :=
  Vector.ofFn fun i => seedWord (seedState seed (i.val + 1))

def Source.ofSeed (seed : UInt64) : Source :=
  let key := keyOfSeed seed
  { word := fun n => ChaCha.word key n }

end Dialogue.Random
