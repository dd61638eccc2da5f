namespace Dialogue.Random.ChaCha

abbrev Key := Vector UInt32 8

abbrev Block := Vector UInt32 16

def rotateLeft (x n : UInt32) : UInt32 :=
  x <<< n ||| x >>> (32 - n)

def quarterRound (s : Block) (a b c d : Fin 16) : Block :=
  let s := s.set a (s[a] + s[b])
  let s := s.set d (rotateLeft (s[d] ^^^ s[a]) 16)
  let s := s.set c (s[c] + s[d])
  let s := s.set b (rotateLeft (s[b] ^^^ s[c]) 12)
  let s := s.set a (s[a] + s[b])
  let s := s.set d (rotateLeft (s[d] ^^^ s[a]) 8)
  let s := s.set c (s[c] + s[d])
  s.set b (rotateLeft (s[b] ^^^ s[c]) 7)

def columnRound (s : Block) : Block :=
  let s := quarterRound s 0 4 8 12
  let s := quarterRound s 1 5 9 13
  let s := quarterRound s 2 6 10 14
  quarterRound s 3 7 11 15

def diagonalRound (s : Block) : Block :=
  let s := quarterRound s 0 5 10 15
  let s := quarterRound s 1 6 11 12
  let s := quarterRound s 2 7 8 13
  quarterRound s 3 4 9 14

def doubleRounds : Nat → Block → Block
  | 0, s => s
  | n + 1, s => doubleRounds n (diagonalRound (columnRound s))

/-- The constants "expand 32-byte k", the key, the counter, its low word first, and the stream. -/
def initial (key : Key) (counter : UInt64) : Block := #v[
  0x61707865, 0x3320646e, 0x79622d32, 0x6b206574,
  key[0], key[1], key[2], key[3], key[4], key[5], key[6], key[7],
  counter.toUInt32, (counter >>> 32).toUInt32, 0, 0]

def block (key : Key) (counter : UInt64) : Block :=
  let s := initial key counter
  (doubleRounds 6 s).zipWith (· + ·) s

def word (key : Key) (n : Nat) : UInt32 :=
  (block key (UInt64.ofNat (n / 16))).get (Fin.ofNat 16 n)

end Dialogue.Random.ChaCha
