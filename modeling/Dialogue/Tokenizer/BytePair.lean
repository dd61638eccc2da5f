import Dialogue.Tokenizer.Vocabulary

namespace Dialogue

open Tokenizer (Error)

abbrev MergeRanks :=
  Std.TreeMap (String × String) Nat (compareLex (compareOn (·.1)) (compareOn (·.2)))

structure BytePair where
  vocabulary : Vocabulary
  ranks : MergeRanks

namespace BytePair

/-- Marks the beginning of a word and is read as a space. -/
def spaceMarker : Char := '\u2581'

def splitMerge (entry : String) : Option (String × String) :=
  match entry.toList.span (· != ' ') with
  | (_, []) => none
  | (left, _ :: right) => some (String.ofList left, String.ofList right)

/-- Enters rules at positions from `n` on; a rule that has a position keeps it. -/
def extendRanks (ranks : MergeRanks) (n : Nat) : List String → Except Error MergeRanks
  | [] => .ok ranks
  | entry :: rest =>
    match splitMerge entry with
    | none => .error (.malformedMerge entry)
    | some sides => extendRanks (ranks.insertIfNew sides n) (n + 1) rest

def new (vocabulary : Vocabulary) (merges : List String) : Except Error BytePair :=
  (extendRanks ∅ 0 merges).map fun ranks => { vocabulary, ranks }

def upperHex (n : Nat) : Char :=
  if n < 10 then Char.ofNat ('0'.toNat + n) else Char.ofNat ('A'.toNat + (n - 10))

def octetToken (b : UInt8) : String :=
  String.ofList ['<', '0', 'x', upperHex (b.toNat / 16), upperHex (b.toNat % 16), '>']

/-- Whether spaces are written with the marker: it is a token and the space is none. -/
def usesMarker (v : Vocabulary) : Bool :=
  (v.id? " ").isNone && (v.id? spaceMarker.toString).isSome

def charPiece (v : Vocabulary) (c : Char) : String :=
  if c = ' ' && usesMarker v then spaceMarker.toString else c.toString

def charPieces (v : Vocabulary) (c : Char) : List String :=
  let piece := charPiece v c
  if (v.id? piece).isSome then [piece]
  else (String.utf8EncodeChar c).map octetToken

def initialPieces (v : Vocabulary) (text : List Char) : List String :=
  text.flatMap (charPieces v)

def rank? (ranks : MergeRanks) (left right : String) : Option Nat :=
  ranks[(left, right)]?

def lesser : Option Nat → Option Nat → Option Nat
  | none, k => k
  | k, none => k
  | some j, some k => some (min j k)

def leastRank (ranks : MergeRanks) : List String → Option Nat
  | left :: right :: rest => lesser (rank? ranks left right) (leastRank ranks (right :: rest))
  | _ => none

def mergeFirst (ranks : MergeRanks) (k : Nat) : List String → List String
  | left :: right :: rest =>
    if rank? ranks left right = some k then (left ++ right) :: rest
    else left :: mergeFirst ranks k (right :: rest)
  | pieces => pieces

def mergeTimes (ranks : MergeRanks) : Nat → List String → List String
  | 0, pieces => pieces
  | n + 1, pieces =>
    match leastRank ranks pieces with
    | none => pieces
    | some k => mergeTimes ranks n (mergeFirst ranks k pieces)

/-- Joins neighbours until no rule applies; each time a piece less is left. -/
def merge (ranks : MergeRanks) (pieces : List String) : List String :=
  mergeTimes ranks pieces.length pieces

def encode (b : BytePair) (text : String) : List TokenId :=
  (merge b.ranks (initialPieces b.vocabulary text.toList)).filterMap fun piece =>
    (b.vocabulary.id? piece).or b.vocabulary.unknown

def hexDigit? (c : Char) : Option Nat :=
  if '0' ≤ c ∧ c ≤ '9' then some (c.toNat - '0'.toNat)
  else if 'a' ≤ c ∧ c ≤ 'f' then some (c.toNat - 'a'.toNat + 10)
  else if 'A' ≤ c ∧ c ≤ 'F' then some (c.toNat - 'A'.toNat + 10)
  else none

/-- The number of two hexadecimal digits; a plus sign may stand for the first. -/
def hexNumber? (a b : Char) : Option Nat :=
  if a = '+' then hexDigit? b
  else
    match hexDigit? a, hexDigit? b with
    | some high, some low => some (high * 16 + low)
    | _, _ => none

def octet? : List Char → Option UInt8
  | ['<', '0', 'x', a, b, '>'] => (hexNumber? a b).map UInt8.ofNat
  | _ => none

def unmark (c : Char) : Char :=
  if c = spaceMarker then ' ' else c

def textBytes (token : List Char) : List UInt8 :=
  match octet? token with
  | some b => [b]
  | none => Text.Utf8.encode (token.map unmark)

def tokenBytes (b : BytePair) (id : TokenId) : List UInt8 :=
  match b.vocabulary.token? id with
  | some token => textBytes token.toList
  | none => []

def tokenizer (b : BytePair) : Tokenizer where
  encode := b.encode
  tokenBytes := b.tokenBytes
  vocabSize := b.vocabulary.size
  bos := b.vocabulary.bos
  eos := b.vocabulary.eos

end BytePair

end Dialogue
