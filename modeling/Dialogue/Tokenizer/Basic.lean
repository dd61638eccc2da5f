import Dialogue.Sampling.Candidate
import Dialogue.Text.Quoted
import Dialogue.Text.Utf8

namespace Dialogue

/-- Maps text to tokens and tokens to octets. A token may hold a part of a character only. -/
structure Tokenizer where
  encode : String → List TokenId
  tokenBytes : TokenId → List UInt8
  vocabSize : Nat
  bos : Option TokenId
  eos : List TokenId

namespace Tokenizer

inductive Error where
  | specialOutOfRange (id : TokenId) (size : Nat)
  | malformedMerge (entry : String)
  | reported (detail : String)
deriving DecidableEq

def Error.message : Error → String
  | .specialOutOfRange id size =>
    "special token id " ++ Nat.repr id.toNat ++ " out of range for vocab of " ++ Nat.repr size
  | .malformedMerge entry => "invalid merge entry: " ++ Text.quoted entry
  | .reported detail => detail

def bytes (t : Tokenizer) (tokens : List TokenId) : List UInt8 :=
  tokens.flatMap t.tokenBytes

def decode (t : Tokenizer) (tokens : List TokenId) : String :=
  String.ofList (Text.Utf8.lossy (t.bytes tokens))

def isEos (t : Tokenizer) (token : TokenId) : Bool :=
  t.eos.contains token

@[simp] theorem bytes_append (t : Tokenizer) (first second : List TokenId) :
    t.bytes (first ++ second) = t.bytes first ++ t.bytes second := by
  simp [bytes]

end Tokenizer

end Dialogue
