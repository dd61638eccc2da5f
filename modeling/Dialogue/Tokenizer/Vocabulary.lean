import Std.Data.TreeMap
import Dialogue.Tokenizer.Basic

namespace Dialogue

open Tokenizer (Error)

structure Vocabulary where
  tokens : Array String
  index : Std.TreeMap String TokenId
  bos : Option TokenId
  eos : List TokenId
  unknown : Option TokenId

namespace Vocabulary

/-- Enters texts under ids from `n` on; a text that has an id keeps it. -/
def extendIndex (index : Std.TreeMap String TokenId) (n : Nat) :
    List String → Std.TreeMap String TokenId
  | [] => index
  | token :: rest => extendIndex (index.insertIfNew token (UInt32.ofNat n)) (n + 1) rest

def indexOf (tokens : List String) : Std.TreeMap String TokenId :=
  extendIndex ∅ 0 tokens

def new (tokens : List String) (bos : Option TokenId) (eos : List TokenId)
    (unknown : Option TokenId) : Except Error Vocabulary :=
  match (bos.toList ++ eos ++ unknown.toList).find? (tokens.length ≤ ·.toNat) with
  | some id => .error (.specialOutOfRange id tokens.length)
  | none => .ok { tokens := tokens.toArray, index := indexOf tokens, bos, eos, unknown }

def id? (v : Vocabulary) (token : String) : Option TokenId :=
  v.index[token]?

def token? (v : Vocabulary) (id : TokenId) : Option String :=
  v.tokens[id.toNat]?

def size (v : Vocabulary) : Nat :=
  v.tokens.size

def isEmpty (v : Vocabulary) : Bool :=
  v.tokens.isEmpty

end Vocabulary

end Dialogue
