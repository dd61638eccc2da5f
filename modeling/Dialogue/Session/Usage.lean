import Dialogue.Word

namespace Dialogue

structure Usage where
  prefillTokens : Nat := 0
  decodeTokens : Nat := 0
deriving DecidableEq

namespace Usage

def addPrefill (u : Usage) (positions : Nat) : Usage :=
  { u with prefillTokens := addWord u.prefillTokens positions }

def addDecode (u : Usage) : Usage :=
  { u with decodeTokens := addWord u.decodeTokens 1 }

def text (u : Usage) : String :=
  "generated: " ++ Nat.repr u.decodeTokens ++ " tokens"

end Usage

end Dialogue
