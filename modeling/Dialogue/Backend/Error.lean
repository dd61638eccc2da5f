import Dialogue.Tensor.Error
import Dialogue.Tokenizer.Basic

namespace Dialogue

inductive Incompatibility where
  | vocabularySizes (tokens logits : Nat)
  | reported (detail : String)
deriving DecidableEq

def Incompatibility.message : Incompatibility → String
  | .vocabularySizes tokens logits =>
    "tokenizer has " ++ Nat.repr tokens ++ " tokens but backend produces " ++ Nat.repr logits ++
      " logits"
  | .reported detail => detail

inductive ForwardError where
  | logitCount (got expected : Nat)
  | noLogits
  | reported (detail : String)
deriving DecidableEq

def ForwardError.message : ForwardError → String
  | .logitCount got expected =>
    "backend returned " ++ Nat.repr got ++ " logits, expected " ++ Nat.repr expected
  | .noLogits => "no logits to sample from"
  | .reported detail => detail

inductive Backend.Error where
  | io
  | config
  | unknownModel (name : String) (known : List String)
  | incompatible (reason : Incompatibility)
  | tokenizer (reason : Tokenizer.Error)
  | forward (reason : ForwardError)
  | outOfMemory (detail : String)
  | unsupported (operation : String)
  | tensor (reason : Tensor.Error)
deriving DecidableEq

/-- The text of an error; that of an unreadable or malformed file is not fixed. -/
def Backend.Error.message? : Backend.Error → Option String
  | .io => none
  | .config => none
  | .unknownModel name known =>
    some ("no backend registered for model '" ++ name ++ "' (known: " ++ Text.quotedList known ++
      ")")
  | .incompatible reason => some ("incompatible model: " ++ reason.message)
  | .tokenizer reason => some ("tokenizer error: " ++ reason.message)
  | .forward reason => some ("forward pass failed: " ++ reason.message)
  | .outOfMemory detail => some ("out of memory: " ++ detail)
  | .unsupported operation => some ("operation not supported by this backend: " ++ operation)
  | .tensor reason => some ("tensor error: " ++ reason.message)

end Dialogue
