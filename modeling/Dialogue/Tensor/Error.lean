import Dialogue.Text.Quoted

namespace Dialogue.Tensor

inductive Error where
  | shapeMismatch (expected got : List Nat)
  | lengthMismatch (length : Nat) (dims : List Nat) (count : Nat)
  | typeMismatch (expected got : String)
  | notSqueezable (axis size : Nat)
deriving DecidableEq

def Error.message : Error → String
  | .shapeMismatch expected got =>
    "shape mismatch: expected " ++ Text.numbers expected ++ ", got " ++ Text.numbers got
  | .lengthMismatch length dims count =>
    "data length " ++ Nat.repr length ++ " does not match shape " ++ Text.numbers dims ++
      " (numel=" ++ Nat.repr count ++ ")"
  | .typeMismatch expected got => "dtype mismatch: expected " ++ expected ++ ", got " ++ got
  | .notSqueezable axis size =>
    "cannot squeeze axis " ++ Nat.repr axis ++ " of size " ++ Nat.repr size

end Dialogue.Tensor
