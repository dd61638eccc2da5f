import Dialogue.Json.Text

namespace Dialogue.Json

def Value.ofText (s : String) : Value :=
  .string (escape s.toList)

def digitChar (d : Digit) : Char :=
  Char.ofNat ('0'.toNat + d.val)

def Literal.render (l : Literal) : List Char :=
  let fraction := if l.fraction.isEmpty then [] else '.' :: l.fraction.map digitChar
  let exponent := match l.exponent with
    | none => []
    | some (negative, ds) => 'e' :: (if negative then ['-'] else []) ++ ds.map digitChar
  (if l.negative then ['-'] else []) ++ l.whole.map digitChar ++ fraction ++ exponent

mutual

def Value.render : Value → List Char
  | .null => ['n', 'u', 'l', 'l']
  | .bool true => ['t', 'r', 'u', 'e']
  | .bool false => ['f', 'a', 'l', 's', 'e']
  | .number l => l.render
  | .string s => '"' :: s ++ ['"']
  | .array [] => ['[', ']']
  | .array (item :: rest) => '[' :: item.render ++ renderItems rest
  | .object [] => ['{', '}']
  | .object ((key, item) :: rest) =>
    '{' :: '"' :: key ++ '"' :: ':' :: item.render ++ renderMembers rest

def renderItems : List Value → List Char
  | [] => [']']
  | item :: rest => ',' :: item.render ++ renderItems rest

def renderMembers : List (List Char × Value) → List Char
  | [] => ['}']
  | (key, item) :: rest => ',' :: '"' :: key ++ '"' :: ':' :: item.render ++ renderMembers rest

end

def Value.print (v : Value) : String :=
  String.ofList v.render

end Dialogue.Json
