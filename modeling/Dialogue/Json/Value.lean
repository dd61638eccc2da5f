/-!
JSON texts as trees. Numbers keep their digits and strings their escapes, since a reader of a field
decides what a number or a string there may be; a value nobody reads is only checked for its form.
-/

namespace Dialogue.Json

abbrev Digit := Fin 10

/-- A number as written. No fraction is the empty one, which cannot be written. -/
structure Literal where
  negative : Bool
  whole : List Digit
  fraction : List Digit
  exponent : Option (Bool × List Digit)
deriving DecidableEq

inductive Value where
  | null
  | bool (b : Bool)
  | number (literal : Literal)
  | string (escaped : List Char)
  | array (items : List Value)
  | object (members : List (List Char × Value))

mutual

def Value.depth : Value → Nat
  | .array items => depthOfItems items + 1
  | .object members => depthOfMembers members + 1
  | _ => 0

def depthOfItems : List Value → Nat
  | [] => 0
  | item :: rest => max item.depth (depthOfItems rest)

def depthOfMembers : List (List Char × Value) → Nat
  | [] => 0
  | (_, item) :: rest => max item.depth (depthOfMembers rest)

end

end Dialogue.Json
