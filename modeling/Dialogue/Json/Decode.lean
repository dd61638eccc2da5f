import Dialogue.Json.Number
import Dialogue.Json.Text

namespace Dialogue.Json

namespace Value

def text? : Value → Option String
  | .string s => (unescape s).map String.ofList
  | _ => none

def bool? : Value → Option Bool
  | .bool b => some b
  | _ => none

def number? : Value → Option Number
  | .number l => l.number?
  | _ => none

/-- A natural number below a bound, written without point, exponent and sign. -/
def natural? (bound : Nat) (v : Value) : Option Nat :=
  match v.number? with
  | some (.natural n) => if n < bound then some n else none
  | _ => none

def size? (v : Value) : Option Nat :=
  v.natural? (1 <<< 64)

def uint64? (v : Value) : Option UInt64 :=
  v.size?.map UInt64.ofNat

def uint32? (v : Value) : Option UInt32 :=
  (v.natural? (1 <<< 32)).map UInt32.ofNat

def binary32? (v : Value) : Option Binary32 :=
  v.number?.map Number.toBinary32

def list? {α : Type} (read : Value → Option α) : Value → Option (List α)
  | .array items => items.mapM read
  | _ => none

def nullable? {α : Type} (read : Value → Option α) : Value → Option (Option α)
  | .null => some none
  | v => (read v).map some

mutual

/-- Whether every string and number inside stands for something. -/
def isMeaningful : Value → Bool
  | .number l => l.number?.isSome
  | .string s => (unescape s).isSome
  | .array items => areMeaningful items
  | .object members => haveMeaning members
  | _ => true

def areMeaningful : List Value → Bool
  | [] => true
  | v :: rest => v.isMeaningful && areMeaningful rest

def haveMeaning : List (List Char × Value) → Bool
  | [] => true
  | (key, v) :: rest => (unescape key).isSome && v.isMeaningful && haveMeaning rest

end

end Value

abbrev Fields := List (String × Value)

namespace Fields

def get? (fields : Fields) (name : String) : Option Value :=
  (fields.find? (·.1 = name)).map (·.2)

def getD {α : Type} (fields : Fields) (name : String) (read : Value → Option α) (missing : α) :
    Option α :=
  match fields.get? name with
  | none => some missing
  | some v => read v

/-- Whether no name of a list is given twice. -/
def areUnique (names : List String) (fields : Fields) : Bool :=
  names.all fun name => (fields.filter (·.1 = name)).length ≤ 1

end Fields

def members? (members : List (List Char × Value)) : Option Fields :=
  members.mapM fun (key, v) => (unescape key).map fun key => (String.ofList key, v)

def objectFields? (names : List String) (members : List (List Char × Value)) : Option Fields := do
  let fields ← members? members
  if fields.areUnique names then some fields else none

def arrayFields? (names : List String) (items : List Value) : Option Fields :=
  if items.length ≤ names.length then some (names.zip items) else none

def fields? (names : List String) : Value → Option Fields
  | .object members => objectFields? names members
  | .array items => arrayFields? names items
  | _ => none

end Dialogue.Json
