import Std.Data.TreeMap
import Dialogue.Backend.Error

namespace Dialogue

/-- Entries by model name. Names that differ only by a dash for an underscore are one. -/
structure Registry (α : Type) where
  entries : Std.TreeMap String α := ∅

namespace Registry

variable {α : Type}

def normalizeChar (c : Char) : Char :=
  if c = '-' then '_' else c

def normalize (name : String) : String :=
  String.ofList (name.toList.map normalizeChar)

/-- Enters a name; the entry it replaces comes back. -/
def register (r : Registry α) (name : String) (entry : α) : Option α × Registry α :=
  let key := normalize name
  (r.entries[key]?, { entries := r.entries.insert key entry })

def including (r : Registry α) (name : String) (entry : α) : Registry α :=
  (r.register name entry).2

def names (r : Registry α) : List String :=
  r.entries.keys

def resolve (r : Registry α) (name : String) : Except Backend.Error α :=
  match r.entries[normalize name]? with
  | some entry => .ok entry
  | none => .error (.unknownModel name r.names)

def describe (r : Registry α) : String :=
  "BackendRegistry \x7b models: " ++ Text.quotedList r.names ++ " \x7d"

end Registry

end Dialogue
