import Dialogue.Json.Decode
import Dialogue.Json.Printer

namespace Dialogue

structure Template where
  system : String :=
    "A chat between a curious user and an artificial intelligence assistant. " ++
      "The assistant gives helpful, detailed, and polite answers to the user's questions."
  userRole : String := "USER"
  assistantRole : String := "ASSISTANT"
  roleSep : String := ": "
  roleEmptySep : String := ":"
  userSep : String := " "
  assistantSep : String := "</s>"
  imagePlaceholder : String := "<image>\n"
  stopStrings : List String := ["</s>"]
  addBos : Bool := true
deriving DecidableEq

namespace Template

/-- The text before what the user says. -/
def userPrefix (t : Template) (first : Bool) : String :=
  let opening :=
    if first then (if t.system = "" then "" else t.system ++ t.userSep) else t.assistantSep
  opening ++ t.userRole ++ t.roleSep

def assistantPrefix (t : Template) : String :=
  t.userSep ++ t.assistantRole ++ t.roleEmptySep

def fieldNames : List String :=
  ["system", "user_role", "assistant_role", "role_sep", "role_empty_sep", "user_sep",
    "assistant_sep", "image_placeholder", "stop_strings", "add_bos"]

def ofFields (fields : Json.Fields) : Option Template := do
  let missing : Template := {}
  let text := fun name => fields.getD name Json.Value.text?
  some {
    system := ← text "system" missing.system
    userRole := ← text "user_role" missing.userRole
    assistantRole := ← text "assistant_role" missing.assistantRole
    roleSep := ← text "role_sep" missing.roleSep
    roleEmptySep := ← text "role_empty_sep" missing.roleEmptySep
    userSep := ← text "user_sep" missing.userSep
    assistantSep := ← text "assistant_sep" missing.assistantSep
    imagePlaceholder := ← text "image_placeholder" missing.imagePlaceholder
    stopStrings :=
      ← fields.getD "stop_strings" (Json.Value.list? Json.Value.text?) missing.stopStrings
    addBos := ← fields.getD "add_bos" Json.Value.bool? missing.addBos }

def ofValue (v : Json.Value) : Option Template := do
  ofFields (← Json.fields? fieldNames v)

def ofJson (text : String) : Option Template := do
  ofValue (← Json.parse text)

def toFields (t : Template) : Json.Fields :=
  [("system", .ofText t.system),
    ("user_role", .ofText t.userRole),
    ("assistant_role", .ofText t.assistantRole),
    ("role_sep", .ofText t.roleSep),
    ("role_empty_sep", .ofText t.roleEmptySep),
    ("user_sep", .ofText t.userSep),
    ("assistant_sep", .ofText t.assistantSep),
    ("image_placeholder", .ofText t.imagePlaceholder),
    ("stop_strings", .array (t.stopStrings.map .ofText)),
    ("add_bos", .bool t.addBos)]

def toValue (t : Template) : Json.Value :=
  .object (t.toFields.map fun (name, v) => (Json.escape name.toList, v))

def toJson (t : Template) : String :=
  t.toValue.print

end Template

end Dialogue
