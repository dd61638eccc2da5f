import Dialogue.File
import Dialogue.Json.Decode
import Dialogue.Tokenizer.BytePair

namespace Dialogue

structure TokenizerFile where
  tokens : List String
  merges : List String := []
  bos : Option TokenId := none
  eos : List TokenId := []
  unknown : Option TokenId := none
deriving DecidableEq

namespace TokenizerFile

def fieldNames : List String :=
  ["tokens", "merges", "bos_id", "eos_ids", "unk_id"]

def ofFields (fields : Json.Fields) : Option TokenizerFile := do
  let texts := Json.Value.list? Json.Value.text?
  let ids := Json.Value.list? Json.Value.uint32?
  let id := Json.Value.nullable? Json.Value.uint32?
  some {
    tokens := ← texts (← fields.get? "tokens")
    merges := ← fields.getD "merges" texts []
    bos := ← fields.getD "bos_id" id none
    eos := ← fields.getD "eos_ids" ids []
    unknown := ← fields.getD "unk_id" id none }

/-- The contents of a text. An array has to hold all fields. -/
def ofJson (text : String) : Option TokenizerFile := do
  match ← Json.parse text with
  | .array items =>
    if items.length = fieldNames.length then ofFields (fieldNames.zip items) else none
  | v => ofFields (← Json.fields? fieldNames v)

def read (file : Option File) : Except Backend.Error TokenizerFile := do
  match ofJson (← File.read file) with
  | some contents => .ok contents
  | none => .error .config

end TokenizerFile

namespace BytePair

def ofContents (f : TokenizerFile) : Except Tokenizer.Error BytePair := do
  new (← Vocabulary.new f.tokens f.bos f.eos f.unknown) f.merges

def ofFile (file : Option File) : Except Backend.Error BytePair := do
  match ofContents (← TokenizerFile.read file) with
  | .ok b => .ok b
  | .error reason => .error (.tokenizer reason)

end BytePair

end Dialogue
