import Dialogue.File
import Dialogue.Sampling.Params
import Dialogue.Template

namespace Dialogue

structure Config where
  contextWindow : Nat := 2048
  maxGenLength : Nat := 512
  sampling : SamplingParams := {}
  template : Template := {}
deriving DecidableEq

namespace Config

def validate (c : Config) : Config :=
  let missing : Config := {}
  { c with
    contextWindow := if c.contextWindow = 0 then missing.contextWindow else c.contextWindow
    maxGenLength := if c.maxGenLength = 0 then missing.maxGenLength else c.maxGenLength
    sampling := c.sampling.validate }

def fieldNames : List String :=
  ["context_window_size", "max_gen_len", "conv_template"]

/-- The greatest nesting of a value in the file whose field is not a limit or the template. -/
def greatestDepth : Nat := 126

def isAcceptable (field : String × Json.Value) : Bool :=
  fieldNames.contains field.1 || (field.2.depth ≤ greatestDepth && field.2.isMeaningful)

def ofFields (fields : Json.Fields) : Option Config := do
  let missing : Config := {}
  if !fields.all isAcceptable then none
  else some {
    contextWindow := ← fields.getD "context_window_size" Json.Value.size? missing.contextWindow
    maxGenLength := ← fields.getD "max_gen_len" Json.Value.size? missing.maxGenLength
    sampling := ← SamplingParams.ofFields fields
    template := ← fields.getD "conv_template" Template.ofValue missing.template }

def ofJson (text : String) : Option Config := do
  match ← Json.parse text with
  | .object members =>
    ofFields (← Json.objectFields? (fieldNames ++ SamplingParams.fieldNames) members)
  | _ => none

def load : Option File → Except Backend.Error Config
  | none => .ok {}
  | some file => do
    match ofJson (← File.read (some file)) with
    | some config => .ok config.validate
    | none => .error .config

end Config

end Dialogue
