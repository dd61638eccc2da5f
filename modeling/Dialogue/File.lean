import Dialogue.Backend.Error

namespace Dialogue

inductive File where
  | contents (octets : ByteArray)
  | directory

namespace File

def ofText (text : String) : File :=
  .contents text.toUTF8

def text? : File → Option String
  | .contents octets => String.fromUTF8? octets
  | .directory => none

def read (file : Option File) : Except Backend.Error String :=
  match file.bind text? with
  | some text => .ok text
  | none => .error .io

end File

end Dialogue
