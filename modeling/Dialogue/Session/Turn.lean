namespace Dialogue

inductive Role where
  | user
  | assistant
deriving DecidableEq

/-- A part of a turn; of an image only its place is kept. -/
inductive Part where
  | text (s : String)
  | image
deriving DecidableEq

structure Turn where
  role : Role
  parts : List Part
deriving DecidableEq

namespace Turn

def user (parts : List Part) : Turn :=
  ⟨.user, parts⟩

def assistant (text : String) : Turn :=
  ⟨.assistant, [.text text]⟩

def render (placeholder : String) (t : Turn) : String :=
  String.join (t.parts.map fun
    | .text s => s
    | .image => placeholder)

end Turn

inductive StopReason where
  | endOfSequence
  | stopString
  | maxGenLength
  | contextWindow
deriving DecidableEq

def StopReason.text : StopReason → String
  | .endOfSequence => "end of sequence"
  | .stopString => "stop string"
  | .maxGenLength => "max generation length"
  | .contextWindow => "context window full"

end Dialogue
