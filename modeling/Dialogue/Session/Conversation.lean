import Dialogue.Sampling.Candidate
import Dialogue.Session.Reply
import Dialogue.Session.Turn
import Dialogue.Word

namespace Dialogue

structure Draft where
  reply : Reply
  generated : Nat
  logits : Logits

inductive Progress where
  | idle
  /-- The user's turn goes on; there are logits as soon as anything was fed for it. -/
  | prefilling (parts : List Part) (logits : Option Logits)
  | decoding (draft : Draft)
  | stopped (reply : Reply) (reason : StopReason)

/-- The turns that are over, the current one and the number of context positions in use. -/
structure Conversation where
  history : List Turn := []
  progress : Progress := .idle
  position : Nat := 0

namespace Conversation

def message (c : Conversation) : String :=
  match c.progress with
  | .decoding draft => draft.reply.text
  | .stopped reply _ => reply.text
  | _ => ""

def stopReason (c : Conversation) : Option StopReason :=
  match c.progress with
  | .stopped _ reason => some reason
  | _ => none

def isPrefilling (c : Conversation) : Bool :=
  match c.progress with
  | .prefilling .. => true
  | _ => false

def isFirst (c : Conversation) : Bool :=
  c.history.isEmpty

def addPart (c : Conversation) (part : Part) (positions : Nat) (logits : Option Logits) :
    Conversation :=
  let position := addWord c.position positions
  match c.progress with
  | .prefilling parts old =>
    { c with position, progress := .prefilling (parts ++ [part]) (logits.or old) }
  | .decoding draft =>
    { history := c.history ++ [.assistant draft.reply.flush.text]
      progress := .prefilling [part] logits
      position }
  | _ => { c with position, progress := .prefilling [part] logits }

def beginReply (c : Conversation) (parts : List Part) (position : Nat) : Conversation :=
  { c with history := c.history ++ [.user parts], position }

def stop (c : Conversation) (reply : Reply) (reason : StopReason) : Conversation :=
  { c with
    history := c.history ++ [.assistant reply.flush.text]
    progress := .stopped reply.flush reason }

end Conversation

end Dialogue
