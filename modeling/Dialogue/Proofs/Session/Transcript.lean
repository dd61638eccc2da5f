import Dialogue.Session.Request

/-!
What a run of a session tells an observer: the log of its calls with their answers, the calls that
a model heard since it last forgot its context, and the transcript of the conversation, made of the
inputs that were accepted and the tokens that were sampled. None of them looks at how a conversation
is kept.
-/

namespace Dialogue

variable {β : Type} [Backend β]

/-- What a model heard since it last forgot its context, once it hears one call more. -/
def Call.after (heard : List Call) : Call → List Call
  | .resetCache => []
  | call => heard ++ [call]

def Event.after (serial : Nat) (heard : List Call) : Event → List Call
  | .load k _ => if k = serial then [] else heard
  | .call k told => if k = serial then told.after heard else heard
  | .release _ | .lose _ => heard

/-- The calls on a model since it was loaded or last forgot its context, in order. -/
def heard (serial : Nat) (events : List Event) : List Call :=
  events.foldl (Event.after serial) []

def Call.input? : Call → Option Input
  | .forward input .. => some input
  | _ => none

def Call.sampled? : Call → Option TokenId
  | .sample token => some token
  | _ => none

def Event.call? : Event → Option Call
  | .call _ told => some told
  | _ => none

def Event.sampled? : Event → Option TokenId
  | .call _ told => told.sampled?
  | _ => none

namespace Session

structure Entry (β : Type) where
  before : Session β
  request : Request
  response : Response β (Option String)

def log (s : Session β) : List Request → List (Entry β)
  | [] => []
  | request :: rest =>
    let response := s.perform request
    ⟨s, request, response⟩ :: log response.session rest

theorem log_append (s : Session β) (first second : List Request) :
    s.log (first ++ second) = s.log first ++ (s.run first).1.log second := by
  induction first generalizing s with
  | nil => rfl
  | cons request rest ih => simp [log, run, ih]

end Session

/-- A part of a user's turn as it was accepted: an image in its normal form, with its positions. -/
inductive Piece where
  | text (s : String)
  | image (image : Tensor) (positions : Nat)

namespace Piece

def part : Piece → Part
  | .text s => .text s
  | .image _ _ => .image

def said : Piece → String
  | .text s => s
  | .image _ _ => ""

def image? : Piece → Option (Tensor × Nat)
  | .text _ => none
  | .image tensor positions => some (tensor, positions)

end Piece

/-- A turn of the user with the tokens sampled for the reply, and why the reply stopped. -/
structure Exchange where
  pieces : List Piece
  sampled : List TokenId := []
  ending : Option StopReason := none

namespace Exchange

def parts (e : Exchange) : List Part :=
  e.pieces.map Piece.part

def addReply (e : Exchange) (tokens : List TokenId) (ending : Option StopReason) : Exchange :=
  { e with sampled := e.sampled ++ tokens, ending }

end Exchange

abbrev Transcript := List Exchange

namespace Transcript

/-- The user's turn goes on as long as nothing was sampled for the reply to it. -/
def addPiece (piece : Piece) : Transcript → Transcript
  | [] => [{ pieces := [piece] }]
  | e :: earlier =>
    if e.sampled = [] then { e with pieces := e.pieces ++ [piece] } :: earlier
    else { pieces := [piece] } :: e :: earlier

def addReply (tokens : List TokenId) (ending : Option StopReason) : Transcript → Transcript
  | [] => []
  | e :: earlier => e.addReply tokens ending :: earlier

/-- A fault of the model ends the conversation; a refusal leaves it alone. -/
def afterPrefill {α : Type} (t : Transcript) (piece : Option Piece) :
    Except Session.Error α → Transcript
  | .ok _ =>
    match piece with
    | some piece => t.addPiece piece
    | none => t
  | .error (.inference ..) => []
  | .error _ => t

def afterDecode {α : Type} (t : Transcript) (tokens : List TokenId) (ending : Option StopReason) :
    Except Session.Error α → Transcript
  | .ok _ => t.addReply tokens ending
  | .error (.inference ..) => []
  | .error _ => t

@[simp] theorem afterPrefill_map {α γ : Type} (t : Transcript) (piece : Option Piece)
    (result : Except Session.Error α) (f : α → γ) :
    t.afterPrefill piece (result.map f) = t.afterPrefill piece result := by
  rcases result with reason | value
  · cases reason <;> rfl
  · rfl

@[simp] theorem afterDecode_map {α γ : Type} (t : Transcript) (tokens : List TokenId)
    (ending : Option StopReason) (result : Except Session.Error α) (f : α → γ) :
    t.afterDecode tokens ending (result.map f) = t.afterDecode tokens ending result := by
  rcases result with reason | value
  · cases reason <;> rfl
  · rfl

end Transcript

def Chat.piece? (chat : Chat β) : Prompt → Option Piece
  | .text s => some (.text s)
  | .image image =>
    match Image.normalize image, Backend.imageEmbedLen chat.model.backend with
    | .ok normal, some positions => some (.image normal positions)
    | _, _ => none

def Chat.planFor (chat : Chat β) (piece : Piece) : Chat.Plan where
  tokens := chat.promptTokens piece.said
  image := piece.image?
  part := piece.part

/-- A transcript after one call more. -/
def Transcript.record (t : Transcript) (entry : Session.Entry β) : Transcript :=
  match entry.request with
  | .prefill input =>
    t.afterPrefill (entry.before.chat.bind (·.piece? input)) entry.response.result
  | .decode =>
    t.afterDecode (entry.response.events.filterMap Event.sampled?)
      entry.response.session.conversation.stopReason entry.response.result
  | .evaluate => t
  | .reload .. | .unload | .resetChat => []

def Transcript.ofLog (log : List (Session.Entry β)) : Transcript :=
  log.foldl Transcript.record []

omit [Backend β] in
theorem heard_append (serial : Nat) (first second : List Event) :
    heard serial (first ++ second) = second.foldl (Event.after serial) (heard serial first) :=
  List.foldl_append

theorem foldl_after_call (serial : Nat) (calls told : List Call) :
    (calls.map (Event.call serial)).foldl (Event.after serial) told =
      calls.foldl Call.after told := by
  rw [List.foldl_map]
  congr 1
  funext told call
  simp [Event.after]

theorem foldl_after_of_not_mem {calls told : List Call} (h : .resetCache ∉ calls) :
    calls.foldl Call.after told = told ++ calls := by
  induction calls generalizing told with
  | nil => simp
  | cons call rest ih =>
      rw [List.mem_cons, not_or] at h
      have hcall : call.after told = told ++ [call] := by
        cases call with
        | resetCache => exact absurd rfl h.1
        | _ => rfl
      rw [List.foldl_cons, hcall, ih h.2, List.append_assoc, List.singleton_append]

theorem filterMap_call_call (serial : Nat) (calls : List Call) :
    (calls.map (Event.call serial)).filterMap Event.call? = calls := by
  rw [List.filterMap_map]
  exact List.filterMap_some

theorem filterMap_sampled_call (serial : Nat) (calls : List Call) :
    (calls.map (Event.call serial)).filterMap Event.sampled? = calls.filterMap Call.sampled? := by
  rw [List.filterMap_map]
  rfl

end Dialogue
