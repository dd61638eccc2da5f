import Dialogue.Session.Request
import Dialogue.Session.Workspace

namespace Dialogue

/-- A session as it lies in memory. -/
structure SessionRecord (β : Type) where
  registry : Registry (Loader β)
  entropy : Nat → Nat → UInt32
  loads : Nat := 0
  model : Option (Model β) := none
  conversation : ConversationRecord := {}
  throughput : Throughput := {}

structure SessionRecord.Response (β : Type) where
  session : SessionRecord β
  events : List Event
  result : Except Session.Error (Option String)

namespace SessionRecord

variable {β : Type} [Backend β]

def new (registry : Registry (Loader β)) (entropy : Nat → Nat → UInt32) : SessionRecord β :=
  { registry, entropy }

def vacant (s : SessionRecord β) : SessionRecord β :=
  { s with model := none, conversation := {}, throughput := {} }

def released (s : SessionRecord β) : List Event :=
  s.model.toList.flatMap fun model =>
    let (model, events) := model.release
    events ++ model.drop

def unload (s : SessionRecord β) : Response β :=
  ⟨s.vacant, s.released, .ok none⟩

def reload (s : SessionRecord β) (name : String) (directory : ModelDirectory) : Response β :=
  let blank : Session β := { registry := s.registry, entropy := s.entropy, loads := s.loads }
  let response := blank.reload name directory
  { session := { s.vacant with
      loads := response.session.loads
      model := response.session.chat.map Chat.model }
    events := s.released ++ response.events
    result := response.result.map fun _ => none }

/-- Makes a call on the conversation; a fault of the model ends it. -/
def converse (s : SessionRecord β) (call : Workspace β → Except Breach (Workspace.Left β Unit)) :
    Except Breach (Response β) :=
  match s.model with
  | none => .ok ⟨s, [], .error .notLoaded⟩
  | some model => do
    let (w, result) ← call { model, conversation := s.conversation, throughput := s.throughput }
    let w := w.recover result
    .ok {
      session := { s with
        model := some w.model
        conversation := w.conversation
        throughput := w.throughput }
      events := w.calls.map (.call model.serial)
      result := result.map fun _ => none }

def resetChat (s : SessionRecord β) : Except Breach (Response β) :=
  s.converse fun w => .ok (w.reset, .ok ())

def evaluate (s : SessionRecord β) : Response β :=
  match s.model with
  | none => ⟨s, [], .error .notLoaded⟩
  | some model =>
    let (report, backend) := Backend.evaluate model.backend
    { session := { s with model := some { model with backend } }
      events := [.call model.serial .evaluate]
      result := (report.mapError (.inference .evaluate)).map some }

def perform (s : SessionRecord β) (elapsed : Elapsed) : Request → Except Breach (Response β)
  | .reload name directory => .ok (s.reload name directory)
  | .unload => .ok s.unload
  | .resetChat => s.resetChat
  | .prefill input => s.converse (·.prefill input elapsed.prompt)
  | .decode => s.converse (·.decode elapsed)
  | .evaluate => .ok s.evaluate

def run (s : SessionRecord β) :
    List (Request × Elapsed) →
      Except Breach (SessionRecord β × List (List Event × Except Session.Error (Option String)))
  | [] => .ok (s, [])
  | (request, elapsed) :: rest => do
    let response ← s.perform elapsed request
    let (last, answers) ← response.session.run rest
    .ok (last, (response.events, response.result) :: answers)

def state (s : SessionRecord β) : SessionState :=
  if s.model.isNone then .unloaded
  else
    match s.conversation.phase with
    | .idle => .loaded
    | .prefilling => .prefilling
    | .decoding => .decoding
    | .stopped => .stopped

def message (s : SessionRecord β) : Option String :=
  s.conversation.message.readText

end SessionRecord

end Dialogue
