import Dialogue.Backend.Registry
import Dialogue.Session.Chat

namespace Dialogue

inductive SessionState where
  | unloaded
  | loaded
  | prefilling
  | decoding
  | stopped
deriving DecidableEq

def SessionState.text : SessionState → String
  | .unloaded => "unloaded"
  | .loaded => "loaded"
  | .prefilling => "prefilling"
  | .decoding => "decoding"
  | .stopped => "stopped"

def SessionState.title : SessionState → String
  | .unloaded => "Unloaded"
  | .loaded => "Loaded"
  | .prefilling => "Prefilling"
  | .decoding => "Decoding"
  | .stopped => "Stopped"

inductive Event where
  | load (serial : Nat) (loaded : Bool)
  | call (serial : Nat) (call : Call)
  | release (serial : Nat)
  /-- Nothing holds the model any more, and it was not released. -/
  | lose (serial : Nat)

namespace Model

variable {β : Type}

def release (m : Model β) : Model β × List Event :=
  if m.released then (m, []) else ({ m with released := true }, [.release m.serial])

/-- What happens when nothing holds the model any more: it is released, if it was not. -/
def drop (m : Model β) : List Event :=
  m.release.2

theorem exists_release_of_mem {m : Model β} {event : Event} (h : event ∈ m.release.2) :
    ∃ serial, event = .release serial := by
  rw [release] at h
  split at h
  · cases h
  · exact ⟨m.serial, List.mem_singleton.mp h⟩

end Model

structure Session (β : Type) where
  registry : Registry (Loader β)
  /-- The words that an unseeded chain draws, for each loader that ran. -/
  entropy : Nat → Nat → UInt32
  loads : Nat := 0
  chat : Option (Chat β) := none

structure Session.Response (β α : Type) where
  session : Session β
  events : List Event
  result : Except Session.Error α

namespace Session

variable {β : Type} [Backend β]

def new (registry : Registry (Loader β)) (entropy : Nat → Nat → UInt32) : Session β :=
  { registry, entropy }

def close (s : Session β) : Session β × List Event :=
  ({ s with chat := none }, s.chat.toList.flatMap fun chat =>
    let (model, events) := chat.model.release
    events ++ model.drop)

def drop (s : Session β) : List Event :=
  s.chat.toList.flatMap fun chat => chat.model.drop

def unload (s : Session β) : Response β Unit :=
  ⟨s.close.1, s.close.2, .ok ()⟩

/-- Runs the loader of a name. A model that does not match its tokenizer is released again; one that
has no chain is lost. -/
def runLoader (s : Session β) (name : String) (directory : ModelDirectory) (config : Config)
    (loader : Loader β) : Response β Unit :=
  let serial := s.loads
  let s := { s with loads := s.loads + 1 }
  match loader serial directory config with
  | .error reason => ⟨s, [.load serial false], .error (.load name .backend reason)⟩
  | .ok loaded =>
    match Model.new name directory.path config loaded (s.entropy serial) serial with
    | .error (.unfit reason) =>
      ⟨s, [.load serial true, .release serial], .error (.load name .validate reason)⟩
    | .error (.chain reason) => ⟨s, [.load serial true, .lose serial], .error (.brokeOff reason)⟩
    | .ok model => ⟨{ s with chat := some { model } }, [.load serial true], .ok ()⟩

def reload (s : Session β) (name : String) (directory : ModelDirectory) : Response β Unit :=
  let (s, released) := s.close
  match s.registry.resolve name with
  | .error reason => ⟨s, released, .error (.load name .resolve reason)⟩
  | .ok loader =>
    match Config.load directory.configFile with
    | .error reason => ⟨s, released, .error (.load name .config reason)⟩
    | .ok config =>
      let response := s.runLoader name directory config loader
      { response with events := released ++ response.events }

def onChat {α : Type} (s : Session β) (call : Chat β → Chat.Outcome β α) : Response β α :=
  match s.chat with
  | none => ⟨s, [], .error .notLoaded⟩
  | some chat =>
    let outcome := call chat
    { session := { s with chat := some outcome.chat }
      events := outcome.calls.map (.call chat.model.serial)
      result := outcome.result }

def prefill (s : Session β) (input : Prompt) : Response β Unit :=
  s.onChat (·.prefill input)

def decode (s : Session β) : Response β Unit :=
  s.onChat Chat.decode

def resetChat (s : Session β) : Response β Unit :=
  s.onChat Chat.reset

def evaluate (s : Session β) : Response β String :=
  s.onChat Chat.evaluate

def conversation (s : Session β) : Conversation :=
  (s.chat.map Chat.conversation).getD {}

def usage (s : Session β) : Usage :=
  (s.chat.map Chat.usage).getD {}

def state (s : Session β) : SessionState :=
  match s.chat with
  | none => .unloaded
  | some chat =>
    match chat.conversation.progress with
    | .idle => .loaded
    | .prefilling .. => .prefilling
    | .decoding _ => .decoding
    | .stopped .. => .stopped

def isStopped (s : Session β) : Bool :=
  s.conversation.stopReason.isSome

def modelName (s : Session β) : Option String :=
  s.chat.map (·.model.name)

def modelPath (s : Session β) : Option String :=
  s.chat.map (·.model.path)

def config (s : Session β) : Option Config :=
  s.chat.map (·.model.config)

def describe (s : Session β) : String :=
  let model :=
    match s.modelName with
    | some name => "Some(" ++ Text.quoted name ++ ")"
    | none => "None"
  "ChatSession \x7b model: " ++ model ++ ", state: " ++ s.state.title ++ ", position: " ++
    Nat.repr s.conversation.position ++ " \x7d"

omit [Backend β] in
theorem exists_release_of_mem_close {s : Session β} {event : Event} (h : event ∈ s.close.2) :
    ∃ serial, event = .release serial := by
  obtain ⟨chat, -, h⟩ := List.mem_flatMap.mp h
  rcases List.mem_append.mp h with h | h <;> exact Model.exists_release_of_mem h

omit [Backend β] in
@[simp] theorem call_not_mem_close (s : Session β) (serial : Nat) (call : Call) :
    .call serial call ∉ s.close.2 := by
  intro h
  obtain ⟨k, hcall⟩ := exists_release_of_mem_close h
  cases hcall

end Session

end Dialogue
