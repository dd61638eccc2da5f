import Dialogue.Session.Basic

namespace Dialogue

inductive Request where
  | reload (name : String) (directory : ModelDirectory)
  | unload
  | resetChat
  | prefill (input : Prompt)
  | decode
  | evaluate

namespace Session

variable {β : Type} [Backend β]

def Response.discard (r : Response β Unit) : Response β (Option String) :=
  ⟨r.session, r.events, r.result.map fun _ => none⟩

def perform (s : Session β) : Request → Response β (Option String)
  | .reload name directory => (s.reload name directory).discard
  | .unload => s.unload.discard
  | .resetChat => s.resetChat.discard
  | .prefill input => (s.prefill input).discard
  | .decode => s.decode.discard
  | .evaluate =>
    let r := s.evaluate
    ⟨r.session, r.events, r.result.map some⟩

/-- Makes calls one after another, whether they succeed or not: the session afterwards and all that
happened to its models. -/
def run (s : Session β) : List Request → Session β × List Event
  | [] => (s, [])
  | request :: rest =>
    let r := s.perform request
    let later := run r.session rest
    (later.1, r.events ++ later.2)

@[simp] theorem run_nil (s : Session β) : s.run [] = (s, []) := rfl

theorem run_append (s : Session β) (first second : List Request) :
    s.run (first ++ second) =
      (((s.run first).1.run second).1, (s.run first).2 ++ ((s.run first).1.run second).2) := by
  induction first generalizing s with
  | nil => simp
  | cons request rest ih => simp [run, ih, List.append_assoc]

end Session

end Dialogue
