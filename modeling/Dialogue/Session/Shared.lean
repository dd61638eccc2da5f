import Dialogue.Session.Request

namespace Dialogue

/-- A session behind a lock, so that one call runs at a time. -/
structure SharedSession (β : Type) where
  session : Session β
  poisoned : Bool := false

namespace SharedSession

variable {β : Type}

def poison (s : SharedSession β) : SharedSession β :=
  { s with poisoned := true }

def perform [Backend β] (s : SharedSession β) (request : Request) :
    SharedSession β × List Event × Except Session.Error (Option String) :=
  let r := s.session.perform request
  ({ s with session := r.session }, r.events, r.result)

theorem perform_poison [Backend β] (s : SharedSession β) (request : Request) :
    s.poison.perform request =
      ((s.perform request).1.poison, (s.perform request).2) := rfl

end SharedSession

end Dialogue
