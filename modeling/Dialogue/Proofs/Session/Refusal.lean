import Dialogue.Proofs.Session.Run

namespace Dialogue

variable {β : Type} [Backend β]

/-- Whether an answer says that the call was refused before it did anything. -/
def Session.refuses {α : Type} : Except Session.Error α → Bool
  | .error reason => reason.isRefusal
  | .ok _ => false

@[simp] theorem Session.refuses_map {α γ : Type} (f : α → γ) (result : Except Session.Error α) :
    refuses (result.map f) = refuses result := by
  cases result <;> rfl

def Session.Response.isRefused {α : Type} (r : Session.Response β α) : Bool :=
  Session.refuses r.result

/-- The calls of a run without those that are refused. -/
def Session.accepted (s : Session β) : List Request → List Request
  | [] => []
  | request :: rest =>
    let response := s.perform request
    if response.isRefused then accepted response.session rest
    else request :: accepted response.session rest

def Session.chain (s : Session β) : Option Chain :=
  s.chat.map (·.model.chain)

namespace Chat

variable {chat : Chat β} {outcome : Outcome β Unit}

theorem Prefilled.eq_of_refused {input : Prompt} (h : chat.Prefilled input outcome)
    (hrefused : Session.refuses outcome.result = true) :
    outcome.chat = chat ∧ outcome.calls = [] := by
  cases h with
  | refused refusal => exact ⟨rfl, rfl⟩
  | failed | fed => cases hrefused

theorem Decoded.eq_of_refused (h : chat.Decoded outcome)
    (hrefused : Session.refuses outcome.result = true) :
    outcome.chat = chat ∧ outcome.calls = [] := by
  cases h with
  | refused refusal => exact ⟨rfl, rfl⟩
  | failed turn nonempty forward => cases hrefused
  | sampled handed extended =>
      -- past the checks an extension succeeds or is a fault of the model
      cases extended <;> cases hrefused

theorem evaluate_not_refused (chat : Chat β) : Session.refuses chat.evaluate.result = false := by
  rw [evaluate]
  rcases Backend.evaluate chat.model.backend with ⟨reason | report, backend⟩ <;> rfl

end Chat

namespace Session

variable {s : Session β} {request : Request}

omit [Backend β] in
theorem eq_of_outcome {α : Type} {chat : Chat β} {outcome : Chat.Outcome β α}
    (hchat : s.chat = some chat) (h : outcome.chat = chat ∧ outcome.calls = []) :
    { s with chat := some outcome.chat } = s ∧
      outcome.calls.map (Event.call chat.model.serial) = [] := by
  rw [h.1, h.2, ← hchat]
  exact ⟨rfl, rfl⟩

theorem Reloaded.not_refused {name : String} {directory : ModelDirectory}
    {response : Response β Unit} (h : s.Reloaded name directory response) :
    response.discard.isRefused = false := by
  cases h <;> rfl

theorem perform_of_refused (h : (s.perform request).isRefused = true) :
    (s.perform request).session = s ∧ (s.perform request).events = [] := by
  cases hchat : s.chat with
  | none =>
      cases request with
      | reload name directory =>
          rw [perform, (s.reloaded_reload name directory).not_refused] at h
          cases h
      | unload => cases h
      | resetChat | prefill | decode | evaluate =>
          simp [perform_of_unloaded hchat]
  | some chat =>
      cases request with
      | reload name directory =>
          rw [perform, (s.reloaded_reload name directory).not_refused] at h
          cases h
      | unload => cases h
      | resetChat =>
          rw [perform_resetChat hchat] at h
          cases h
      | prefill input =>
          rw [perform_prefill hchat, Response.isRefused, refuses_map] at h
          rw [perform_prefill hchat]
          exact eq_of_outcome hchat ((chat.prefilled_prefill input).eq_of_refused h)
      | decode =>
          rw [perform_decode hchat, Response.isRefused, refuses_map] at h
          rw [perform_decode hchat]
          exact eq_of_outcome hchat (chat.decoded_decode.eq_of_refused h)
      | evaluate =>
          rw [perform_evaluate hchat, Response.isRefused, refuses_map,
            chat.evaluate_not_refused] at h
          cases h

theorem log_accepted (s : Session β) (requests : List Request) :
    s.log (s.accepted requests) =
      (s.log requests).filter fun entry => !entry.response.isRefused := by
  induction requests generalizing s with
  | nil => rfl
  | cons request rest ih =>
      rw [accepted, log]
      by_cases h : (s.perform request).isRefused = true
      · rw [if_pos h, List.filter_cons_of_neg (by simpa using h), (perform_of_refused h).1, ih]
      · rw [if_neg h, List.filter_cons_of_pos (by simpa using h), log]
        exact congrArg _ (ih _)

theorem run_accepted (s : Session β) (requests : List Request) :
    s.run (s.accepted requests) = s.run requests := by
  induction requests generalizing s with
  | nil => rfl
  | cons request rest ih =>
      rw [accepted]
      by_cases h : (s.perform request).isRefused = true
      · obtain ⟨hsession, hevents⟩ := perform_of_refused h
        rw [if_pos h, run, hsession, hevents, ih]
        rfl
      · rw [if_neg h, run, run, ih]

theorem evaluate_frame (s : Session β) :
    let response := s.perform .evaluate
    response.session.conversation = s.conversation ∧ response.session.usage = s.usage ∧
      response.session.chain = s.chain ∧
      ∀ event ∈ response.events, ∃ serial, event = .call serial .evaluate := by
  intro response
  cases hchat : s.chat with
  | none =>
      have hresponse : response = _ := perform_of_unloaded hchat nofun nofun
      rw [hresponse]
      exact ⟨rfl, rfl, rfl, nofun⟩
  | some chat =>
      have hresponse : response = _ := perform_evaluate hchat
      rw [hresponse]
      refine ⟨?_, ?_, ?_, ?_⟩
      · rw [conversation_of_chat hchat]
        rfl
      · rw [usage, usage, hchat]
        rfl
      · rw [chain, chain, hchat]
        rfl
      · intro event hevent
        exact ⟨_, List.mem_singleton.mp hevent⟩

end Session

/-- A refused call changes nothing in the session and asks nothing of a model: whatever is called
later is answered as if it had not been made. A diagnosis of the model, whatever it says, leaves the
conversation, the counts and the chain alone. -/
theorem refused_calls_change_nothing (s : Session β) (request : Request) :
    let response := s.perform request
    (response.isRefused = true →
      response.session = s ∧ response.events = [] ∧
        ∀ later, s.log (request :: later) = ⟨s, request, response⟩ :: s.log later) ∧
    (∀ requests, s.run (s.accepted requests) = s.run requests ∧
      s.log (s.accepted requests) =
        (s.log requests).filter fun entry => !entry.response.isRefused) ∧
    (request = .evaluate →
      response.session.conversation = s.conversation ∧ response.session.usage = s.usage ∧
        response.session.chain = s.chain ∧
        ∀ event ∈ response.events, ∃ serial, event = .call serial .evaluate) := by
  intro response
  refine ⟨?_, ?_, ?_⟩
  · intro hrefused
    obtain ⟨hsession, hevents⟩ := Session.perform_of_refused hrefused
    refine ⟨hsession, hevents, fun later => ?_⟩
    rw [Session.log]
    exact congrArg _ (congrArg (Session.log · later) hsession)
  · intro requests
    exact ⟨s.run_accepted requests, s.log_accepted requests⟩
  · rintro rfl
    exact s.evaluate_frame

/-- A prompt without room in the middle of a reply. -/
theorem refused_calls_change_nothing_decoding :
    let tokenizer : Tokenizer :=
      { encode := fun _ => [0], tokenBytes := fun _ => [0x61], vocabSize := 1, bos := none
        eos := [] }
    let configFile := File.ofText "\x7b\"context_window_size\":4\x7d"
    let s := ((Session.new (Steady.registry tokenizer) fun _ _ => 0).run
      [Steady.load configFile, .prefill (.text "Hi"), .decode]).1
    let response := s.perform (.prefill (.text "Hi"))
    s.state = .decoding ∧ s.conversation.position = 3 ∧ response.isRefused = true ∧
      response.session = s ∧ response.events = [] := by
  intro tokenizer configFile s response
  have hstate : s.state = .decoding := by decide +kernel
  have hposition : s.conversation.position = 3 := by decide +kernel
  have hrefused : response.isRefused = true := by decide +kernel
  obtain ⟨hsession, hevents, -⟩ := (refused_calls_change_nothing s _).1 hrefused
  exact ⟨hstate, hposition, hrefused, hsession, hevents⟩

end Dialogue
