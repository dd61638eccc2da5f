import Dialogue.Proofs.Chat.Similar
import Dialogue.Proofs.Session.Run

namespace Dialogue

variable {β : Type} [Backend β]

/-- A loader that gives the same every time, as far as calls can tell. -/
structure Loader.Repeats (loader : Loader β) : Prop where
  error : ∀ {serial : Nat} {directory : ModelDirectory} {config : Config} {reason : Backend.Error},
    loader serial directory config = .error reason →
    ∀ serial', loader serial' directory config = .error reason
  ok : ∀ {serial : Nat} {directory : ModelDirectory} {config : Config} {loaded : Loaded β},
    loader serial directory config = .ok loaded →
    ∀ serial', ∃ loaded', loader serial' directory config = .ok loaded' ∧
      loaded'.tokenizer = loaded.tokenizer ∧ Backend.Similar loaded.backend loaded'.backend

namespace Model

variable {name path : String} {config : Config} {loaded loaded' : Loaded β}
  {entropy : Nat → UInt32} {serial : Nat}

theorem new_eq_error {failure : Failure}
    (h : Model.new name path config loaded entropy serial = .error failure)
    (htokenizer : loaded'.tokenizer = loaded.tokenizer)
    (hbackend : Backend.Similar loaded.backend loaded'.backend) (entropy' : Nat → UInt32)
    (serial' : Nat) : Model.new name path config loaded' entropy' serial' = .error failure := by
  simp only [Model.new, SamplingParams.build_eq, htokenizer, hbackend.vocabSize] at h ⊢
  split at h
  · rename_i hmisfits
    rw [if_pos hmisfits]
    exact h
  · rename_i hsizes
    rw [if_neg hsizes]
    by_cases hroom : 1 < config.sampling.repetitionPenalty ∧
      Stage.windowLimit ≤ config.sampling.penaltyWindow
    · rw [if_pos hroom] at h ⊢
      exact h
    · rw [if_neg hroom] at h
      cases h

theorem Fits.of_similar (h : Fits config loaded) (htokenizer : loaded'.tokenizer = loaded.tokenizer)
    (hbackend : Backend.Similar loaded.backend loaded'.backend) : Fits config loaded' := by
  constructor
  · rw [htokenizer, hbackend.vocabSize]
    exact h.sizes
  · exact h.room

theorem new_eq_similar {m : Model β}
    (h : Model.new name path config loaded entropy serial = .ok m)
    (htokenizer : loaded'.tokenizer = loaded.tokenizer)
    (hbackend : Backend.Similar loaded.backend loaded'.backend)
    (hsettled : config.sampling.Settled) (entropy' : Nat → UInt32) (serial' : Nat) :
    ∃ m', Model.new name path config loaded' entropy' serial' = .ok m' ∧ m.Similar m' := by
  obtain ⟨hfits, rfl⟩ := new_eq_ok h
  have hnew := new_of_fits (hfits.of_similar htokenizer hbackend) name path entropy' serial'
  refine ⟨_, hnew, rfl, rfl, rfl, htokenizer, hbackend, ?_⟩
  exact (SamplingParams.anew_chain config.sampling entropy).agrees
    (SamplingParams.anew_chain config.sampling entropy') hsettled

end Model

namespace Session

/-- What can be read of a session. -/
structure View where
  state : SessionState
  conversation : Conversation
  usage : Usage
  name : Option String
  path : Option String
  config : Option Config

def view (s : Session β) : View where
  state := s.state
  conversation := s.conversation
  usage := s.usage
  name := s.modelName
  path := s.modelPath
  config := s.config

/-- What can be seen of a call: its answer, what was asked of a model, and what can be read of the
session afterwards. -/
def Entry.seen (entry : Entry β) : Except Session.Error (Option String) × List Call × View :=
  (entry.response.result, entry.response.events.filterMap Event.call?,
    entry.response.session.view)

/-- Sessions that cannot be told apart by what they answer. -/
structure Similar (s s' : Session β) : Prop where
  registry : s'.registry = s.registry
  chat : Option.Rel Chat.Similar s.chat s'.chat

structure Response.Similar {α : Type} (r r' : Response β α) : Prop where
  session : r.session.Similar r'.session
  calls : r'.events.filterMap Event.call? = r.events.filterMap Event.call?
  result : r'.result = r.result

theorem Response.Similar.discard {r r' : Response β Unit} (h : r.Similar r') :
    r.discard.Similar r'.discard :=
  ⟨h.session, h.calls, congrArg (Except.map fun _ => none) h.result⟩

omit [Backend β] in
theorem filterMap_call_close (s : Session β) : s.close.2.filterMap Event.call? = [] := by
  rw [List.filterMap_eq_nil_iff]
  intro event hevent
  obtain ⟨serial, rfl⟩ := exists_release_of_mem_close hevent
  rfl

/-- The loaders that are asked for repeat themselves, and no configuration asks for a chain that
draws without a seed. -/
structure Settled (registry : Registry (Loader β)) (requests : List Request) : Prop where
  loaders : ∀ {name : String} {directory : ModelDirectory} {loader : Loader β},
    .reload name directory ∈ requests → registry.resolve name = .ok loader → Loader.Repeats loader
  sampling : ∀ {name : String} {directory : ModelDirectory} {config : Config},
    .reload name directory ∈ requests → Config.load directory.configFile = .ok config →
    config.sampling.Settled

theorem Settled.mono {registry : Registry (Loader β)} {requests fewer : List Request}
    (h : Settled registry requests) (hsubset : fewer ⊆ requests) : Settled registry fewer :=
  ⟨fun hmem => h.loaders (hsubset hmem), fun hmem => h.sampling (hsubset hmem)⟩

namespace Similar

variable {s s' : Session β}

theorem view_eq (h : s.Similar s') : s'.view = s.view := by
  have hchat := h.chat
  simp only [view, state, conversation, usage, modelName, modelPath, config]
  generalize s.chat = chat at hchat
  generalize s'.chat = chat' at hchat
  cases hchat with
  | none => rfl
  | some hchat =>
      simp only [Option.map_some, hchat.conversation, hchat.usage, hchat.model.name,
        hchat.model.path, hchat.model.config]

theorem onChat (h : s.Similar s') {α : Type} {call : Chat β → Chat.Outcome β α}
    (hcall : ∀ {chat chat' : Chat β}, chat.Similar chat' → (call chat).Similar (call chat')) :
    (s.onChat call).Similar (s'.onChat call) := by
  have hchat := h.chat
  rw [Session.onChat, Session.onChat]
  rcases hs : s.chat with _ | chat <;> rcases hs' : s'.chat with _ | chat' <;>
    rw [hs, hs'] at hchat <;> cases hchat
  · exact ⟨h, rfl, rfl⟩
  · rename_i hchat
    obtain ⟨hnext, hcalls, hresult⟩ := hcall hchat
    refine ⟨⟨h.registry, .some hnext⟩, ?_, hresult⟩
    dsimp only
    rw [filterMap_call_call, filterMap_call_call, hcalls]

theorem close (h : s.Similar s') : s.close.1.Similar s'.close.1 :=
  ⟨h.registry, .none⟩

theorem runLoader (h : s.Similar s') {name : String} {directory : ModelDirectory}
    {config : Config} {loader : Loader β} (hrepeats : Loader.Repeats loader)
    (hsettled : config.sampling.Settled) :
    (s.runLoader name directory config loader).Similar
      (s'.runLoader name directory config loader) := by
  rw [Session.runLoader, Session.runLoader]
  cases hloaded : loader s.loads directory config with
  | error reason =>
      simp only [hrepeats.error hloaded s'.loads]
      exact ⟨⟨h.registry, h.chat⟩, rfl, rfl⟩
  | ok loaded =>
      obtain ⟨loaded', hloaded', htokenizer, hbackend⟩ := hrepeats.ok hloaded s'.loads
      cases hmodel : Model.new name directory.path config loaded (s.entropy s.loads) s.loads with
      | error failure =>
          simp only [hloaded', hmodel, Model.new_eq_error hmodel htokenizer hbackend]
          cases failure <;> exact ⟨⟨h.registry, h.chat⟩, rfl, rfl⟩
      | ok model =>
          obtain ⟨model', hmodel', hsimilar⟩ := Model.new_eq_similar hmodel htokenizer hbackend
            hsettled (s'.entropy s'.loads) s'.loads
          simp only [hloaded', hmodel, hmodel']
          exact ⟨⟨h.registry, .some ⟨hsimilar, rfl, rfl⟩⟩, rfl, rfl⟩

theorem reload (h : s.Similar s') {name : String} {directory : ModelDirectory}
    (hloaders : ∀ {loader : Loader β}, s.registry.resolve name = .ok loader →
      Loader.Repeats loader)
    (hsampling : ∀ {config : Config}, Config.load directory.configFile = .ok config →
      config.sampling.Settled) :
    (s.reload name directory).Similar (s'.reload name directory) := by
  have hclosed : s'.close.2.filterMap Event.call? = s.close.2.filterMap Event.call? := by
    rw [filterMap_call_close, filterMap_call_close]
  rw [Session.reload, Session.reload]
  dsimp only
  rw [h.close.registry]
  cases hresolve : s.close.1.registry.resolve name with
  | error reason => exact ⟨h.close, hclosed, rfl⟩
  | ok loader =>
      cases hconfig : Config.load directory.configFile with
      | error reason => exact ⟨h.close, hclosed, rfl⟩
      | ok config =>
          have hran : (s.close.1.runLoader name directory config loader).Similar
              (s'.close.1.runLoader name directory config loader) :=
            h.close.runLoader (hloaders hresolve) (hsampling hconfig)
          obtain ⟨hsession, hcalls, hresult⟩ := hran
          refine ⟨hsession, ?_, hresult⟩
          dsimp only
          rw [List.filterMap_append, List.filterMap_append, hclosed, hcalls]

theorem perform (h : s.Similar s') {request : Request} (hsettled : Settled s.registry [request]) :
    (s.perform request).Similar (s'.perform request) := by
  cases request with
  | reload name directory =>
      apply Response.Similar.discard
      have hmem := List.mem_singleton.mpr (Eq.refl (Request.reload name directory))
      exact h.reload (hsettled.loaders hmem) (hsettled.sampling hmem)
  | unload =>
      refine ⟨h.close, ?_, rfl⟩
      exact (filterMap_call_close s').trans (filterMap_call_close s).symm
  | resetChat => exact (h.onChat Chat.Similar.reset).discard
  | prefill input => exact (h.onChat fun hchat => hchat.prefill input).discard
  | decode => exact (h.onChat Chat.Similar.decode).discard
  | evaluate =>
      obtain ⟨hsession, hcalls, hresult⟩ := h.onChat Chat.Similar.evaluate
      exact ⟨hsession, hcalls, congrArg (Except.map some) hresult⟩

theorem map_seen_log (h : s.Similar s') {requests : List Request}
    (hsettled : Settled s.registry requests) :
    (s'.log requests).map Entry.seen = (s.log requests).map Entry.seen := by
  induction requests generalizing s s' with
  | nil => rfl
  | cons request rest ih =>
      have hfirst := hsettled.mono (List.cons_subset_cons request rest.nil_subset)
      obtain ⟨hsession, hcalls, hresult⟩ := h.perform hfirst
      have hrest := hsettled.mono (List.subset_cons_self request rest)
      rw [← perform_registry s request] at hrest
      rw [log, log, List.map_cons, List.map_cons, ih hsession hrest, Entry.seen, Entry.seen]
      dsimp only
      rw [hcalls, hresult, hsession.view_eq]

end Similar

end Session

end Dialogue
