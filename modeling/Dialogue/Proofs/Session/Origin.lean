import Dialogue.Proofs.Backend.Loading
import Dialogue.Proofs.Backend.Replay
import Dialogue.Proofs.Sampling.Rewinding
import Dialogue.Proofs.Session.Run

namespace Dialogue

open Backend (replay)

/-- The model that was asked for last. -/
def Request.latest? (requests : List Request) : Option (String × ModelDirectory) :=
  requests.foldl (fun latest request =>
    match request with
    | .reload name directory => some (name, directory)
    | _ => latest) none

variable {β : Type} [Backend β]

theorem Session.map_request_log (s : Session β) (requests : List Request) :
    (s.log requests).map Session.Entry.request = requests := by
  induction requests generalizing s with
  | nil => rfl
  | cons request rest ih => rw [log, List.map_cons, ih]

theorem Request.latest?_concat (requests : List Request) (request : Request) :
    latest? (requests ++ [request]) =
      match request with
      | .reload name directory => some (name, directory)
      | _ => latest? requests :=
  List.foldl_append

namespace Model

variable {p : SamplingParams} {m m' : Model β}

theorem forward_chain {input : Input} {position : Nat} {call : Call}
    {result : Except Backend.Error Logits}
    (h : m.forward input position = (m', call, result)) : m'.chain = m.chain := by
  rw [forward] at h
  rcases hforward : Backend.forward m.backend input position with ⟨reason | logits, backend⟩
  all_goals
    simp only [hforward, Prod.mk.injEq] at h
    obtain ⟨rfl, -⟩ := h
    rfl

theorem feed_chain {position : Nat} {inputs : List (Input × Nat)} {calls : List Call}
    {result : Except Backend.Error (Option Logits)}
    (h : m.feed position inputs = ⟨m', calls, result⟩) : m'.chain = m.chain := by
  have hfed := fedBy_of_feed h
  clear h
  induction hfed with
  | nil => rfl
  | failed forward => exact forward_chain forward
  | fed forward later ih => exact ih.trans (forward_chain forward)

omit [Backend β] in
theorem stems_of_sample {logits : Logits} {token : Option TokenId} (h : m.chain.Stems p)
    (hsample : m.sample logits = (token, m')) : m'.chain.Stems p := by
  have hstems := h.sample logits
  rw [sample] at hsample
  rcases hchain : m.chain.sample logits with ⟨token | token, chain⟩
  all_goals
    rw [hchain] at hstems
    simp only [hchain, Prod.mk.injEq] at hsample
    obtain ⟨-, rfl⟩ := hsample
  · exact hstems
  · exact hstems.accept token

end Model

namespace Chat

variable {p : SamplingParams} {chat chat' : Chat β} {calls : List Call} {draft : Draft}
  {outcome : Outcome β Unit}

theorem Prefilled.stems {input : Prompt} (h : chat.Prefilled input outcome)
    (hstems : chat.model.chain.Stems p) : outcome.chat.model.chain.Stems p := by
  cases h with
  | refused refusal => exact hstems
  | failed planned feed => exact (Model.feed_chain feed ▸ hstems).reset
  | fed planned feed => exact Model.feed_chain feed ▸ hstems

theorem HandedOver.chain_eq (h : chat.HandedOver chat' calls draft) :
    chat'.model.chain = chat.model.chain := by
  cases h with
  | going => rfl
  | bare => rfl
  | fed turn nonempty forward => exact Model.forward_chain forward

theorem Extended.stems (h : chat.Extended calls draft outcome)
    (hstems : chat.model.chain.Stems p) : outcome.chat.model.chain.Stems p := by
  cases h with
  | unsampled sample => exact (Model.stems_of_sample hstems sample).reset
  | ended sample absorb => exact Model.stems_of_sample hstems sample
  | failed sample absorb forward =>
      exact (Model.forward_chain forward ▸ Model.stems_of_sample hstems sample).reset
  | fed sample absorb forward =>
      exact Model.forward_chain forward ▸ Model.stems_of_sample hstems sample

theorem Decoded.stems (h : chat.Decoded outcome) (hstems : chat.model.chain.Stems p) :
    outcome.chat.model.chain.Stems p := by
  cases h with
  | refused refusal => exact hstems
  | failed turn nonempty forward => exact (Model.forward_chain forward ▸ hstems).reset
  | sampled handed extended => exact extended.stems (handed.chain_eq ▸ hstems)

end Chat

namespace Model

/-- A model was loaded under a name from a directory, and received calls since. -/
inductive Origin (registry : Registry (Loader β)) (name : String) (directory : ModelDirectory)
    (calls : List Call) (m : Model β) : Prop
  | intro {loader : Loader β} {loaded : Loaded β} (found : registry.resolve name = .ok loader)
      (configured : Config.load directory.configFile = .ok m.config)
      (ran : loader m.serial directory m.config = .ok loaded)
      (fits : Fits m.config loaded)
      (named : m.name = name ∧ m.path = directory.path)
      (tokenizer : m.tokenizer = loaded.tokenizer)
      (backend : m.backend = (replay loaded.backend calls).1)
      (chain : m.chain.Stems m.config.sampling)

variable {registry : Registry (Loader β)} {name : String} {directory : ModelDirectory}
  {calls : List Call} {m m' : Model β}

theorem origin_of_loads {s : Session β} (hregistry : s.registry = registry)
    (h : s.Loads name directory m) : m.Origin registry name directory [] := by
  obtain ⟨found, configured, ran, fits⟩ := h
  obtain ⟨hfits, rfl⟩ := new_eq_ok fits
  exact .intro (hregistry ▸ found) configured ran hfits ⟨rfl, rfl⟩ rfl rfl
    (SamplingParams.anew_chain _ _).stems

theorem Origin.of_alike (h : m.Origin registry name directory calls) (halike : m.Alike m')
    {later : List Call} (hbackend : (replay m.backend later).1 = m'.backend)
    (hchain : m.chain.Stems m.config.sampling → m'.chain.Stems m.config.sampling) :
    m'.Origin registry name directory (calls ++ later) := by
  obtain ⟨found, configured, ran, fits, named, tokenizer, backend, chain⟩ := h
  rw [backend, ← Backend.replay_append_fst] at hbackend
  rw [← halike.config] at configured ran fits hchain chain
  rw [← halike.serial] at ran
  rw [← halike.name, ← halike.path] at named
  exact .intro found configured ran fits named (halike.tokenizer.trans tokenizer) hbackend.symm
    (hchain chain)

theorem Origin.stems (h : m.Origin registry name directory calls) :
    m.chain.Stems m.config.sampling := by
  obtain ⟨found, configured, ran, fits, named, tokenizer, backend, chain⟩ := h
  exact chain

theorem Origin.limits (h : m.Origin registry name directory calls) :
    0 < m.config.maxGenLength ∧ 0 < m.config.contextWindow := by
  obtain ⟨found, configured⟩ := h
  have hvalid := Config.valid_of_load configured
  exact ⟨hvalid.maxGenLength, hvalid.contextWindow⟩

theorem Origin.inWord (h : m.Origin registry name directory calls) : m.config.InWord := by
  obtain ⟨found, configured⟩ := h
  exact Config.inWord_of_load configured

end Model

theorem Chat.logInvariant_origin (registry : Registry (Loader β)) :
    LogInvariant registry fun chat _ log =>
      ∃ name directory calls,
        Request.latest? (log.map Session.Entry.request) = some (name, directory) ∧
          chat.model.Origin registry name directory calls := by
  refine ⟨?_, ?_, ?_, ?_, ?_⟩
  all_goals simp only [List.map_append, List.map_singleton, Request.latest?_concat]
  · intro s past log name directory model hregistry hloads
    exact ⟨name, directory, [], rfl, Model.origin_of_loads hregistry hloads⟩
  · rintro s chat past log hchat ⟨name, directory, calls, hlatest, horigin⟩
    exact ⟨name, directory, calls ++ [.resetCache], hlatest,
      horigin.of_alike (.reset _) rfl fun h => h.reset⟩
  · rintro s chat past log input hchat ⟨name, directory, calls, hlatest, horigin⟩
    have houtcome := chat.prefilled_prefill input
    exact ⟨name, directory, _, hlatest,
      horigin.of_alike houtcome.alike houtcome.replay_eq houtcome.stems⟩
  · rintro s chat past log hchat ⟨name, directory, calls, hlatest, horigin⟩
    have houtcome := chat.decoded_decode
    exact ⟨name, directory, _, hlatest,
      horigin.of_alike houtcome.alike houtcome.replay_eq houtcome.stems⟩
  · rintro s chat past log hchat ⟨name, directory, calls, hlatest, horigin⟩
    have halike : chat.model.Alike chat.evaluate.chat.model := ⟨rfl, rfl, rfl, rfl, rfl, rfl⟩
    exact ⟨name, directory, calls ++ [.evaluate], hlatest, horigin.of_alike halike rfl id⟩

theorem Session.origin_of_run {registry : Registry (Loader β)} {entropy : Nat → Nat → UInt32}
    {requests : List Request} {chat : Chat β}
    (hchat : ((Session.new registry entropy).run requests).1.chat = some chat) :
    ∃ name directory calls, Request.latest? requests = some (name, directory) ∧
      chat.model.Origin registry name directory calls := by
  have horigin := (Chat.logInvariant_origin registry).run hchat
  rwa [Session.map_request_log] at horigin

end Dialogue
