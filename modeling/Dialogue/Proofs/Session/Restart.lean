import Dialogue.Proofs.Session.Origin
import Dialogue.Proofs.Session.Similar

namespace Dialogue

open Backend (replay)

variable {β : Type} [Backend β]

/-- Whether an answer says that the model had a fault. -/
def Session.faults {α : Type} : Except Session.Error α → Bool
  | .error (.inference ..) => true
  | _ => false

@[simp] theorem Session.faults_map {α γ : Type} (f : α → γ) (result : Except Session.Error α) :
    faults (result.map f) = faults result := by
  rcases result with reason | value
  · cases reason <;> rfl
  · rfl

/-- Whether a call starts over: it loads a model or begins a new conversation, or the model has a
fault. -/
def Session.Entry.restarts (entry : Session.Entry β) : Bool :=
  match entry.request with
  | .reload .. | .resetChat => entry.response.result.isOk
  | .prefill _ | .decode => Session.faults entry.response.result
  | .unload | .evaluate => false

/-- A backend that is as good as it was once its cache is reset, whatever it was called for. -/
def Backend.Restores (b : β) : Prop :=
  ∀ calls, Backend.Similar (Backend.resetCache (replay b calls).1) b

namespace Chat

/-- A chat begins like that of a model just loaded, down to the state of the chain; only what a
chain without a seed draws next is its own. -/
structure StartsLike (chat fresh : Chat β) : Prop where
  name : chat.model.name = fresh.model.name
  path : chat.model.path = fresh.model.path
  config : chat.model.config = fresh.model.config
  conversation : chat.conversation = fresh.conversation
  usage : chat.usage = fresh.usage
  stages : chat.model.chain.stages = fresh.model.chain.stages
  selector : chat.model.chain.selector = fresh.model.chain.selector
  seeded : fresh.model.config.sampling.seed.isSome = true →
    chat.model.chain = fresh.model.chain

/-- A call by which a chat starts over with the same model, whose cache is reset last. -/
structure Restarted (chat : Chat β) (outcome : Outcome β Unit) : Prop where
  forgets : ∃ calls, outcome.calls = calls ++ [.resetCache] ∧ .resetCache ∉ calls
  empty : outcome.chat = { model := outcome.chat.model }
  alike : chat.model.Alike outcome.chat.model
  backend : (replay chat.model.backend outcome.calls).1 = outcome.chat.model.backend
  chain : ∀ p, chat.model.chain.Stems p → outcome.chat.model.chain.Anew p

variable {chat chat' : Chat β} {outcome : Outcome β Unit}

theorem Prefilled.restarted {input : Prompt} (h : chat.Prefilled input outcome)
    (hfault : Session.faults outcome.result = true) : chat.Restarted outcome := by
  have halike := h.alike
  have hbackend := h.replay_eq
  cases h with
  | refused refusal => cases hfault
  | fed planned feed => cases hfault
  | failed planned feed =>
      refine ⟨⟨_, rfl, (Model.feed_spec feed).2.resetCache_not_mem⟩, rfl, halike, hbackend, ?_⟩
      intro p hstems
      exact (Model.feed_chain feed ▸ hstems).anew_reset

theorem Extended.restarted {calls : List Call} {draft : Draft}
    (h : chat.Extended calls draft outcome) (hcalls : .resetCache ∉ calls)
    (hfault : Session.faults outcome.result = true) :
    (∃ calls, outcome.calls = calls ++ [.resetCache] ∧ .resetCache ∉ calls) ∧
      outcome.chat = { model := outcome.chat.model } ∧
      ∀ p, chat.model.chain.Stems p → outcome.chat.model.chain.Anew p := by
  cases h with
  | unsampled sample =>
      exact ⟨⟨calls, rfl, hcalls⟩, rfl, fun p hstems =>
        (Model.stems_of_sample hstems sample).anew_reset⟩
  | ended sample absorb => cases hfault
  | fed sample absorb forward => cases hfault
  | failed sample absorb forward =>
      have hcall := (Model.forward_feeding forward).resetCache_not_mem
      refine ⟨⟨_, rfl, ?_⟩, rfl, fun p hstems => ?_⟩
      · simp only [List.mem_append, List.mem_singleton] at hcall ⊢
        simp [hcalls, hcall]
      · exact (Model.forward_chain forward ▸ Model.stems_of_sample hstems sample).anew_reset

theorem Decoded.restarted (h : chat.Decoded outcome)
    (hfault : Session.faults outcome.result = true) : chat.Restarted outcome := by
  have halike := h.alike
  have hbackend := h.replay_eq
  cases h with
  | refused refusal =>
      rcases refusal with rfl | rfl <;> cases hfault
  | failed turn nonempty forward =>
      refine ⟨⟨_, rfl, (Model.forward_feeding forward).resetCache_not_mem⟩, rfl, halike, hbackend,
        ?_⟩
      intro p hstems
      exact (Model.forward_chain forward ▸ hstems).anew_reset
  | sampled handed extended =>
      obtain ⟨hcalls, hchat, hchain⟩ :=
        extended.restarted handed.feeding.resetCache_not_mem hfault
      exact ⟨hcalls, hchat, halike, hbackend, fun p hstems =>
        hchain p (handed.chain_eq ▸ hstems)⟩

theorem restarted_reset (chat : Chat β) : chat.Restarted chat.reset :=
  ⟨⟨[], rfl, List.not_mem_nil⟩, rfl, .reset _, rfl, fun _ hstems => hstems.anew_reset⟩

end Chat

namespace Session

variable {s : Session β} {request : Request}

theorem restarted_of_restarts (h : Entry.restarts ⟨s, request, s.perform request⟩ = true)
    (hreload : ∀ name directory, request ≠ .reload name directory) :
    ∃ chat outcome, s.chat = some chat ∧ chat.Restarted outcome ∧
      (s.perform request).session.chat = some outcome.chat ∧
      (s.perform request).events = outcome.calls.map (.call chat.model.serial) := by
  cases hchat : s.chat with
  | none =>
      cases request with
      | reload name directory => exact absurd rfl (hreload name directory)
      | unload | evaluate => cases h
      | resetChat | prefill | decode =>
          simp [Entry.restarts, perform_of_unloaded hchat, faults, Except.isOk, Except.toBool] at h
  | some chat =>
      cases request with
      | reload name directory => exact absurd rfl (hreload name directory)
      | unload | evaluate => cases h
      | resetChat =>
          rw [perform_resetChat hchat]
          exact ⟨chat, chat.reset, rfl, chat.restarted_reset, rfl, rfl⟩
      | prefill input =>
          rw [perform_prefill hchat, Entry.restarts, faults_map] at h
          rw [perform_prefill hchat]
          have hrestarted := (chat.prefilled_prefill input).restarted h
          exact ⟨chat, chat.prefill input, rfl, hrestarted, rfl, rfl⟩
      | decode =>
          rw [perform_decode hchat, Entry.restarts, faults_map] at h
          rw [perform_decode hchat]
          exact ⟨chat, chat.decode, rfl, chat.decoded_decode.restarted h, rfl, rfl⟩

end Session

namespace Model

/-- A model that was just loaded, or forgot everything with its last call. -/
structure Restored (registry : Registry (Loader β)) (name : String) (directory : ModelDirectory)
    (m : Model β) : Prop where
  origin : ∃ calls, m.Origin registry name directory calls ∧
    (calls = [] ∨ ∃ earlier, calls = earlier ++ [.resetCache])
  chain : m.chain.Anew m.config.sampling

variable {registry : Registry (Loader β)} {name : String} {directory : ModelDirectory}
  {m : Model β}

theorem restored_of_loads {s : Session β} (hregistry : s.registry = registry)
    (h : s.Loads name directory m) : m.Restored registry name directory := by
  refine ⟨⟨[], origin_of_loads hregistry h, .inl rfl⟩, ?_⟩
  obtain ⟨found, configured, ran, fits⟩ := h
  obtain ⟨-, rfl⟩ := new_eq_ok fits
  exact SamplingParams.anew_chain _ _

theorem restored_of_restarted {chat : Chat β} {outcome : Chat.Outcome β Unit} {calls : List Call}
    (horigin : chat.model.Origin registry name directory calls) (h : chat.Restarted outcome) :
    outcome.chat.model.Restored registry name directory := by
  have hanew := h.chain _ horigin.stems
  obtain ⟨more, hmore, -⟩ := h.forgets
  refine ⟨⟨_, horigin.of_alike h.alike h.backend fun _ => hanew.stems, .inr ⟨calls ++ more, ?_⟩⟩,
    h.alike.config ▸ hanew⟩
  rw [hmore, List.append_assoc]

theorem Restored.startsLike {s : Session β} {fresh : Model β}
    (h : m.Restored registry name directory) (hregistry : s.registry = registry)
    (hfresh : s.Loads name directory fresh) :
    Chat.StartsLike { model := m } { model := fresh } := by
  obtain ⟨⟨calls, ⟨found, configured, ran, fits, named, -⟩, -⟩, hchain⟩ := h
  obtain ⟨⟨calls', ⟨found', configured', ran', fits', named', -⟩, -⟩, hchain'⟩ :=
    restored_of_loads hregistry hfresh
  have hconfig : m.config = fresh.config := by
    rw [configured] at configured'
    exact Except.ok.inj configured'
  rw [hconfig] at hchain
  refine ⟨named.1.trans named'.1.symm, named.2.trans named'.2.symm, hconfig, rfl, rfl, ?_, ?_, ?_⟩
  · exact hchain.stages.trans hchain'.stages.symm
  · exact hchain.selector.trans hchain'.selector.symm
  · exact hchain.eq hchain'

theorem Restored.exists_similar {s : Session β} (h : m.Restored registry name directory)
    (hregistry : s.registry = registry)
    (hrepeats : ∀ {loader : Loader β}, registry.resolve name = .ok loader → Loader.Repeats loader)
    (hrestores : ∀ {loader : Loader β} {serial : Nat} {config : Config} {loaded : Loaded β},
      registry.resolve name = .ok loader → loader serial directory config = .ok loaded →
      Backend.Restores loaded.backend)
    (hsettled : m.config.sampling.Settled) :
    ∃ fresh, s.Loads name directory fresh ∧ m.Similar fresh := by
  subst hregistry
  obtain ⟨⟨calls, horigin, hcalls⟩, hchain⟩ := h
  obtain ⟨found, configured, ran, fits, named, tokenizer, backend, -⟩ := horigin
  -- the loader ran under another serial number, and what it gave need only answer alike
  obtain ⟨again, hagain, htokenizer, hsimilar⟩ := (hrepeats found).ok ran s.loads
  have hnew := new_of_fits (fits.of_similar htokenizer hsimilar) name directory.path
    (s.entropy s.loads) s.loads
  refine ⟨_, .intro found configured hagain hnew, ?_⟩
  refine ⟨named.1.symm, named.2.symm, rfl, htokenizer.trans tokenizer.symm, ?_, ?_⟩
  · rw [backend]
    rcases hcalls with rfl | ⟨earlier, rfl⟩
    · exact hsimilar
    · rw [Backend.replay_append_fst]
      exact (hrestores found ran earlier).trans hsimilar
  · exact hchain.agrees (SamplingParams.anew_chain _ _) hsettled

end Model

namespace Session

theorem exists_loads_of_isOk {s : Session β} {name : String} {directory : ModelDirectory}
    (h : (s.perform (.reload name directory)).result.isOk = true) :
    ∃ model, s.Loads name directory model ∧
      (s.perform (.reload name directory)).session.chat = some { model } := by
  rw [perform] at h ⊢
  have hreloaded := s.reloaded_reload name directory
  -- a reload that succeeds has a chat afterwards, and only one by which a model was loaded does
  cases hchat : (s.reload name directory).session.chat with
  | some chat =>
      obtain ⟨model, hloads, rfl⟩ := exists_loads hchat
      exact ⟨model, hloads, hchat⟩
  | none =>
      generalize s.reload name directory = response at hreloaded h hchat
      cases hreloaded with
      | failed | brokeOff => cases h
      | loaded given => cases hchat

theorem run_registry (s : Session β) (requests : List Request) :
    (s.run requests).1.registry = s.registry := by
  induction requests generalizing s with
  | nil => rfl
  | cons request rest ih => exact (ih _).trans (s.perform_registry request)

theorem exists_restored {registry : Registry (Loader β)} {entropy : Nat → Nat → UInt32}
    {requests : List Request} {request : Request}
    (h : Entry.restarts ⟨((new registry entropy).run requests).1, request,
      ((new registry entropy).run requests).1.perform request⟩ = true) :
    let before := ((new registry entropy).run requests).1
    let response := before.perform request
    ∃ model name directory, response.session.chat = some { model } ∧
      Request.latest? (requests ++ [request]) = some (name, directory) ∧
      model.Restored registry name directory ∧
      ((∀ name directory, request ≠ .reload name directory) →
        ∃ old calls, before.chat = some old ∧ old.model.Alike model ∧
          response.events = (calls ++ [.resetCache]).map (.call old.model.serial) ∧
          .resetCache ∉ calls ∧
          model.backend = (replay old.model.backend (calls ++ [.resetCache])).1) := by
  intro before response
  have hregistry : before.registry = registry := run_registry _ requests
  rw [Request.latest?_concat]
  by_cases hreload : ∃ name directory, request = .reload name directory
  · obtain ⟨name, directory, rfl⟩ := hreload
    obtain ⟨model, hloads, hchat⟩ := exists_loads_of_isOk h
    exact ⟨model, name, directory, hchat, rfl, Model.restored_of_loads hregistry hloads,
      fun hother => absurd rfl (hother name directory)⟩
  · rw [not_exists] at hreload
    have hother : ∀ name directory, request ≠ .reload name directory := fun name directory heq =>
      hreload name ⟨directory, heq⟩
    obtain ⟨old, outcome, hold, hrestarted, hchat, hevents⟩ := restarted_of_restarts h hother
    obtain ⟨name, directory, calls, hlatest, horigin⟩ := origin_of_run hold
    obtain ⟨more, hmore, hreset⟩ := hrestarted.forgets
    have hbackend := hrestarted.backend
    rw [hmore] at hevents hbackend
    rw [hrestarted.empty] at hchat
    refine ⟨outcome.chat.model, name, directory, hchat, ?_,
      Model.restored_of_restarted horigin hrestarted,
      fun _ => ⟨old, more, hold, hrestarted.alike, hevents, hreset, hbackend.symm⟩⟩
    cases request with
    | reload name directory => exact absurd rfl (hother name directory)
    | _ => exact hlatest

end Session

/-- A reload, a new conversation and a fault of the model all start over. The session is then as if
its model had just been loaded; except by a reload the model stays, with its cache reset once. If
the cache is then as good as new and nothing draws without a seed, later calls are answered as by a
session that just loaded the model, whatever happened before. -/
theorem restarts_agree {registry : Registry (Loader β)} {entropy : Nat → Nat → UInt32}
    {requests : List Request} {request : Request}
    (hrestarts : Session.Entry.restarts ⟨((Session.new registry entropy).run requests).1, request,
      ((Session.new registry entropy).run requests).1.perform request⟩ = true) :
    let before := ((Session.new registry entropy).run requests).1
    let response := before.perform request
    ∃ chat name directory,
      response.session.chat = some chat ∧
      Request.latest? (requests ++ [request]) = some (name, directory) ∧
      response.session.state = .loaded ∧ chat.conversation = {} ∧ chat.usage = {} ∧
      (∀ entropy' fresh,
        ((Session.new registry entropy').reload name directory).session.chat = some fresh →
        chat.StartsLike fresh) ∧
      ((∀ name directory, request ≠ .reload name directory) →
        ∃ old calls, before.chat = some old ∧ old.model.Alike chat.model ∧
          response.events = (calls ++ [.resetCache]).map (.call old.model.serial) ∧
          .resetCache ∉ calls ∧
          chat.model.backend = (replay old.model.backend (calls ++ [.resetCache])).1) ∧
      ∀ entropy' later,
        Session.Settled registry (.reload name directory :: later) →
        (∀ loader serial config loaded, registry.resolve name = .ok loader →
          loader serial directory config = .ok loaded → Backend.Restores loaded.backend) →
        let fresh := (Session.new registry entropy').reload name directory
        fresh.result = .ok () ∧
          (response.session.log later).map Session.Entry.seen =
            (fresh.session.log later).map Session.Entry.seen := by
  intro before response
  obtain ⟨model, name, directory, hchat, hlatest, hrestored, hstays⟩ :=
    Session.exists_restored hrestarts
  refine ⟨{ model }, name, directory, hchat, hlatest, ?_, rfl, rfl, ?_, hstays, ?_⟩
  · change Session.state (before.perform request).session = .loaded
    rw [Session.state, hchat]
  · intro entropy' fresh hfresh
    obtain ⟨loaded, hloads, rfl⟩ := Session.exists_loads hfresh
    exact hrestored.startsLike rfl hloads
  · intro entropy' later hsettled hrestores fresh
    have hfirst : model.config.sampling.Settled := by
      obtain ⟨⟨calls, ⟨found, configured, -⟩, -⟩, -⟩ := hrestored
      exact hsettled.sampling List.mem_cons_self configured
    have hloadable := hrestored.exists_similar (s := Session.new registry entropy') rfl
      (hsettled.loaders List.mem_cons_self) (hrestores _ _ _ _) hfirst
    obtain ⟨loaded, hloads, hsimilar⟩ := hloadable
    have hreload : fresh = _ := hloads.reload_eq
    have hregistry : response.session.registry = registry :=
      (before.perform_registry request).trans (Session.run_registry _ requests)
    have hsessions : response.session.Similar fresh.session := by
      rw [hreload]
      refine ⟨hregistry.symm, ?_⟩
      rw [hchat]
      exact .some ⟨hsimilar, rfl, rfl⟩
    have hlater := hsettled.mono (List.subset_cons_self _ later)
    rw [← hregistry] at hlater
    exact ⟨by rw [hreload], (hsessions.map_seen_log hlater).symm⟩

theorem Registry.eq_of_resolve {α : Type} {key name : String} {entry found : α}
    (h : (register {} key entry).2.resolve name = .ok found) : found = entry := by
  simp only [resolve, register, Std.TreeMap.getElem?_insert] at h
  split at h
  · rename_i entry' hentry
    split at hentry
    · cases h
      cases hentry
      rfl
    · simp at hentry
  · cases h

namespace Steady

theorem resolve_registry {tokenizer : Tokenizer} {name : String} {loader : Loader Steady}
    (h : (registry tokenizer).resolve name = .ok loader) :
    loader = fun _ _ _ => .ok ⟨{ logits := [0] }, tokenizer⟩ :=
  Registry.eq_of_resolve h

theorem replay_fst (b : Steady) (calls : List Call) : (replay b calls).1 = b := by
  induction calls using List.reverseRecOn with
  | nil => rfl
  | append_singleton calls call ih =>
      rw [Backend.replay_append_fst, ih]
      cases call <;> rfl

theorem restores (b : Steady) : Backend.Restores b := by
  intro calls
  rw [replay_fst]
  exact .refl b

theorem settled {tokenizer : Tokenizer} {requests : List Request}
    (h : ∀ {name : String} {directory : ModelDirectory} {config : Config},
      .reload name directory ∈ requests → Config.load directory.configFile = .ok config →
      config.sampling.Settled) : Session.Settled (registry tokenizer) requests := by
  refine ⟨fun hmem hresolve => ?_, h⟩
  cases resolve_registry hresolve
  exact ⟨nofun, fun hloaded serial => ⟨_, hloaded, rfl, .refl _⟩⟩

end Steady

/-- A new conversation in the middle of a greedy reply. -/
theorem restarts_agree_steady :
    let tokenizer : Tokenizer :=
      { encode := fun _ => [0], tokenBytes := fun _ => [0x61], vocabSize := 1, bos := none
        eos := [] }
    let configFile := File.ofText "\x7b\"temperature\":0\x7d"
    let before := ((Session.new (Steady.registry tokenizer) fun _ _ => 0).run
      (Steady.requests configFile (.text "Hi"))).1
    let response := before.perform .resetChat
    let fresh := (Session.new (Steady.registry tokenizer) fun _ _ => 1).reload "steady"
      { path := "", configFile }
    let later := [.prefill (.text "Hi"), .decode]
    before.state = .decoding ∧
      Session.Entry.restarts ⟨before, .resetChat, response⟩ = true ∧
      (response.session.log later).map Session.Entry.seen =
        (fresh.session.log later).map Session.Entry.seen := by
  intro tokenizer configFile before response fresh later
  have hstate : before.state = .decoding := by decide +kernel
  have hrestarts : Session.Entry.restarts ⟨before, .resetChat, response⟩ = true := by
    decide +kernel
  have hgreedy : ((Config.load configFile).toOption.all fun config =>
      config.sampling.isGreedy) = true := by decide +kernel
  have hsettled : Session.Settled (Steady.registry tokenizer)
      (Steady.load configFile :: later) := by
    apply Steady.settled
    intro name directory config hmem hconfig
    rcases List.mem_cons.mp hmem with heq | hmem
    · cases heq
      rw [hconfig] at hgreedy
      exact .inr hgreedy
    · simp [later] at hmem
  obtain ⟨chat, name, directory, -, hlatest, -, -, -, -, -, hlater⟩ := restarts_agree hrestarts
  cases hlatest
  refine ⟨hstate, hrestarts, (hlater _ later hsettled ?_).2⟩
  intro loader serial config loaded hresolve hloaded
  exact Steady.restores loaded.backend

end Dialogue
