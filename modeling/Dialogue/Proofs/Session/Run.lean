import Mathlib.Data.List.Induction
import Dialogue.Proofs.Chat.Outcome
import Dialogue.Proofs.Session.Transcript

namespace Dialogue

variable {β : Type} [Backend β]

namespace Session

theorem run_concat (s : Session β) (requests : List Request) (request : Request) :
    s.run (requests ++ [request]) =
      (((s.run requests).1.perform request).session,
        (s.run requests).2 ++ ((s.run requests).1.perform request).events) := by
  rw [run_append]
  simp [run]

theorem log_concat (s : Session β) (requests : List Request) (request : Request) :
    s.log (requests ++ [request]) =
      s.log requests ++
        [⟨(s.run requests).1, request, (s.run requests).1.perform request⟩] := by
  rw [log_append]
  rfl

theorem run_induction {P : Session β → List Event → List (Entry β) → Prop} {s : Session β}
    (start : P s [] [])
    (step : ∀ current past log request, P current past log →
      P (current.perform request).session (past ++ (current.perform request).events)
        (log ++ [⟨current, request, current.perform request⟩]))
    (requests : List Request) :
    P (s.run requests).1 (s.run requests).2 (s.log requests) := by
  induction requests using List.reverseRecOn with
  | nil => exact start
  | append_singleton requests request ih =>
      rw [run_concat, log_concat]
      exact step _ _ _ request ih

/-- A reload gives a model: the loader of its name ran on what the directory holds, and tokenizer
and backend fit. -/
inductive Loads (s : Session β) (name : String) (directory : ModelDirectory) (model : Model β) :
    Prop
  | intro {loader : Loader β} {config : Config} {loaded : Loaded β}
      (found : s.registry.resolve name = .ok loader)
      (configured : Config.load directory.configFile = .ok config)
      (ran : loader s.loads directory config = .ok loaded)
      (fits : Model.new name directory.path config loaded (s.entropy s.loads) s.loads =
        .ok model)

/-- The first step of a reload that fails and why, how many loaders ran by then, and what happened
to the model that one gave. -/
inductive FailsAt (s : Session β) (name : String) (directory : ModelDirectory) :
    LoadStage → Backend.Error → Nat → List Event → Prop
  | resolve {reason : Backend.Error} (missing : s.registry.resolve name = .error reason) :
      FailsAt s name directory .resolve reason s.loads []
  | config {loader : Loader β} {reason : Backend.Error}
      (found : s.registry.resolve name = .ok loader)
      (unreadable : Config.load directory.configFile = .error reason) :
      FailsAt s name directory .config reason s.loads []
  | backend {loader : Loader β} {config : Config} {reason : Backend.Error}
      (found : s.registry.resolve name = .ok loader)
      (configured : Config.load directory.configFile = .ok config)
      (failed : loader s.loads directory config = .error reason) :
      FailsAt s name directory .backend reason (s.loads + 1) [.load s.loads false]
  | validate {loader : Loader β} {config : Config} {loaded : Loaded β} {reason : Backend.Error}
      (found : s.registry.resolve name = .ok loader)
      (configured : Config.load directory.configFile = .ok config)
      (ran : loader s.loads directory config = .ok loaded)
      (unfit : Model.new name directory.path config loaded (s.entropy s.loads) s.loads =
        .error (.unfit reason)) :
      FailsAt s name directory .validate reason (s.loads + 1)
        [.load s.loads true, .release s.loads]

/-- A reload breaks off: a model was given and fits, but there is no chain for it. -/
inductive BreaksOff (s : Session β) (name : String) (directory : ModelDirectory) :
    Stage.Error → Prop
  | intro {loader : Loader β} {config : Config} {loaded : Loaded β} {reason : Stage.Error}
      (found : s.registry.resolve name = .ok loader)
      (configured : Config.load directory.configFile = .ok config)
      (ran : loader s.loads directory config = .ok loaded)
      (chainless : Model.new name directory.path config loaded (s.entropy s.loads) s.loads =
        .error (.chain reason)) :
      BreaksOff s name directory reason

inductive Reloaded (s : Session β) (name : String) (directory : ModelDirectory) :
    Response β Unit → Prop
  | failed {stage : LoadStage} {reason : Backend.Error} {loads : Nat} {events : List Event}
      (first : s.FailsAt name directory stage reason loads events) :
      Reloaded s name directory
        ⟨{ s.close.1 with loads }, s.close.2 ++ events, .error (.load name stage reason)⟩
  | brokeOff {reason : Stage.Error} (first : s.BreaksOff name directory reason) :
      Reloaded s name directory
        ⟨{ s.close.1 with loads := s.loads + 1 },
          s.close.2 ++ [.load s.loads true, .lose s.loads], .error (.brokeOff reason)⟩
  | loaded {model : Model β} (given : s.Loads name directory model) :
      Reloaded s name directory
        ⟨{ s.close.1 with loads := s.loads + 1, chat := some { model } },
          s.close.2 ++ [.load s.loads true], .ok ()⟩

theorem reloaded_reload (s : Session β) (name : String) (directory : ModelDirectory) :
    s.Reloaded name directory (s.reload name directory) := by
  have hclosed : ∀ {stage : LoadStage} {reason : Backend.Error},
      s.FailsAt name directory stage reason s.loads [] →
      s.Reloaded name directory ⟨s.close.1, s.close.2, .error (.load name stage reason)⟩ := by
    intro stage reason hfirst
    have hreloaded := Reloaded.failed hfirst
    rwa [List.append_nil] at hreloaded
  simp only [reload]
  cases hfound : s.close.1.registry.resolve name with
  | error reason => exact hclosed (.resolve hfound)
  | ok loader =>
      cases hconfigured : Config.load directory.configFile with
      | error reason => exact hclosed (.config hfound hconfigured)
      | ok config =>
          simp only [runLoader]
          cases hran : loader s.close.1.loads directory config with
          | error reason => exact .failed (.backend hfound hconfigured hran)
          | ok loaded =>
              dsimp only
              cases hmodel : Model.new name directory.path config loaded
                (s.close.1.entropy s.close.1.loads) s.close.1.loads with
              | error failure =>
                  cases failure with
                  | unfit reason => exact .failed (.validate hfound hconfigured hran hmodel)
                  | chain reason => exact .brokeOff (.intro hfound hconfigured hran hmodel)
              | ok model => exact .loaded (.intro hfound hconfigured hran hmodel)

theorem Reloaded.call_not_mem {s : Session β} {name : String} {directory : ModelDirectory}
    {response : Response β Unit} (h : s.Reloaded name directory response) (serial : Nat)
    (call : Call) : .call serial call ∉ response.events := by
  cases h with
  | failed first => cases first <;> simp
  | brokeOff | loaded => simp

theorem Loads.reload_eq {s : Session β} {name : String} {directory : ModelDirectory}
    {model : Model β} (h : s.Loads name directory model) :
    s.reload name directory =
      ⟨{ s.close.1 with loads := s.loads + 1, chat := some { model } },
        s.close.2 ++ [.load s.loads true], .ok ()⟩ := by
  obtain ⟨found, configured, ran, fits⟩ := h
  simp only [reload, close, found, configured, runLoader, ran, fits]

theorem FailsAt.reload_eq {s : Session β} {name : String} {directory : ModelDirectory}
    {stage : LoadStage} {reason : Backend.Error} {loads : Nat} {events : List Event}
    (h : s.FailsAt name directory stage reason loads events) :
    s.reload name directory =
      ⟨{ s.close.1 with loads }, s.close.2 ++ events, .error (.load name stage reason)⟩ := by
  cases h with
  | resolve missing => simp [reload, close, missing]
  | config found unreadable => simp [reload, close, found, unreadable]
  | backend found configured failed => simp [reload, close, found, configured, runLoader, failed]
  | validate found configured ran unfit =>
      simp [reload, close, found, configured, runLoader, ran, unfit]

theorem BreaksOff.reload_eq {s : Session β} {name : String} {directory : ModelDirectory}
    {reason : Stage.Error} (h : s.BreaksOff name directory reason) :
    s.reload name directory =
      ⟨{ s.close.1 with loads := s.loads + 1 },
        s.close.2 ++ [.load s.loads true, .lose s.loads], .error (.brokeOff reason)⟩ := by
  obtain ⟨found, configured, ran, chainless⟩ := h
  simp only [reload, close, found, configured, runLoader, ran, chainless]

theorem exists_loads {s : Session β} {name : String} {directory : ModelDirectory} {chat : Chat β}
    (h : (s.reload name directory).session.chat = some chat) :
    ∃ model, s.Loads name directory model ∧ chat = { model } := by
  have hreloaded := s.reloaded_reload name directory
  generalize s.reload name directory = response at hreloaded h
  cases hreloaded with
  | failed | brokeOff => cases h
  | loaded given =>
      cases h
      exact ⟨_, given, rfl⟩

theorem perform_of_unloaded {s : Session β} (h : s.chat = none) {request : Request}
    (hreload : ∀ name directory, request ≠ .reload name directory) (hunload : request ≠ .unload) :
    s.perform request = ⟨s, [], .error .notLoaded⟩ := by
  cases request with
  | reload name directory => exact absurd rfl (hreload name directory)
  | unload => exact absurd rfl hunload
  | resetChat | prefill | decode | evaluate =>
      simp only [perform, resetChat, prefill, decode, evaluate, onChat, h, Response.discard]
      rfl

theorem perform_registry (s : Session β) (request : Request) :
    (s.perform request).session.registry = s.registry := by
  cases request with
  | reload name directory =>
      change (s.reload name directory).session.registry = s.registry
      have hreloaded := s.reloaded_reload name directory
      generalize s.reload name directory = response at hreloaded
      cases hreloaded <;> rfl
  | unload => rfl
  | resetChat | prefill | decode | evaluate =>
      cases hchat : s.chat <;>
        simp [perform, resetChat, prefill, decode, evaluate, onChat, hchat, Response.discard]

theorem perform_prefill {s : Session β} {chat : Chat β} (h : s.chat = some chat)
    (input : Prompt) :
    s.perform (.prefill input) =
      ⟨{ s with chat := some (chat.prefill input).chat },
        (chat.prefill input).calls.map (.call chat.model.serial),
        (chat.prefill input).result.map fun _ => none⟩ := by
  simp only [perform, prefill, onChat, h, Response.discard]

theorem perform_decode {s : Session β} {chat : Chat β} (h : s.chat = some chat) :
    s.perform .decode =
      ⟨{ s with chat := some chat.decode.chat },
        chat.decode.calls.map (.call chat.model.serial),
        chat.decode.result.map fun _ => none⟩ := by
  simp only [perform, decode, onChat, h, Response.discard]

theorem perform_resetChat {s : Session β} {chat : Chat β} (h : s.chat = some chat) :
    s.perform .resetChat =
      ⟨{ s with chat := some chat.reset.chat }, [.call chat.model.serial .resetCache],
        .ok none⟩ := by
  simp only [perform, resetChat, onChat, h, Response.discard]
  rfl

theorem perform_evaluate {s : Session β} {chat : Chat β} (h : s.chat = some chat) :
    s.perform .evaluate =
      ⟨{ s with chat := some chat.evaluate.chat }, [.call chat.model.serial .evaluate],
        chat.evaluate.result.map some⟩ := by
  simp only [perform, evaluate, onChat, h]
  rfl

theorem exists_chat_of_call_mem {s : Session β} {request : Request} {serial : Nat} {call : Call}
    (h : .call serial call ∈ (s.perform request).events) : ∃ chat, s.chat = some chat := by
  cases hchat : s.chat with
  | some chat => exact ⟨chat, rfl⟩
  | none =>
      cases request with
      | reload name directory =>
          exact absurd h ((s.reloaded_reload name directory).call_not_mem serial call)
      | unload => exact absurd h (call_not_mem_close s serial call)
      | _ => simp [perform_of_unloaded hchat] at h

/-- What a call on a chat asks of its model, and the chat it leaves. -/
inductive Asks (chat : Chat β) : Request → List Call → Chat β → Prop
  | resetChat : Asks chat .resetChat [.resetCache] chat.reset.chat
  | prefill {input : Prompt} {outcome : Chat.Outcome β Unit}
      (prefilled : chat.Prefilled input outcome) :
      Asks chat (.prefill input) outcome.calls outcome.chat
  | decode {outcome : Chat.Outcome β Unit} (decoded : chat.Decoded outcome) :
      Asks chat .decode outcome.calls outcome.chat
  | evaluate : Asks chat .evaluate [.evaluate] chat.evaluate.chat

theorem exists_asks {s : Session β} {chat : Chat β} {request : Request} (hchat : s.chat = some chat)
    (hreload : ∀ name directory, request ≠ .reload name directory) (hunload : request ≠ .unload) :
    ∃ calls chat', Asks chat request calls chat' ∧
      (s.perform request).events = calls.map (.call chat.model.serial) ∧
      (s.perform request).session = { s with chat := some chat' } := by
  cases request with
  | reload name directory => exact absurd rfl (hreload name directory)
  | unload => exact absurd rfl hunload
  | resetChat =>
      rw [perform_resetChat hchat]
      exact ⟨_, _, .resetChat, rfl, rfl⟩
  | prefill input =>
      rw [perform_prefill hchat]
      exact ⟨_, _, .prefill (chat.prefilled_prefill input), rfl, rfl⟩
  | decode =>
      rw [perform_decode hchat]
      exact ⟨_, _, .decode chat.decoded_decode, rfl, rfl⟩
  | evaluate =>
      rw [perform_evaluate hchat]
      exact ⟨_, _, .evaluate, rfl, rfl⟩

theorem exists_asks_of_call_mem {s : Session β} {request : Request} {serial : Nat} {call : Call}
    (h : .call serial call ∈ (s.perform request).events) :
    ∃ chat calls chat', s.chat = some chat ∧ Asks chat request calls chat' ∧
      (s.perform request).events = calls.map (.call chat.model.serial) := by
  obtain ⟨chat, hchat⟩ := exists_chat_of_call_mem h
  have hreload : ∀ name directory, request ≠ .reload name directory := by
    rintro name directory rfl
    exact (s.reloaded_reload name directory).call_not_mem serial call h
  have hunload : request ≠ .unload := by
    rintro rfl
    exact call_not_mem_close s serial call h
  obtain ⟨calls, chat', hasks, hevents, -⟩ := exists_asks hchat hreload hunload
  exact ⟨chat, calls, chat', hchat, hasks, hevents⟩

omit [Backend β] in
theorem conversation_of_chat {s : Session β} {chat : Chat β} (h : s.chat = some chat) :
    s.conversation = chat.conversation := by
  rw [conversation, h]
  rfl

omit [Backend β] in
theorem isPrefilling_of_state {s : Session β} {chat : Chat β} (h : s.chat = some chat)
    (hstate : s.state = .prefilling) : chat.conversation.isPrefilling = true := by
  rw [state, h] at hstate
  rw [Conversation.isPrefilling]
  cases hprogress : chat.conversation.progress with
  | prefilling parts logits => rfl
  | _ => simp [hprogress] at hstate

omit [Backend β] in
theorem progress_of_state {s : Session β} {chat : Chat β} (h : s.chat = some chat) :
    match s.state with
    | .unloaded => False
    | .loaded => chat.conversation.progress = .idle
    | .prefilling => ∃ parts logits, chat.conversation.progress = .prefilling parts logits
    | .decoding => ∃ draft, chat.conversation.progress = .decoding draft
    | .stopped => ∃ reply reason, chat.conversation.progress = .stopped reply reason := by
  rw [state, h]
  dsimp only
  cases chat.conversation.progress with
  | idle => rfl
  | prefilling parts logits => exact ⟨parts, logits, rfl⟩
  | decoding draft => exact ⟨draft, rfl⟩
  | stopped reply reason => exact ⟨reply, reason, rfl⟩

theorem exists_chat_of_perform {s : Session β} {chat : Chat β} {request : Request}
    (hreload : ∀ name directory, request ≠ .reload name directory)
    (h : (s.perform request).session.chat = some chat) : ∃ old, s.chat = some old := by
  cases hchat : s.chat with
  | some old => exact ⟨old, rfl⟩
  | none =>
      cases request with
      | reload name directory => exact absurd rfl (hreload name directory)
      | unload => cases h
      | _ => simp [perform_of_unloaded hchat, hchat] at h

end Session

namespace Model

/-- A model can be chatted with: its tokens fit its logits, and there is room for what its chain
remembers. -/
structure Fits (config : Config) (loaded : Loaded β) : Prop where
  sizes : Backend.vocabSize loaded.backend ≠ 0 ∧ loaded.tokenizer.vocabSize ≠ 0 ∧
    loaded.tokenizer.vocabSize ≤ Backend.vocabSize loaded.backend
  room : ¬ (1 < config.sampling.repetitionPenalty ∧
    Stage.windowLimit ≤ config.sampling.penaltyWindow)

variable {name path : String} {config : Config} {loaded : Loaded β} {entropy : Nat → UInt32}
  {serial : Nat}

theorem new_eq_ok {m : Model β}
    (h : Model.new name path config loaded entropy serial = .ok m) :
    Fits config loaded ∧
      m = { name, path, config, serial, backend := loaded.backend, tokenizer := loaded.tokenizer
            chain := config.sampling.chain entropy } := by
  simp only [Model.new, SamplingParams.build_eq] at h
  by_cases hsizes : Backend.vocabSize loaded.backend = 0 ∨ loaded.tokenizer.vocabSize = 0 ∨
    Backend.vocabSize loaded.backend < loaded.tokenizer.vocabSize
  · rw [if_pos hsizes] at h
    cases h
  · by_cases hroom : 1 < config.sampling.repetitionPenalty ∧
      Stage.windowLimit ≤ config.sampling.penaltyWindow
    · rw [if_neg hsizes, if_pos hroom] at h
      cases h
    · rw [if_neg hsizes, if_neg hroom] at h
      cases h
      exact ⟨⟨by omega, hroom⟩, rfl⟩

theorem new_of_fits (h : Fits config loaded) (name path : String) (entropy : Nat → UInt32)
    (serial : Nat) :
    Model.new name path config loaded entropy serial =
      .ok { name, path, config, serial, backend := loaded.backend, tokenizer := loaded.tokenizer
            chain := config.sampling.chain entropy } := by
  have hsizes := h.sizes
  simp only [Model.new, SamplingParams.build_eq]
  rw [if_neg (by omega), if_neg h.room]

/-- There is no chain exactly if the penalty looks back over more tokens than memory can hold. -/
theorem new_eq_chain_iff {reason : Stage.Error} :
    Model.new name path config loaded entropy serial = .error (.chain reason) ↔
      (Backend.vocabSize loaded.backend ≠ 0 ∧ loaded.tokenizer.vocabSize ≠ 0 ∧
        loaded.tokenizer.vocabSize ≤ Backend.vocabSize loaded.backend) ∧
      1 < config.sampling.repetitionPenalty ∧
      Stage.windowLimit ≤ config.sampling.penaltyWindow := by
  simp only [Model.new, SamplingParams.build_eq]
  by_cases hsizes : Backend.vocabSize loaded.backend = 0 ∨ loaded.tokenizer.vocabSize = 0 ∨
    Backend.vocabSize loaded.backend < loaded.tokenizer.vocabSize
  · rw [if_pos hsizes]
    constructor
    · nofun
    · rintro ⟨hfits, -⟩
      omega
  · rw [if_neg hsizes]
    by_cases hroom : 1 < config.sampling.repetitionPenalty ∧
      Stage.windowLimit ≤ config.sampling.penaltyWindow
    · rw [if_pos hroom]
      cases reason
      exact ⟨fun _ => ⟨by omega, hroom⟩, fun _ => rfl⟩
    · rw [if_neg hroom]
      exact ⟨nofun, fun h => absurd h.2 hroom⟩

end Model

namespace Chat

theorem filterMap_sampled_of_feeding {calls : List Call} (h : Model.Feeding calls) :
    calls.filterMap Call.sampled? = [] := by
  rw [List.filterMap_eq_nil_iff]
  intro call hcall
  obtain ⟨input, position, answered, rfl⟩ := h call hcall
  rfl

theorem Planned.exists_piece {chat : Chat β} {input : Prompt} {plan : Plan}
    (h : chat.Planned input plan) :
    ∃ piece, chat.piece? input = some piece ∧ piece.part ≠ .text "" ∧
      plan = chat.planFor piece := by
  cases h with
  | @text s nonempty =>
      refine ⟨.text s, rfl, ?_, rfl⟩
      intro hempty
      cases hempty
      exact nonempty rfl
  | @image image normal positions form supported =>
      exact ⟨.image normal positions, by simp only [piece?, form, supported], nofun, rfl⟩

/-- A property of chats after runs with their events and logs, which holds of the chat of a model
just loaded and is kept by every call on a chat. -/
structure LogInvariant (registry : Registry (Loader β))
    (P : Chat β → List Event → List (Session.Entry β) → Prop) : Prop where
  loaded : ∀ {s : Session β} {past : List Event} {log : List (Session.Entry β)} {name : String}
    {directory : ModelDirectory} {model : Model β}, s.registry = registry →
    s.Loads name directory model →
    P { model } (past ++ (s.reload name directory).events)
      (log ++ [⟨s, .reload name directory, s.perform (.reload name directory)⟩])
  resetChat : ∀ {s : Session β} {chat : Chat β} {past : List Event}
    {log : List (Session.Entry β)}, s.chat = some chat → P chat past log →
    P chat.reset.chat (past ++ [.call chat.model.serial .resetCache])
      (log ++ [⟨s, .resetChat, s.perform .resetChat⟩])
  prefill : ∀ {s : Session β} {chat : Chat β} {past : List Event} {log : List (Session.Entry β)}
    (input : Prompt), s.chat = some chat → P chat past log →
    P (chat.prefill input).chat
      (past ++ (chat.prefill input).calls.map (.call chat.model.serial))
      (log ++ [⟨s, .prefill input, s.perform (.prefill input)⟩])
  decode : ∀ {s : Session β} {chat : Chat β} {past : List Event} {log : List (Session.Entry β)},
    s.chat = some chat → P chat past log →
    P chat.decode.chat (past ++ chat.decode.calls.map (.call chat.model.serial))
      (log ++ [⟨s, .decode, s.perform .decode⟩])
  evaluate : ∀ {s : Session β} {chat : Chat β} {past : List Event}
    {log : List (Session.Entry β)}, s.chat = some chat → P chat past log →
    P chat.evaluate.chat (past ++ [.call chat.model.serial .evaluate])
      (log ++ [⟨s, .evaluate, s.perform .evaluate⟩])

theorem LogInvariant.run {registry : Registry (Loader β)}
    {P : Chat β → List Event → List (Session.Entry β) → Prop} (h : LogInvariant registry P)
    {entropy : Nat → Nat → UInt32} {requests : List Request} {chat : Chat β}
    (hchat : ((Session.new registry entropy).run requests).1.chat = some chat) :
    P chat ((Session.new registry entropy).run requests).2
      ((Session.new registry entropy).log requests) := by
  suffices hall : ((Session.new registry entropy).run requests).1.registry = registry ∧
      ∀ chat, ((Session.new registry entropy).run requests).1.chat = some chat →
        P chat ((Session.new registry entropy).run requests).2
          ((Session.new registry entropy).log requests) from hall.2 chat hchat
  clear hchat
  apply Session.run_induction (P := fun current past log => current.registry = registry ∧
    ∀ chat, current.chat = some chat → P chat past log)
  · exact ⟨rfl, fun chat hchat => by cases hchat⟩
  · intro current past log request ih
    refine ⟨(current.perform_registry request).trans ih.1, fun chat hchat => ?_⟩
    -- only a reload brings a chat from nowhere; every other call moves the one there was
    cases request with
    | reload name directory =>
        obtain ⟨model, hloads, rfl⟩ := Session.exists_loads hchat
        exact h.loaded ih.1 hloads
    | unload => cases hchat
    | resetChat =>
        obtain ⟨old, hold⟩ := Session.exists_chat_of_perform (by simp) hchat
        have hkept := h.resetChat hold (ih.2 old hold)
        rw [Session.perform_resetChat hold] at hchat hkept ⊢
        cases hchat
        exact hkept
    | prefill input =>
        obtain ⟨old, hold⟩ := Session.exists_chat_of_perform (by simp) hchat
        have hkept := h.prefill input hold (ih.2 old hold)
        rw [Session.perform_prefill hold] at hchat hkept ⊢
        cases hchat
        exact hkept
    | decode =>
        obtain ⟨old, hold⟩ := Session.exists_chat_of_perform (by simp) hchat
        have hkept := h.decode hold (ih.2 old hold)
        rw [Session.perform_decode hold] at hchat hkept ⊢
        cases hchat
        exact hkept
    | evaluate =>
        obtain ⟨old, hold⟩ := Session.exists_chat_of_perform (by simp) hchat
        have hkept := h.evaluate hold (ih.2 old hold)
        rw [Session.perform_evaluate hold] at hchat hkept ⊢
        cases hchat
        exact hkept

/-- A property of chats, of what their model heard and of the transcript, which holds of a fresh
chat and is kept by every call on a chat. -/
structure Invariant (P : Chat β → List Call → Transcript → Prop) : Prop where
  fresh : ∀ model, P { model } [] []
  prefill : ∀ {chat : Chat β} {told : List Call} {t : Transcript} {input : Prompt}
    {outcome : Outcome β Unit}, P chat told t → chat.Prefilled input outcome →
    P outcome.chat (outcome.calls.foldl Call.after told)
      (t.afterPrefill (chat.piece? input) outcome.result)
  decode : ∀ {chat : Chat β} {told : List Call} {t : Transcript} {outcome : Outcome β Unit},
    P chat told t → chat.Decoded outcome →
    P outcome.chat (outcome.calls.foldl Call.after told)
      (t.afterDecode (outcome.calls.filterMap Call.sampled?)
        outcome.chat.conversation.stopReason outcome.result)
  evaluate : ∀ {chat : Chat β} {told : List Call} {t : Transcript}, P chat told t →
    P chat.evaluate.chat (told ++ [.evaluate]) t

theorem Invariant.run {P : Chat β → List Call → Transcript → Prop} (h : Invariant P)
    {registry : Registry (Loader β)} {entropy : Nat → Nat → UInt32} {requests : List Request}
    {chat : Chat β}
    (hchat : ((Session.new registry entropy).run requests).1.chat = some chat) :
    P chat (heard chat.model.serial ((Session.new registry entropy).run requests).2)
      (Transcript.ofLog ((Session.new registry entropy).log requests)) := by
  have hconcat : ∀ (log : List (Session.Entry β)) (entry : Session.Entry β),
      Transcript.ofLog (log ++ [entry]) = (Transcript.ofLog log).record entry :=
    fun log entry => List.foldl_append
  have hlog : LogInvariant registry fun chat past log =>
      P chat (heard chat.model.serial past) (Transcript.ofLog log) := by
    refine ⟨?_, ?_, ?_, ?_, ?_⟩
    · intro s past log name directory model hregistry hloads
      rw [heard_append, hconcat, hloads.reload_eq]
      obtain ⟨found, configured, ran, fits⟩ := hloads
      obtain ⟨-, rfl⟩ := Model.new_eq_ok fits
      simpa [Event.after, Transcript.record] using h.fresh _
    · intro s chat past log hchat hold
      rw [heard_append, hconcat]
      simpa [Event.after, Call.after, Transcript.record, Chat.reset, Model.reset] using
        h.fresh chat.model.reset
    · intro s chat past log input hchat hold
      have houtcome := chat.prefilled_prefill input
      have hkept := h.prefill hold houtcome
      rw [heard_append, hconcat, houtcome.alike.serial, foldl_after_call,
        Session.perform_prefill hchat]
      simpa [Transcript.record, hchat] using hkept
    · intro s chat past log hchat hold
      have houtcome := chat.decoded_decode
      have hkept := h.decode hold houtcome
      rw [heard_append, hconcat, houtcome.alike.serial, foldl_after_call,
        Session.perform_decode hchat]
      simp only [Transcript.record, filterMap_sampled_call, Transcript.afterDecode_map]
      exact hkept
    · intro s chat past log hchat hold
      rw [heard_append, hconcat, Session.perform_evaluate hchat]
      simpa [Event.after, Call.after, Transcript.record, Chat.evaluate] using h.evaluate hold
  exact hlog.run hchat

/-- The same by the steps that move a conversation on; faults start over, refusals change nothing.
-/
structure StepInvariant (P : Chat β → List Call → Transcript → Prop) : Prop where
  fresh : ∀ model, P { model } [] []
  prefill : ∀ {chat : Chat β} {told : List Call} {t : Transcript} {piece : Piece}
    {model : Model β} {calls : List Call} {logits : Option Logits},
    P chat told t → piece.part ≠ .text "" →
    chat.model.feed chat.conversation.position (chat.planFor piece).inputs =
      ⟨model, calls, .ok logits⟩ →
    P { model
        conversation :=
          chat.conversation.addPart piece.part (chat.planFor piece).positions logits
        usage := chat.usage.addPrefill (chat.planFor piece).positions }
      (told ++ calls) (t.addPiece piece)
  ended : ∀ {chat chat' : Chat β} {told : List Call} {t : Transcript} {calls : List Call}
    {draft : Draft} {token : TokenId} {model : Model β} {reply : Reply} {reason : StopReason},
    P chat told t → chat.HandedOver chat' calls draft →
    chat'.model.sample draft.logits = (some token, model) →
    absorb model chat'.conversation.position draft.reply token = (reply, some reason) →
    P { model
        conversation := chat'.conversation.stop reply reason
        usage := chat'.usage.addDecode }
      (told ++ (calls ++ [.sample token])) (t.addReply [token] (some reason))
  fed : ∀ {chat chat' : Chat β} {told : List Call} {t : Transcript} {calls : List Call}
    {draft : Draft} {token : TokenId} {model model' : Model β} {reply : Reply} {call : Call}
    {logits : Logits},
    P chat told t → chat.HandedOver chat' calls draft →
    chat'.model.sample draft.logits = (some token, model) →
    absorb model chat'.conversation.position draft.reply token = (reply, none) →
    model.forward (.tokens [token]) chat'.conversation.position = (model', call, .ok logits) →
    P { model := model'
        conversation := settle model' chat'.conversation
          { reply, generated := addWord draft.generated 1, logits }
        usage := chat'.usage.addDecode }
      (told ++ (calls ++ [.sample token] ++ [call]))
      (t.addReply [token]
        (settle model' chat'.conversation
          { reply, generated := addWord draft.generated 1, logits }).stopReason)
  evaluate : ∀ {chat : Chat β} {told : List Call} {t : Transcript}, P chat told t →
    P chat.evaluate.chat (told ++ [.evaluate]) t

namespace StepInvariant

variable {P : Chat β → List Call → Transcript → Prop} {chat : Chat β} {told : List Call}
  {t : Transcript}

theorem of_prefilled (h : StepInvariant P) (hchat : P chat told t) {input : Prompt}
    {outcome : Outcome β Unit} (houtcome : chat.Prefilled input outcome) :
    P outcome.chat (outcome.calls.foldl Call.after told)
      (t.afterPrefill (chat.piece? input) outcome.result) := by
  cases houtcome with
  | refused refusal => exact hchat
  | failed planned feed =>
      -- the model forgets and the transcript is empty again, so the chat is as good as new
      simpa [recover, Call.after, Transcript.afterPrefill] using h.fresh _
  | fed planned feed =>
      obtain ⟨piece, hpiece, hpart, rfl⟩ := (plan_eq_ok planned).1.exists_piece
      rw [foldl_after_of_not_mem (Model.feed_spec feed).2.resetCache_not_mem, hpiece]
      exact h.prefill hchat hpart feed

theorem of_decoded (h : StepInvariant P) (hchat : P chat told t) {outcome : Outcome β Unit}
    (houtcome : chat.Decoded outcome) :
    P outcome.chat (outcome.calls.foldl Call.after told)
      (t.afterDecode (outcome.calls.filterMap Call.sampled?)
        outcome.chat.conversation.stopReason outcome.result) := by
  cases houtcome with
  | refused refusal => rcases refusal with rfl | rfl <;> exact hchat
  | failed turn nonempty forward =>
      simpa [recover, Call.after, Transcript.afterDecode] using h.fresh _
  | sampled handed extended =>
      have hreset := handed.feeding.resetCache_not_mem
      have hsampled := filterMap_sampled_of_feeding handed.feeding
      cases extended with
      | unsampled sample =>
          simpa [recover, Call.after, Transcript.afterDecode] using h.fresh _
      | failed sample absorb forward =>
          simpa [recover, Call.after, Transcript.afterDecode] using h.fresh _
      | ended sample absorb =>
          dsimp only
          rw [foldl_after_of_not_mem (by simp [hreset]), List.filterMap_append, hsampled]
          exact h.ended hchat handed sample absorb
      | fed sample absorb forward =>
          obtain ⟨-, -, answered, rfl⟩ := Model.forward_spec forward
          dsimp only
          rw [foldl_after_of_not_mem (by simp [hreset]), List.filterMap_append,
            List.filterMap_append, hsampled]
          exact h.fed hchat handed sample absorb forward

theorem invariant (h : StepInvariant P) : Invariant P where
  fresh := h.fresh
  prefill hchat houtcome := h.of_prefilled hchat houtcome
  decode hchat houtcome := h.of_decoded hchat houtcome
  evaluate hchat := h.evaluate hchat

end StepInvariant

end Chat

/-- A backend that answers every input with the same logits. -/
structure Steady where
  logits : Logits
  imageLength : Option Nat := none

namespace Steady

instance : Backend Steady where
  forward b _ _ := (.ok b.logits, b)
  vocabSize b := b.logits.length
  imageEmbedLen := imageLength
  resetCache b := b

theorem keeps : Backend.Keeps (Backend.imageEmbedLen : Steady → Option Nat) :=
  ⟨fun _ _ _ => rfl, fun _ => rfl, fun _ => rfl⟩

def registry (tokenizer : Tokenizer) : Registry (Loader Steady) :=
  (Registry.register {} "steady" fun _ _ _ => .ok ⟨{ logits := [0] }, tokenizer⟩).2

def imaging (tokenizer : Tokenizer) (imageLength : Nat) : Registry (Loader Steady) :=
  (Registry.register {} "steady" fun _ _ _ =>
    .ok ⟨{ logits := [0], imageLength := some imageLength }, tokenizer⟩).2

def load (configFile : Option File) : Request :=
  .reload "steady" { path := "", configFile }

def requests (configFile : Option File) (input : Prompt) : List Request :=
  [load configFile, .prefill input, .decode]

variable {tokenizer : Tokenizer} (entropy : Nat → Nat → UInt32)

theorem perform_load {configFile : Option File} {config : Config}
    (hvocabulary : tokenizer.vocabSize = 1) (hconfig : Config.load configFile = .ok config)
    (hroom : config.sampling.penaltyWindow < Stage.windowLimit) :
    ∃ model, ((Session.new (registry tokenizer) entropy).perform (load configFile)).session.chat =
      some { model } ∧ model.tokenizer = tokenizer := by
  have hfits : Model.Fits config (⟨{ logits := [0] }, tokenizer⟩ : Loaded Steady) := by
    constructor
    · simp [Backend.vocabSize, hvocabulary]
    · omega
  refine ⟨?_, ?_, ?_⟩
  rotate_left
  · simp only [registry, load, Session.perform, Session.reload, Session.close, Session.new,
      Registry.resolve, Registry.register, Std.TreeMap.getElem?_insert_self, hconfig,
      Session.runLoader, Model.new_of_fits hfits, Session.Response.discard]
    rfl
  · rfl

theorem exists_chat (hvocabulary : tokenizer.vocabSize = 1) (configFile : Option File)
    (hconfig : (Config.load configFile).toOption.any
      (·.sampling.penaltyWindow < Stage.windowLimit) = true) (input : Prompt) :
    ∃ chat, ((Session.new (registry tokenizer) entropy).run
        (requests configFile input)).1.chat = some chat ∧
      chat.model.tokenizer = tokenizer := by
  cases hload : Config.load configFile with
  | error reason => simp [hload, Except.toOption] at hconfig
  | ok config =>
      have hroom : config.sampling.penaltyWindow < Stage.windowLimit := by
        simpa [hload, Except.toOption] using hconfig
      obtain ⟨model, hmodel, htokenizer⟩ := perform_load entropy hvocabulary hload hroom
      let chat : Chat Steady := { model }
      have hprefill := (chat.prefilled_prefill input).alike
      have hdecode := (chat.prefill input).chat.decoded_decode.alike
      refine ⟨(chat.prefill input).chat.decode.chat, ?_, ?_⟩
      · simp only [requests, Session.run]
        rw [Session.perform_prefill hmodel, Session.perform_decode rfl]
      · rw [hdecode.tokenizer, hprefill.tokenizer]
        exact htokenizer

end Steady

end Dialogue
