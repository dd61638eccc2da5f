import Mathlib.Data.List.DropRight
import Dialogue.Proofs.Session.Restart

/-!
Context positions. Inputs are fed to a model one right after the other, from position zero when it
was loaded or forgot its context. As long as no accepted prompt asks for more positions than 64 bits
can count, they are fed within the window: a user's turn that goes on has room for the tokens that
hand over to the assistant, however many inputs it is made of. A prompt that asks for more can be
accepted all the same, since the positions that it needs are added up in 64 bits.
-/

namespace Dialogue

variable {β : Type} [Backend β]

def Call.positions (embed : Nat) : Call → Nat
  | .forward input .. => input.positions embed
  | _ => 0

def fedPositions (embed : Nat) (calls : List Call) : Nat :=
  (calls.map (Call.positions embed)).sum

def Model.imageLength (m : Model β) : Nat :=
  (Backend.imageEmbedLen m.backend).getD 0

theorem fedPositions_after (embed : Nat) (told : List Call) {call : Call}
    (h : call ≠ .resetCache) :
    fedPositions embed (call.after told) = fedPositions embed told + call.positions embed := by
  cases call with
  | resetCache => exact absurd rfl h
  | _ => simp [Call.after, fedPositions]

/-- A number as 64 bits count it, and the number itself if the sums are exact. -/
structure Counted (exact : Prop) (n count : Nat) : Prop where
  word : count = n % UInt64.size
  full : exact → count = n

namespace Counted

variable {exact : Prop} {m n count : Nat}

theorem zero (exact : Prop) : Counted exact 0 0 :=
  ⟨(Nat.zero_mod _).symm, fun _ => rfl⟩

theorem lt (h : Counted exact n count) : count < UInt64.size := by
  rw [h.word]
  exact Nat.mod_lt _ (by decide)

theorem mono {exact' : Prop} (h : Counted exact n count) (himp : exact' → exact) :
    Counted exact' n count :=
  ⟨h.word, fun hexact => h.full (himp hexact)⟩

theorem add (h : Counted exact n count) (hroom : exact → count + m < UInt64.size) :
    Counted exact (n + m) (addWord count m) where
  word := by rw [h.word, addWord_mod]
  full hexact := by rw [addWord_of_lt (hroom hexact), h.full hexact]

end Counted

/-- Calls that lead from one position to another: each input is not empty, begins where the one
before it ended, and ends within the window if the sums are exact. -/
inductive Feeds (exact : Prop) (embed window : Nat) : Nat → List Call → Nat → Prop
  | nil (position : Nat) : Feeds exact embed window position [] position
  | forward {input : Input} {position finish : Nat} {answered : Bool} {calls : List Call}
      (nonempty : input ≠ .tokens [])
      (fits : exact → position + input.positions embed ≤ window)
      (rest : Feeds exact embed window (addWord position (input.positions embed)) calls finish) :
      Feeds exact embed window position (.forward input position answered :: calls) finish
  | sample {token : TokenId} {position finish : Nat} {calls : List Call}
      (rest : Feeds exact embed window position calls finish) :
      Feeds exact embed window position (.sample token :: calls) finish
  | evaluate {position finish : Nat} {calls : List Call}
      (rest : Feeds exact embed window position calls finish) :
      Feeds exact embed window position (.evaluate :: calls) finish
  | resetCache {position finish : Nat} {calls : List Call}
      (rest : Feeds exact embed window 0 calls finish) :
      Feeds exact embed window position (.resetCache :: calls) finish

namespace Feeds

variable {exact : Prop} {embed window start finish : Nat} {calls told : List Call}

theorem append {middle : Nat} {more : List Call} (h : Feeds exact embed window start calls middle)
    (h' : Feeds exact embed window middle more finish) :
    Feeds exact embed window start (calls ++ more) finish := by
  induction h with
  | nil => exact h'
  | forward nonempty fits _ ih => exact .forward nonempty fits (ih h')
  | sample _ ih => exact .sample (ih h')
  | evaluate _ ih => exact .evaluate (ih h')
  | resetCache _ ih => exact .resetCache (ih h')

theorem counted (h : Feeds exact embed window start calls finish) (hwindow : window < UInt64.size)
    (hstart : Counted exact (fedPositions embed told) start) :
    Counted exact (fedPositions embed (calls.foldl Call.after told)) finish := by
  induction h generalizing told with
  | nil => exact hstart
  | resetCache _ ih => exact ih (.zero exact)
  | forward nonempty fits _ ih =>
      rw [List.foldl_cons]
      apply ih
      rw [fedPositions_after embed told (by simp)]
      exact hstart.add fun hexact => Nat.lt_of_le_of_lt (fits hexact) hwindow
  | sample _ ih | evaluate _ ih =>
      rw [List.foldl_cons]
      apply ih
      rw [fedPositions_after embed told (by simp)]
      exact hstart

theorem exists_middle {before after : List Call}
    (h : Feeds exact embed window start (before ++ after) finish) :
    ∃ middle, Feeds exact embed window start before middle ∧
      Feeds exact embed window middle after finish := by
  induction before generalizing start with
  | nil => exact ⟨start, .nil start, h⟩
  | cons call before ih =>
      rw [List.cons_append] at h
      cases h with
      | forward nonempty fits rest =>
          obtain ⟨middle, hbefore, hafter⟩ := ih rest
          exact ⟨middle, .forward nonempty fits hbefore, hafter⟩
      | sample rest =>
          obtain ⟨middle, hbefore, hafter⟩ := ih rest
          exact ⟨middle, .sample hbefore, hafter⟩
      | evaluate rest =>
          obtain ⟨middle, hbefore, hafter⟩ := ih rest
          exact ⟨middle, .evaluate hbefore, hafter⟩
      | resetCache rest =>
          obtain ⟨middle, hbefore, hafter⟩ := ih rest
          exact ⟨middle, .resetCache hbefore, hafter⟩

theorem of_append_forward {before after : List Call} {input : Input} {position : Nat}
    {answered : Bool}
    (h : Feeds exact embed window start (before ++ .forward input position answered :: after)
      finish)
    (hwindow : window < UInt64.size) (hstart : Counted exact (fedPositions embed told) start) :
    Counted exact (fedPositions embed (before.foldl Call.after told)) position ∧
      (exact → position + input.positions embed ≤ window) ∧ input ≠ .tokens [] := by
  obtain ⟨middle, hbefore, hafter⟩ := h.exists_middle
  have hcounted := hbefore.counted hwindow hstart
  cases hafter with
  | forward nonempty fits _ => exact ⟨hcounted, fits, nonempty⟩

end Feeds

namespace Model

theorem feeds_feed {m m' : Model β} {exact : Prop} {embed window position : Nat}
    {inputs : List (Input × Nat)} {calls : List Call}
    {result : Except Backend.Error (Option Logits)}
    (h : m.feed position inputs = ⟨m', calls, result⟩) (hwindow : window < UInt64.size)
    (hposition : position < UInt64.size)
    (hinputs : ∀ x ∈ inputs, x.1 ≠ .tokens [] ∧ x.1.positions embed = x.2)
    (hroom : exact → position + (inputs.map Prod.snd).sum ≤ window) :
    ∃ finish, Feeds exact embed window position calls finish ∧
      ∀ last, result = .ok last →
        finish = (position + (inputs.map Prod.snd).sum) % UInt64.size := by
  have hfed := fedBy_of_feed h
  clear h
  induction hfed with
  | nil m position =>
      exact ⟨position, .nil position, fun _ _ => (Nat.mod_eq_of_lt hposition).symm⟩
  | @failed m m' position length input rest call reason forward =>
      obtain ⟨hne, hlength⟩ := hinputs (input, length) List.mem_cons_self
      obtain ⟨-, -, answered, rfl⟩ := forward_spec forward
      rw [List.map_cons, List.sum_cons] at hroom
      dsimp only at hne hlength hroom
      refine ⟨_, .forward hne (fun hexact => ?_) (.nil _), nofun⟩
      have := hroom hexact
      omega
  | @fed m m₁ m' position length input rest call calls logits result forward later ih =>
      obtain ⟨hne, hlength⟩ := hinputs (input, length) List.mem_cons_self
      obtain ⟨-, -, answered, rfl⟩ := forward_spec forward
      rw [List.map_cons, List.sum_cons] at hroom ⊢
      dsimp only at hne hlength hroom ⊢
      obtain ⟨finish, hfeeds, hfinish⟩ :=
        ih (addWord_lt position length) (fun x hx => hinputs x (List.mem_cons_of_mem _ hx))
          fun hexact => by
            have hcount := hroom hexact
            rw [addWord_of_lt (by omega)]
            omega
      refine ⟨finish, .forward hne (fun hexact => ?_) (hlength.symm ▸ hfeeds), ?_⟩
      · have := hroom hexact
        omega
      · intro last hlast
        cases result with
        | error reason => cases hlast
        | ok more =>
            rw [hfinish more rfl, addWord_eq, Nat.mod_add_mod, Nat.add_assoc]

end Model

namespace Chat

theorem Planned.inputs_spec {chat : Chat β} {input : Prompt} {plan : Plan}
    (h : chat.Planned input plan) :
    ∀ x ∈ plan.inputs, x.1 ≠ .tokens [] ∧ x.1.positions chat.model.imageLength = x.2 := by
  intro x hx
  rw [Plan.inputs, List.mem_append] at hx
  rcases hx with hx | hx
  · split at hx
    · cases hx
    · rename_i hne
      rw [List.mem_singleton] at hx
      subst hx
      exact ⟨by simpa using hne, rfl⟩
  · cases h with
    | text nonempty => cases hx
    | image form supported =>
        rw [Option.toList_some, List.map_singleton, List.mem_singleton] at hx
        subst hx
        exact ⟨by simp, by simp [Input.positions, Model.imageLength, supported]⟩

/-- The positions that a prompt needs, with those in use and those that hand over to the assistant,
can be counted in 64 bits. -/
def CanCount (chat : Chat β) (input : Prompt) : Prop :=
  ∀ plan, chat.plan input = .ok plan →
    chat.conversation.position + (plan.inputs.map Prod.snd).sum + chat.model.sealTokens.length <
      UInt64.size

/-- The window and the position are counted in 64 bits, and if the sums are exact, a user's turn
that goes on has room for the tokens that hand over to the assistant. -/
structure Roomy (exact : Prop) (chat : Chat β) : Prop where
  window : chat.model.config.contextWindow < UInt64.size
  position : chat.conversation.position < UInt64.size
  sealFits : exact → chat.conversation.isPrefilling = true →
    chat.conversation.position + chat.model.sealTokens.length ≤ chat.model.config.contextWindow

variable {exact : Prop} {chat chat' : Chat β} {outcome : Outcome β Unit}

omit [Backend β] in
theorem Roomy.mono {exact' : Prop} (h : chat.Roomy exact) (himp : exact' → exact) :
    chat.Roomy exact' :=
  ⟨h.window, h.position, fun hexact => h.sealFits (himp hexact)⟩

omit [Backend β] in
theorem roomy_fresh (exact : Prop) {model : Model β}
    (h : model.config.contextWindow < UInt64.size) : Roomy exact { model } :=
  ⟨h, (by decide : 0 < UInt64.size), nofun⟩

theorem room_of_plan {input : Prompt} {plan : Plan} (planned : chat.plan input = .ok plan) :
    (chat.conversation.position + (plan.inputs.map Prod.snd).sum +
      chat.model.sealTokens.length) % UInt64.size ≤ chat.model.config.contextWindow := by
  have hroom := (plan_eq_ok planned).2
  rw [← addWord_assoc, Plan.positions_eq] at hroom
  simpa [addWord_eq] using hroom

theorem CanCount.room {input : Prompt} {plan : Plan} (h : chat.CanCount input)
    (planned : chat.plan input = .ok plan) :
    chat.conversation.position + (plan.inputs.map Prod.snd).sum +
      chat.model.sealTokens.length ≤ chat.model.config.contextWindow := by
  have hroom := room_of_plan planned
  rwa [Nat.mod_eq_of_lt (h plan planned)] at hroom

theorem feeds_plan {input : Prompt} {plan : Plan} {model : Model β} {calls : List Call}
    {result : Except Backend.Error (Option Logits)} (hroomy : chat.Roomy exact)
    (hcount : exact → chat.CanCount input) (planned : chat.plan input = .ok plan)
    (feed : chat.model.feed chat.conversation.position plan.inputs = ⟨model, calls, result⟩) :
    ∃ finish, Feeds exact chat.model.imageLength chat.model.config.contextWindow
        chat.conversation.position calls finish ∧
      ∀ last, result = .ok last → finish = addWord chat.conversation.position plan.positions := by
  obtain ⟨finish, hfeeds, hfinish⟩ :=
    Model.feeds_feed feed hroomy.window hroomy.position (plan_eq_ok planned).1.inputs_spec
      fun hexact => Nat.le_of_add_right_le ((hcount hexact).room planned)
  refine ⟨finish, hfeeds, fun last hlast => ?_⟩
  rw [hfinish last hlast, Plan.positions_eq, addWord_eq, Nat.add_mod_mod]

theorem Prefilled.feeds {input : Prompt} (h : chat.Prefilled input outcome)
    (hroomy : chat.Roomy exact) (hcount : exact → chat.CanCount input) :
    Feeds exact chat.model.imageLength chat.model.config.contextWindow chat.conversation.position
        outcome.calls outcome.chat.conversation.position ∧
      outcome.chat.Roomy exact := by
  cases h with
  | refused refusal => exact ⟨.nil _, hroomy⟩
  | failed planned feed =>
      obtain ⟨finish, hfeeds, -⟩ := feeds_plan hroomy hcount planned feed
      have hconfig := (Model.Alike.of_feed feed).config
      refine ⟨hfeeds.append (.resetCache (.nil 0)), roomy_fresh exact ?_⟩
      exact hconfig ▸ hroomy.window
  | fed planned feed =>
      obtain ⟨finish, hfeeds, hfinish⟩ := feeds_plan hroomy hcount planned feed
      have halike := Model.Alike.of_feed feed
      refine ⟨?_, halike.config ▸ hroomy.window, ?_, fun hexact hprefilling => ?_⟩
      · rw [addPart_position, ← hfinish _ rfl]
        exact hfeeds
      · rw [addPart_position]
        exact addWord_lt _ _
      · have hroom := (hcount hexact).room planned
        have hsum := hcount hexact _ planned
        dsimp only
        rw [addPart_position, halike.sealTokens, halike.config, Plan.positions_eq, addWord_eq,
          Nat.add_mod_mod, Nat.mod_eq_of_lt (by omega)]
        exact hroom

theorem HandedOver.feeds {calls : List Call} {draft : Draft}
    (h : chat.HandedOver chat' calls draft) (hroomy : chat.Roomy exact) (embed : Nat) :
    Feeds exact embed chat.model.config.contextWindow chat.conversation.position calls
        chat'.conversation.position ∧
      chat'.conversation.position < UInt64.size := by
  cases h with
  | going => exact ⟨.nil _, hroomy.position⟩
  | bare => exact ⟨.nil _, hroomy.position⟩
  | fed turn nonempty forward =>
      obtain ⟨-, -, answered, rfl⟩ := Model.forward_spec forward
      -- the room was left by the last input, however long ago the turn began
      have hroom := fun hexact =>
        hroomy.sealFits hexact (by rw [Conversation.isPrefilling, turn])
      exact ⟨.forward (by simpa using nonempty) hroom (.nil _), addWord_lt _ _⟩

omit [Backend β] in
theorem room_of_absorb {m model : Model β} {logits : Logits} {position : Nat}
    {reply reply' : Reply} {token : TokenId} (sample : m.sample logits = (some token, model))
    (absorb : absorb model position reply token = (reply', none)) :
    position + 1 ≤ m.config.contextWindow := by
  cases absorbed_of_absorb absorb with
  | goesOn eos stop room => exact (Model.sample_spec sample).1.config ▸ room

theorem Extended.feeds {calls : List Call} {draft : Draft} (h : chat.Extended calls draft outcome)
    (hwindow : chat.model.config.contextWindow < UInt64.size)
    (hposition : chat.conversation.position < UInt64.size) (exact : Prop) (embed : Nat) :
    (∃ more, outcome.calls = calls ++ more ∧
      Feeds exact embed chat.model.config.contextWindow chat.conversation.position more
        outcome.chat.conversation.position) ∧
      outcome.chat.Roomy exact := by
  have hconfig := h.alike.config
  cases h with
  | unsampled sample =>
      exact ⟨⟨[.resetCache], rfl, .resetCache (.nil 0)⟩, roomy_fresh exact (hconfig ▸ hwindow)⟩
  | @ended token model reply reason sample absorb =>
      exact ⟨⟨[.sample token], rfl, .sample (.nil _)⟩, hconfig ▸ hwindow, hposition, nofun⟩
  | @failed token model model' reply call reason sample absorb forward =>
      obtain ⟨-, -, answered, rfl⟩ := Model.forward_spec forward
      have hroom := room_of_absorb sample absorb
      refine ⟨⟨[.sample token, .forward (.tokens [token]) chat.conversation.position answered,
        .resetCache], by simp [recover], ?_⟩, roomy_fresh exact (hconfig ▸ hwindow)⟩
      exact .sample (.forward (by simp) (fun _ => hroom) (.resetCache (.nil 0)))
  | @fed token model model' reply call logits sample absorb forward =>
      obtain ⟨-, -, answered, rfl⟩ := Model.forward_spec forward
      have hroom := room_of_absorb sample absorb
      constructor
      · refine ⟨[.sample token, .forward (.tokens [token]) chat.conversation.position answered],
          by simp, ?_⟩
        rw [settle_position]
        exact .sample (.forward (by simp) (fun _ => hroom) (.nil _))
      · refine ⟨hconfig ▸ hwindow, ?_, fun _ hprefilling => ?_⟩
        · rw [settle_position]
          exact addWord_lt _ _
        · rw [settle_isPrefilling] at hprefilling
          cases hprefilling

theorem Decoded.feeds (h : chat.Decoded outcome) (hroomy : chat.Roomy exact) (embed : Nat) :
    Feeds exact embed chat.model.config.contextWindow chat.conversation.position outcome.calls
        outcome.chat.conversation.position ∧
      outcome.chat.Roomy exact := by
  have hconfig := h.alike.config
  cases h with
  | refused refusal => exact ⟨.nil _, hroomy⟩
  | failed turn nonempty forward =>
      obtain ⟨-, -, answered, rfl⟩ := Model.forward_spec forward
      have hroom := fun hexact =>
        hroomy.sealFits hexact (by rw [Conversation.isPrefilling, turn])
      exact ⟨.forward (by simpa using nonempty) hroom (.resetCache (.nil 0)),
        roomy_fresh exact (hconfig ▸ hroomy.window)⟩
  | sampled handed extended =>
      obtain ⟨hhanded, hposition⟩ := handed.feeds hroomy embed
      have hwindow := hroomy.window
      rw [← handed.alike.config] at hwindow hhanded
      obtain ⟨⟨more, hcalls, hmore⟩, hroomy'⟩ := extended.feeds hwindow hposition exact embed
      rw [hcalls, ← handed.alike.config]
      exact ⟨hhanded.append hmore, hroomy'⟩

end Chat

namespace Session

/-- Whether a new conversation begins with a call: a model was loaded or let go of, or the
conversation ended by a new one or by a fault. -/
def Entry.clears (entry : Entry β) : Bool :=
  match entry.request with
  | .reload .. | .unload => true
  | .resetChat => entry.response.result.isOk
  | .prefill _ | .decode => faults entry.response.result
  | .evaluate => false

def current (log : List (Entry β)) : List (Entry β) :=
  log.rtakeWhile fun entry => !entry.clears

/-- If a call is an accepted prompt, the positions it needs can be counted in 64 bits. -/
def Entry.CanCount (entry : Entry β) : Prop :=
  ∀ chat input, entry.before.chat = some chat → entry.request = .prefill input → chat.CanCount input

/-- No accepted prompt needs more positions than can be counted. -/
def Exact (entries : List (Entry β)) : Prop :=
  ∀ entry ∈ entries, entry.CanCount

variable {log : List (Entry β)} {entry : Entry β}

omit [Backend β] in
theorem current_concat_of_clears (log : List (Entry β)) (h : entry.clears = true) :
    current (log ++ [entry]) = [] :=
  List.rtakeWhile_concat_neg _ _ _ (by simp [h])

omit [Backend β] in
theorem current_concat (log : List (Entry β)) (h : entry.clears = false) :
    current (log ++ [entry]) = current log ++ [entry] :=
  List.rtakeWhile_concat_pos _ _ _ (by simp [h])

theorem exact_concat_iff :
    Exact (log ++ [entry]) ↔ Exact log ∧ entry.CanCount := by
  simp [Exact, or_imp, forall_and]

theorem exact_current_concat (h : Exact (current log ++ [entry])) :
    Exact (current (log ++ [entry])) := by
  cases hclears : entry.clears with
  | true =>
      rw [current_concat_of_clears log hclears]
      exact List.forall_mem_nil _
  | false => rwa [current_concat log hclears]

theorem Asks.feeds {chat chat' : Chat β} {request : Request} {calls : List Call} {exact : Prop}
    (h : Asks chat request calls chat') (hroomy : chat.Roomy exact)
    (hcount : exact → ∀ input, request = .prefill input → chat.CanCount input) :
    ∃ finish, Feeds exact chat.model.imageLength chat.model.config.contextWindow
      chat.conversation.position calls finish := by
  cases h with
  | resetChat => exact ⟨0, .resetCache (.nil 0)⟩
  | prefill prefilled =>
      exact ⟨_, (prefilled.feeds hroomy fun hexact => hcount hexact _ rfl).1⟩
  | decode decoded => exact ⟨_, (decoded.feeds hroomy _).1⟩
  | evaluate => exact ⟨_, .evaluate (.nil _)⟩

end Session

namespace Chat

open Session (Exact current)

/-- The position of a chat is where the inputs that its model was fed end. -/
def Placed (chat : Chat β) (past : List Event) (log : List (Session.Entry β)) : Prop :=
  let exact := Exact (current log)
  chat.Roomy exact ∧
    Counted exact (fedPositions chat.model.imageLength (heard chat.model.serial past))
      chat.conversation.position

theorem Restarted.roomy {chat : Chat β} {outcome : Outcome β Unit} (h : chat.Restarted outcome)
    (hwindow : chat.model.config.contextWindow < UInt64.size) (exact : Prop) :
    outcome.chat.Roomy exact := by
  rw [h.empty]
  exact roomy_fresh exact (h.alike.config ▸ hwindow)

theorem Restarted.placed {chat : Chat β} {outcome : Outcome β Unit} {past : List Event}
    {log : List (Session.Entry β)} (h : chat.Restarted outcome)
    (hwindow : chat.model.config.contextWindow < UInt64.size) :
    outcome.chat.Placed (past ++ outcome.calls.map (.call chat.model.serial)) log := by
  obtain ⟨calls, hcalls, -⟩ := h.forgets
  have hheard : heard outcome.chat.model.serial
      (past ++ outcome.calls.map (.call chat.model.serial)) = [] := by
    rw [heard_append, h.alike.serial, foldl_after_call, hcalls, List.foldl_append]
    rfl
  refine ⟨h.roomy hwindow _, ?_⟩
  rw [hheard, h.empty]
  exact .zero _

theorem placed_of_feeds {chat chat' : Chat β} {past : List Event} {log : List (Session.Entry β)}
    {entry : Session.Entry β} {calls : List Call} (hchat : chat.Placed past log)
    (hclears : entry.clears = false) (halike : chat.model.Alike chat'.model)
    (hlength : chat'.model.imageLength = chat.model.imageLength)
    (hfeeds : Feeds (Exact (current log ++ [entry])) chat.model.imageLength
      chat.model.config.contextWindow chat.conversation.position calls chat'.conversation.position)
    (hroomy : chat'.Roomy (Exact (current log ++ [entry]))) :
    chat'.Placed (past ++ calls.map (.call chat.model.serial)) (log ++ [entry]) := by
  rw [Placed, Session.current_concat log hclears]
  refine ⟨hroomy, ?_⟩
  rw [hlength, halike.serial, heard_append, foldl_after_call]
  exact hfeeds.counted hchat.1.window
    (hchat.2.mono fun hexact => (Session.exact_concat_iff.mp hexact).1)

theorem logInvariant_placed (hkeeps : Backend.Keeps (Backend.imageEmbedLen : β → Option Nat))
    (registry : Registry (Loader β)) :
    LogInvariant registry fun (chat : Chat β) past log => chat.Placed past log where
  loaded := by
    intro s past log name directory model hregistry hloads
    have hevents := congrArg Session.Response.events hloads.reload_eq
    obtain ⟨found, configured, ran, fits⟩ := hloads
    obtain ⟨-, rfl⟩ := Model.new_eq_ok fits
    have hheard : heard s.loads (past ++ (s.reload name directory).events) = [] := by
      rw [hevents, ← List.append_assoc, heard_append]
      simp [Event.after]
    rw [Placed, hheard]
    exact ⟨roomy_fresh _ (Config.inWord_of_load configured).contextWindow, .zero _⟩
  resetChat := by
    intro s chat past log hchat hplaced
    exact chat.restarted_reset.placed hplaced.1.window
  prefill := by
    intro s chat past log input hchat hplaced
    have houtcome := chat.prefilled_prefill input
    let entry : Session.Entry β := ⟨s, .prefill input, s.perform (.prefill input)⟩
    by_cases hfault : Session.faults (chat.prefill input).result = true
    · exact (houtcome.restarted hfault).placed hplaced.1.window
    · have hclears : entry.clears = false := by
        simp only [entry, Session.Entry.clears, Session.perform_prefill hchat]
        simpa using hfault
      have hcount : Exact (current log ++ [entry]) → chat.CanCount input := fun hexact =>
        (Session.exact_concat_iff.mp hexact).2 chat input hchat rfl
      obtain ⟨hfeeds, hroomy⟩ := houtcome.feeds
        (hplaced.1.mono fun hexact => (Session.exact_concat_iff.mp hexact).1) hcount
      exact placed_of_feeds hplaced hclears houtcome.alike
        (congrArg (·.getD 0) (houtcome.keeps hkeeps)) hfeeds hroomy
  decode := by
    intro s chat past log hchat hplaced
    have houtcome := chat.decoded_decode
    by_cases hfault : Session.faults chat.decode.result = true
    · exact (houtcome.restarted hfault).placed hplaced.1.window
    · have hclears : Session.Entry.clears ⟨s, .decode, s.perform .decode⟩ = false := by
        rw [Session.Entry.clears, Session.perform_decode hchat]
        simpa using hfault
      obtain ⟨hfeeds, hroomy⟩ := houtcome.feeds
        (hplaced.1.mono fun hexact => (Session.exact_concat_iff.mp hexact).1) chat.model.imageLength
      exact placed_of_feeds hplaced hclears houtcome.alike
        (congrArg (·.getD 0) (houtcome.keeps hkeeps)) hfeeds hroomy
  evaluate := by
    intro s chat past log hchat hplaced
    have halike : chat.model.Alike chat.evaluate.chat.model := ⟨rfl, rfl, rfl, rfl, rfl, rfl⟩
    obtain ⟨hwindow, hposition, hseal⟩ :=
      hplaced.1.mono fun hexact => (Session.exact_concat_iff.mp hexact).1
    exact placed_of_feeds hplaced rfl halike
      (congrArg (·.getD 0) (hkeeps.evaluate chat.model.backend)) (.evaluate (.nil _))
      ⟨hwindow, hposition, hseal⟩

theorem canCount_iff {chat : Chat β} {input : Prompt} {plan : Plan}
    (hwindow : chat.model.config.contextWindow < UInt64.size)
    (planned : chat.plan input = .ok plan) :
    chat.CanCount input ↔
      chat.conversation.position + (plan.inputs.map Prod.snd).sum + chat.model.sealTokens.length ≤
        chat.model.config.contextWindow := by
  constructor
  · exact fun hcount => hcount.room planned
  · intro hroom plan' planned'
    cases planned.symm.trans planned'
    omega

end Chat

theorem Chat.canCount_text {chat : Chat β} {text : String}
    (h : chat.conversation.position + (chat.promptTokens text).length +
      chat.model.sealTokens.length < UInt64.size) : chat.CanCount (.text text) := by
  intro plan planned
  cases (plan_eq_ok planned).1 with
  | text nonempty =>
      by_cases hempty : chat.promptTokens text = []
      · simpa [Plan.inputs, hempty] using h
      · simpa [Plan.inputs, hempty] using h

end Dialogue
