import Dialogue.Proofs.Session.Positions
import Dialogue.Proofs.Session.Refusal
import Dialogue.Proofs.Session.Restart

/-!
The counts of a conversation and its position as one ledger. Every call adds to them what it fed
and what it sampled, or begins a new ledger; the position lags behind the counts by one token for
each reply whose last token was not fed.
-/

namespace Dialogue

variable {β : Type} [Backend β]

/-- The positions that calls filled before anything was sampled. -/
def promptPositions (embed : Nat) (calls : List Call) : Nat :=
  fedPositions embed (calls.takeWhile fun call => call.sampled?.isNone)

def StopReason.leavesUnfed : StopReason → Bool
  | .endOfSequence | .stopString | .contextWindow => true
  | .maxGenLength => false

theorem countP_concat {α : Type} (p : α → Bool) (xs : List α) (x : α) :
    (xs ++ [x]).countP p = xs.countP p + (p x).toNat := by
  rw [List.countP_append, List.countP_singleton]
  cases p x <;> rfl

namespace Session.Entry

/-- The positions that a call fed for a prompt or to hand over to the assistant. -/
def prompted (entry : Entry β) : Nat :=
  match entry.before.chat with
  | some chat =>
    promptPositions chat.model.imageLength (entry.response.events.filterMap Event.call?)
  | none => 0

def decodes (entry : Entry β) : Bool :=
  match entry.request with
  | .decode => entry.response.result.isOk
  | _ => false

/-- Whether a reply ended with a call whose token was not fed. -/
def endsUnfed (entry : Entry β) : Bool :=
  entry.decodes && entry.response.session.conversation.stopReason.any StopReason.leavesUnfed

end Session.Entry

theorem takeWhile_unsampled_of_feeding {calls : List Call} (h : Model.Feeding calls)
    (more : List Call) :
    (calls ++ more).takeWhile (fun call => call.sampled?.isNone) =
      calls ++ more.takeWhile fun call => call.sampled?.isNone := by
  apply List.takeWhile_append_of_pos
  intro call hcall
  obtain ⟨input, position, answered, rfl⟩ := h call hcall
  rfl

theorem promptPositions_of_feeding {calls : List Call} (h : Model.Feeding calls) (embed : Nat) :
    promptPositions embed calls = fedPositions embed calls := by
  have htaken := takeWhile_unsampled_of_feeding h []
  rw [List.append_nil] at htaken
  rw [promptPositions, htaken, List.takeWhile_nil, List.append_nil]

theorem promptPositions_sample {calls : List Call} (h : Model.Feeding calls) (embed : Nat)
    (token : TokenId) (more : List Call) :
    promptPositions embed (calls ++ .sample token :: more) = fedPositions embed calls := by
  rw [promptPositions, takeWhile_unsampled_of_feeding h]
  simp [Call.sampled?]

theorem Model.fedPositions_of_fedBy {m m' : Model β} {embed position : Nat}
    {inputs : List (Input × Nat)} {calls : List Call} {last : Option Logits}
    (h : FedBy m position inputs m' calls (.ok last))
    (hinputs : ∀ x ∈ inputs, x.1.positions embed = x.2) :
    fedPositions embed calls = (inputs.map Prod.snd).sum := by
  generalize hresult : Except.ok last = result at h
  induction h generalizing last with
  | nil => rfl
  | failed forward => cases hresult
  | @fed _ _ _ _ length input rest _ calls _ result forward later ih =>
      obtain ⟨-, -, answered, rfl⟩ := forward_spec forward
      obtain ⟨hlength, hrest⟩ := List.forall_mem_cons.mp hinputs
      have hlater : fedPositions embed calls = (rest.map Prod.snd).sum := by
        cases result with
        | error reason => cases hresult
        | ok last => exact ih hrest rfl
      rw [List.map_cons, List.sum_cons, ← hlater, ← hlength]
      rfl

namespace Chat

/-- What a call adds to the counts and to the position, where a token sampled last may be unfed. -/
structure Advances (exact : Prop) (chat chat' : Chat β) (prompted sampled unfed : Nat) : Prop where
  prefilled : ∀ n, Counted False n chat.usage.prefillTokens →
    Counted False (n + prompted) chat'.usage.prefillTokens
  decoded : ∀ n, Counted False n chat.usage.decodeTokens →
    Counted False (n + sampled) chat'.usage.decodeTokens
  position : ∃ fed, fed + unfed = prompted + sampled ∧
    ∀ n, Counted exact n chat.conversation.position →
      Counted exact (n + fed) chat'.conversation.position

/-- Nothing is counted, and no position is in use. -/
def Blank (chat : Chat β) : Prop :=
  chat.usage = {} ∧ chat.conversation.position = 0

variable {exact : Prop} {chat chat' : Chat β} {outcome : Outcome β Unit}

omit [Backend β] in
theorem blank_fresh (model : Model β) : Blank { model } :=
  ⟨rfl, rfl⟩

omit [Backend β] in
theorem Advances.refl (exact : Prop) (chat : Chat β) : Advances exact chat chat 0 0 0 :=
  ⟨fun _ h => h, fun _ h => h, 0, rfl, fun _ h => h⟩

omit [Backend β] in
theorem Advances.trans {chat'' : Chat β} {prompted sampled unfed : Nat}
    (h : Advances exact chat chat' prompted 0 0)
    (h' : Advances exact chat' chat'' 0 sampled unfed) :
    Advances exact chat chat'' prompted sampled unfed := by
  obtain ⟨fed, hfed, hposition⟩ := h.position
  obtain ⟨fed', hfed', hposition'⟩ := h'.position
  refine ⟨fun n hn => h'.prefilled _ (h.prefilled n hn), fun n hn => h'.decoded _ (h.decoded n hn),
    fed + fed', by omega, fun n hn => ?_⟩
  rw [← Nat.add_assoc]
  exact hposition' _ (hposition n hn)

omit [Backend β] in
theorem Advances.of_prompt {prompted : Nat}
    (hdecoded : chat'.usage.decodeTokens = chat.usage.decodeTokens)
    (hprefilled : chat'.usage.prefillTokens = addWord chat.usage.prefillTokens prompted)
    (hposition : chat'.conversation.position = addWord chat.conversation.position prompted)
    (hroom : exact → chat.conversation.position + prompted < UInt64.size) :
    Advances exact chat chat' prompted 0 0 := by
  refine ⟨fun n hn => ?_, fun n hn => ?_, prompted, rfl, fun n hn => ?_⟩
  · rw [hprefilled]
    exact hn.add nofun
  · rw [hdecoded]
    exact hn
  · rw [hposition]
    exact hn.add hroom

theorem Prefilled.advances {input : Prompt} (h : chat.Prefilled input outcome)
    (hcount : exact → chat.CanCount input) :
    if Session.faults outcome.result then outcome.chat.Blank
    else Advances exact chat outcome.chat
      (promptPositions chat.model.imageLength outcome.calls) 0 0 := by
  cases h with
  | refused refusal => exact .refl exact chat
  | failed planned feed => exact ⟨rfl, rfl⟩
  | @fed plan model calls logits planned feed =>
      have hlengths : ∀ x ∈ plan.inputs, x.1.positions chat.model.imageLength = x.2 :=
        fun x hx => ((plan_eq_ok planned).1.inputs_spec x hx).2
      have hfed : promptPositions chat.model.imageLength calls =
          (plan.inputs.map Prod.snd).sum := by
        rw [promptPositions_of_feeding (Model.feed_spec feed).2,
          Model.fedPositions_of_fedBy (Model.fedBy_of_feed feed) hlengths]
      have hword : ∀ n, addWord n plan.positions = addWord n (plan.inputs.map Prod.snd).sum :=
        fun n => by rw [Plan.positions_eq, addWord_mod_right]
      change Advances exact chat _ (promptPositions _ calls) 0 0
      rw [hfed]
      refine .of_prompt rfl (hword _) ?_ fun hexact => ?_
      · dsimp only
        rw [addPart_position, hword]
      · have := hcount hexact plan planned
        omega

theorem HandedOver.advances {calls : List Call} {draft : Draft}
    (h : chat.HandedOver chat' calls draft) (hroomy : chat.Roomy exact) (embed : Nat) :
    Advances exact chat chat' (fedPositions embed calls) 0 0 := by
  cases h with
  | going => exact .refl exact chat
  | bare => exact ⟨fun _ h => h, fun _ h => h, 0, rfl, fun _ h => h⟩
  | fed turn nonempty forward =>
      obtain ⟨-, -, answered, rfl⟩ := Model.forward_spec forward
      refine .of_prompt rfl rfl rfl fun hexact => ?_
      have hroom := hroomy.sealFits hexact (by rw [Conversation.isPrefilling, turn])
      exact Nat.lt_of_le_of_lt hroom hroomy.window

omit [Backend β] in
theorem Absorbed.leavesUnfed {model : Model β} {position : Nat} {reply reply' : Reply}
    {token : TokenId} {reason : StopReason}
    (h : Absorbed model position reply token reply' (some reason)) : reason.leavesUnfed = true := by
  cases h <;> rfl

omit [Backend β] in
theorem stopReason_settle (model : Model β) (c : Conversation) (draft : Draft) :
    (settle model c draft).stopReason.any StopReason.leavesUnfed = false := by
  rcases settle_cases model c draft with ⟨-, h⟩ | ⟨-, h⟩ <;> rw [h] <;> rfl

/-- A token is counted when it is sampled; it takes a position only if the reply does not end with
it, or ends for its length. -/
theorem Extended.advances {calls : List Call} {draft : Draft}
    (h : chat.Extended calls draft outcome)
    (hwindow : chat.model.config.contextWindow < UInt64.size) (exact : Prop) :
    if Session.faults outcome.result then outcome.chat.Blank
    else outcome.result.isOk = true ∧
      (∃ token more, outcome.calls = calls ++ .sample token :: more) ∧
      Advances exact chat outcome.chat 0 1
        (outcome.chat.conversation.stopReason.any StopReason.leavesUnfed).toNat := by
  cases h with
  | unsampled sample => exact ⟨rfl, rfl⟩
  | failed sample absorb forward => exact ⟨rfl, rfl⟩
  | @ended token model reply reason sample absorb =>
      refine ⟨rfl, ⟨token, [], rfl⟩, fun _ hn => hn, fun _ hn => hn.add nofun, 0, ?_,
        fun _ hn => hn⟩
      change 0 + reason.leavesUnfed.toNat = _
      rw [(absorbed_of_absorb absorb).leavesUnfed]
      rfl
  | @fed token model model' reply call logits sample absorb forward =>
      refine ⟨rfl, ⟨token, [call], by simp⟩, fun _ hn => hn, fun _ hn => hn.add nofun, 1, ?_,
        fun _ hn => ?_⟩
      · dsimp only
        rw [stopReason_settle]
        rfl
      · have hroom := room_of_absorb sample absorb
        dsimp only
        rw [settle_position]
        exact hn.add fun _ => Nat.lt_of_le_of_lt hroom hwindow

theorem Decoded.advances (h : chat.Decoded outcome) (hroomy : chat.Roomy exact) :
    if Session.faults outcome.result then outcome.chat.Blank
    else Advances exact chat outcome.chat
      (promptPositions chat.model.imageLength outcome.calls)
      outcome.result.isOk.toNat
      (outcome.result.isOk &&
        outcome.chat.conversation.stopReason.any StopReason.leavesUnfed).toNat := by
  cases h with
  | refused refusal => rcases refusal with rfl | rfl <;> exact .refl exact chat
  | failed turn nonempty forward => exact ⟨rfl, rfl⟩
  | sampled handed extended =>
      have hwindow := hroomy.window
      rw [← handed.alike.config] at hwindow
      have hextended := extended.advances hwindow exact
      split
      · rwa [if_pos ‹_›] at hextended
      · rw [if_neg ‹_›] at hextended
        obtain ⟨hok, ⟨token, more, hcalls⟩, hadvances⟩ := hextended
        rw [hcalls, promptPositions_sample handed.feeding, hok]
        exact (handed.advances hroomy _).trans hadvances

end Chat

namespace Session

/-- The counts and the position of a session by what was fed and sampled, and by how many of the
tokens sampled were not fed. -/
structure Ledger (exact : Prop) (s : Session β) (prompted sampled unfed : Nat) : Prop where
  prefilled : Counted False prompted s.usage.prefillTokens
  decoded : Counted False sampled s.usage.decodeTokens
  position : ∃ fed, fed + unfed = prompted + sampled ∧
    Counted exact fed s.conversation.position
  roomy : ∀ chat, s.chat = some chat → chat.Roomy exact

variable {exact : Prop} {s : Session β} {chat chat' : Chat β} {prompted sampled unfed : Nat}

omit [Backend β] in
theorem Ledger.mono {exact' : Prop} (h : Ledger exact s prompted sampled unfed)
    (himp : exact' → exact) : Ledger exact' s prompted sampled unfed := by
  obtain ⟨fed, hfed, hposition⟩ := h.position
  exact ⟨h.prefilled, h.decoded, ⟨fed, hfed, hposition.mono himp⟩, fun chat hchat =>
    (h.roomy chat hchat).mono himp⟩

omit [Backend β] in
theorem ledger_none (exact : Prop) (h : s.chat = none) : Ledger exact s 0 0 0 where
  prefilled := by
    rw [usage, h]
    exact .zero _
  decoded := by
    rw [usage, h]
    exact .zero _
  position := by
    rw [conversation, h]
    exact ⟨0, rfl, .zero _⟩
  roomy chat hchat := by cases h.symm.trans hchat

omit [Backend β] in
theorem ledger_of_blank (hchat : s.chat = some chat) (h : chat.Blank) (hroomy : chat.Roomy exact) :
    Ledger exact s 0 0 0 where
  prefilled := by
    rw [usage, hchat, Option.map_some, h.1]
    exact .zero _
  decoded := by
    rw [usage, hchat, Option.map_some, h.1]
    exact .zero _
  position := by
    rw [conversation_of_chat hchat, h.2]
    exact ⟨0, rfl, .zero _⟩
  roomy other hother := by
    cases hchat.symm.trans hother
    exact hroomy

omit [Backend β] in
theorem Ledger.advance (h : Ledger exact s prompted sampled unfed) (hchat : s.chat = some chat)
    {prompted' sampled' unfed' : Nat}
    (hadvances : Chat.Advances exact chat chat' prompted' sampled' unfed')
    (hroomy : chat'.Roomy exact) :
    Ledger exact { s with chat := some chat' } (prompted + prompted') (sampled + sampled')
      (unfed + unfed') := by
  have husage : s.usage = chat.usage := by rw [usage, hchat]; rfl
  obtain ⟨hprefilled, hdecoded, ⟨fed, hfed, hposition⟩, -⟩ := h
  obtain ⟨fed', hfed', hposition'⟩ := hadvances.position
  rw [husage] at hprefilled hdecoded
  rw [conversation_of_chat hchat] at hposition
  refine ⟨hadvances.prefilled _ hprefilled, hadvances.decoded _ hdecoded,
    ⟨fed + fed', by omega, hposition' _ hposition⟩, fun other hother => ?_⟩
  cases hother
  exact hroomy

@[simp] theorem isOk_map {ε α γ : Type} (f : α → γ) (result : Except ε α) :
    (result.map f).isOk = result.isOk := by
  cases result <;> rfl

theorem not_faults_of_refuses {α : Type} {result : Except Session.Error α}
    (h : refuses result = true) : faults result = false ∧ result.isOk = false := by
  rcases result with reason | value
  · cases reason with
    | inference => cases h
    | _ => exact ⟨rfl, rfl⟩
  · cases h

theorem entry_of_refused {request : Request} (h : (s.perform request).isRefused = true) :
    let entry : Entry β := ⟨s, request, s.perform request⟩
    entry.clears = false ∧ entry.prompted = 0 ∧ entry.decodes = false := by
  intro entry
  obtain ⟨hfaults, hfailed⟩ := not_faults_of_refuses h
  refine ⟨?_, ?_, ?_⟩
  · cases request with
    | reload name directory =>
        rw [perform, (s.reloaded_reload name directory).not_refused] at h
        cases h
    | unload => cases h
    | resetChat => exact hfailed
    | prefill | decode => exact hfaults
    | evaluate => rfl
  · simp only [Entry.prompted, entry, (perform_of_refused h).2]
    cases s.chat <;> rfl
  · cases request with
    | decode => exact hfailed
    | _ => rfl

theorem exists_chat_of_accepted {request : Request} (h : ¬ (s.perform request).isRefused = true)
    (hreload : ∀ name directory, request ≠ .reload name directory) (hunload : request ≠ .unload) :
    ∃ chat, s.chat = some chat := by
  cases hchat : s.chat with
  | some chat => exact ⟨chat, rfl⟩
  | none =>
      rw [perform_of_unloaded hchat hreload hunload] at h
      exact absurd rfl h

theorem Ledger.perform (h : Ledger exact s prompted sampled unfed) (request : Request)
    (hcount : exact → Entry.CanCount ⟨s, request, s.perform request⟩) :
    let entry : Entry β := ⟨s, request, s.perform request⟩
    if entry.clears then ∀ exact', Ledger exact' (s.perform request).session 0 0 0
    else Ledger exact (s.perform request).session (prompted + entry.prompted)
      (sampled + entry.decodes.toNat) (unfed + entry.endsUnfed.toNat) := by
  intro entry
  by_cases hrefused : (s.perform request).isRefused = true
  · obtain ⟨hclears, hprompted, hdecodes⟩ := entry_of_refused hrefused
    rw [(perform_of_refused hrefused).1, hclears, hprompted, Entry.endsUnfed, hdecodes]
    exact h
  cases request with
  | reload name directory =>
      change ∀ exact', Ledger exact' (s.reload name directory).session 0 0 0
      intro exact'
      have hreloaded := s.reloaded_reload name directory
      generalize s.reload name directory = response at hreloaded
      cases hreloaded with
      | failed | brokeOff => exact ledger_none exact' rfl
      | loaded given =>
          obtain ⟨found, configured, ran, fits⟩ := given
          obtain ⟨-, rfl⟩ := Model.new_eq_ok fits
          exact ledger_of_blank rfl (Chat.blank_fresh _)
            (Chat.roomy_fresh exact' (Config.inWord_of_load configured).contextWindow)
  | unload => exact fun exact' => ledger_none exact' rfl
  | resetChat =>
      obtain ⟨chat, hchat⟩ := exists_chat_of_accepted hrefused (by simp) (by simp)
      simp only [entry, perform_resetChat hchat]
      exact fun exact' => ledger_of_blank rfl (Chat.blank_fresh _)
        (Chat.roomy_fresh exact' (h.roomy chat hchat).window)
  | prefill input =>
      obtain ⟨chat, hchat⟩ := exists_chat_of_accepted hrefused (by simp) (by simp)
      have houtcome := chat.prefilled_prefill input
      have hroomy := h.roomy chat hchat
      have hadvances := houtcome.advances fun hexact => hcount hexact chat input hchat rfl
      simp only [entry, perform_prefill hchat, Entry.clears, faults_map, Entry.prompted, hchat,
        filterMap_call_call]
      split
      · rw [if_pos ‹_›] at hadvances
        exact fun exact' => ledger_of_blank rfl hadvances
          ((houtcome.restarted ‹_›).roomy hroomy.window exact')
      · rw [if_neg ‹_›] at hadvances
        exact h.advance hchat hadvances
          (houtcome.feeds hroomy fun hexact => hcount hexact chat input hchat rfl).2
  | decode =>
      obtain ⟨chat, hchat⟩ := exists_chat_of_accepted hrefused (by simp) (by simp)
      have houtcome := chat.decoded_decode
      have hroomy := h.roomy chat hchat
      have hadvances := houtcome.advances hroomy
      simp only [entry, perform_decode hchat, Entry.clears, faults_map, Entry.prompted, hchat,
        filterMap_call_call, Entry.endsUnfed, Entry.decodes, isOk_map]
      split
      · rw [if_pos ‹_›] at hadvances
        exact fun exact' => ledger_of_blank rfl hadvances
          ((houtcome.restarted ‹_›).roomy hroomy.window exact')
      · rw [if_neg ‹_›] at hadvances
        exact h.advance hchat hadvances (houtcome.feeds hroomy 0).2
  | evaluate =>
      obtain ⟨chat, hchat⟩ := exists_chat_of_accepted hrefused (by simp) (by simp)
      obtain ⟨hwindow, hposition, hseal⟩ := h.roomy chat hchat
      simp only [entry, perform_evaluate hchat, Entry.prompted, hchat]
      exact h.advance hchat ⟨fun _ hn => hn, fun _ hn => hn, 0, rfl, fun _ hn => hn⟩
        ⟨hwindow, hposition, hseal⟩

theorem ledger_run (registry : Registry (Loader β)) (entropy : Nat → Nat → UInt32)
    (requests : List Request) :
    let since := current ((new registry entropy).log requests)
    Ledger (Exact since) ((new registry entropy).run requests).1 (since.map Entry.prompted).sum
      (since.countP Entry.decodes) (since.countP Entry.endsUnfed) := by
  apply run_induction (P := fun s _ log =>
    let since := current log
    Ledger (Exact since) s (since.map Entry.prompted).sum (since.countP Entry.decodes)
      (since.countP Entry.endsUnfed))
  · exact ledger_none _ rfl
  · intro s past log request ih
    let entry : Entry β := ⟨s, request, s.perform request⟩
    have hbefore : Exact (current log ++ [entry]) → Exact (current log) := fun hexact =>
      (exact_concat_iff.mp hexact).1
    have hledger := (ih.mono hbefore).perform request fun hexact => (exact_concat_iff.mp hexact).2
    dsimp only at hledger ⊢
    cases hclears : entry.clears with
    | true =>
        rw [if_pos hclears] at hledger
        rw [current_concat_of_clears log hclears]
        exact hledger _
    | false =>
        rw [if_neg (by simp [entry] at hclears; simp [hclears])] at hledger
        rw [current_concat log hclears, List.map_append, List.sum_append, countP_concat,
          countP_concat]
        exact hledger

end Session

end Dialogue
