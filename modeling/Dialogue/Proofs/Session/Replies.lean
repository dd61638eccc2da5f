import Dialogue.Proofs.Session.Following

namespace Dialogue

open Text.Utf8 (known replacement)
open Reply (firstStop ofStops Free)

section

variable (tokenizer : Tokenizer) (stops : List String)

/-- A text up to the first stop string in it. -/
def Reply.cut (text : List Char) : List Char :=
  match firstStop stops text with
  | some i => text.take i
  | none => text

namespace Exchange

/-- The tokens sampled for the reply, without a last one that ends replies. -/
def spoken (e : Exchange) : List TokenId :=
  if e.sampled.getLast?.any tokenizer.isEos then e.sampled.dropLast else e.sampled

def reply (e : Exchange) : String :=
  if e.ending = some .stopString then
    String.ofList (Reply.cut stops (known (tokenizer.bytes (e.spoken tokenizer))))
  else tokenizer.decode (e.spoken tokenizer)

end Exchange

namespace Transcript

def turns : Transcript → List Turn
  | [] => []
  | e :: earlier => turns earlier ++ [.user e.parts, .assistant (e.reply tokenizer stops)]

/-- The turns that are over: the user's once a token was sampled, the reply once it stopped or the
next turn began. -/
def history : Transcript → List Turn
  | [] => []
  | e :: earlier =>
    turns tokenizer stops earlier ++
      if e.sampled = [] then []
      else if e.ending = none then [.user e.parts]
      else [.user e.parts, .assistant (e.reply tokenizer stops)]

end Transcript

end

variable {tokenizer : Tokenizer} {stops : List String}

theorem firstStop_eq_none_iff {text : List Char} :
    firstStop stops text = none ↔ Free (ofStops stops).stops text := by
  rw [← Reply.beforeStop_eq_none_iff fun _ => Reply.ne_nil_of_mem_ofStops,
    Reply.beforeStop_ofStops, Option.map_eq_none_iff]

theorem not_infix_of_free {text : List Char} (h : Free (ofStops stops).stops text) {stop : String}
    (hstop : stop ∈ stops) (hne : stop ≠ "") : ¬ stop.toList <:+: text := by
  refine h _ (Reply.mem_stops_ofStops.mpr ⟨?_, stop, hstop, rfl⟩)
  rwa [ne_eq, String.toList_eq_nil_iff]

theorem free_decode {tokens : List TokenId} (h : Continues tokenizer stops tokens)
    (hlast : ∀ stop ∈ stops, stop.toList.getLast? ≠ some replacement) :
    Free (ofStops stops).stops (tokenizer.decode tokens).toList := by
  rw [Tokenizer.decode, String.toList_ofList]
  refine Reply.free_lossy (fun _ => Reply.ne_nil_of_mem_ofStops) ?_ h.free
  intro s hs
  obtain ⟨-, stop, hstop, rfl⟩ := Reply.mem_stops_ofStops.mp hs
  exact hlast stop hstop

namespace Exchange

variable {e : Exchange}

theorem spoken_of_continues (h : Continues tokenizer stops e.sampled) :
    e.spoken tokenizer = e.sampled := by
  rw [spoken, if_neg]
  rw [Option.any_eq_true]
  rintro ⟨last, hlast, heos⟩
  rw [h.eos last (List.mem_of_getLast? hlast)] at heos
  cases heos

theorem spoken_concat {tokens : List TokenId} {last : TokenId}
    (h : e.sampled = tokens ++ [last]) :
    e.spoken tokenizer = if tokenizer.isEos last then tokens else e.sampled := by
  rw [spoken, h, List.getLast?_concat, List.dropLast_concat, Option.any_some]

namespace Replied

variable {text : String}

theorem eq_reply (h : e.Replied tokenizer stops text) : text = e.reply tokenizer stops := by
  cases h with
  | endOfSequence ending sampled eos continues =>
      rw [reply, ending, if_neg nofun, spoken_concat sampled, if_pos eos]
  | stopString ending sampled eos continues stop =>
      rw [Reply.beforeStop_ofStops, Option.map_eq_some_iff] at stop
      obtain ⟨i, hi, rfl⟩ := stop
      rw [reply, if_pos ending, spoken_concat sampled, eos, if_neg nofun, Reply.cut, hi]
  | complete ending sampled continues =>
      rw [reply, if_neg ending.2, spoken_of_continues continues]

theorem firstStop_spec (h : e.Replied tokenizer stops text)
    (hending : e.ending = some .stopString) :
    (firstStop stops (known (tokenizer.bytes (e.spoken tokenizer)))).isSome = true ∧
      firstStop stops (known (tokenizer.bytes (e.spoken tokenizer).dropLast)) = none := by
  cases h with
  | endOfSequence ending => cases ending.symm.trans hending
  | complete ending => exact absurd hending ending.2
  | stopString ending sampled eos continues stop =>
      have hspoken : e.spoken tokenizer = e.sampled := by
        rw [spoken_concat sampled, eos, if_neg nofun]
      rw [Reply.beforeStop_ofStops, Option.map_eq_some_iff] at stop
      obtain ⟨i, hi, -⟩ := stop
      rw [hspoken, hi]
      rw [sampled, List.dropLast_concat, firstStop_eq_none_iff]
      exact ⟨rfl, continues.free⟩

theorem free (h : e.Replied tokenizer stops text)
    (hlast : ∀ stop ∈ stops, stop.toList.getLast? ≠ some replacement) :
    Free (ofStops stops).stops text.toList := by
  cases h with
  | endOfSequence ending sampled eos continues => exact free_decode continues hlast
  | complete ending sampled continues => exact free_decode continues hlast
  | stopString ending sampled eos continues stop =>
      rw [String.toList_ofList]
      exact Reply.free_of_beforeStop (fun _ => Reply.ne_nil_of_mem_ofStops) stop

end Replied

end Exchange

namespace Recorded

variable {t : Transcript} {turns : List Turn}

theorem eq_turns (h : Recorded tokenizer stops t turns) : turns = t.turns tokenizer stops := by
  induction h with
  | nil => rfl
  | cons recorded asked replied ih => rw [Transcript.turns, ← ih, ← replied.eq_reply]

theorem exists_replied (h : Recorded tokenizer stops t turns) {e : Exchange} (he : e ∈ t) :
    ∃ text, e.Replied tokenizer stops text := by
  induction h with
  | nil => cases he
  | cons recorded asked replied ih =>
      rcases List.mem_cons.mp he with rfl | he
      · exact ⟨_, replied⟩
      · exact ih he

theorem free (h : Recorded tokenizer stops t turns)
    (hlast : ∀ stop ∈ stops, stop.toList.getLast? ≠ some replacement) {text : String}
    (htext : .assistant text ∈ turns) : Free (ofStops stops).stops text.toList := by
  induction h with
  | nil => cases htext
  | cons recorded asked replied ih =>
      rcases List.mem_append.mp htext with htext | htext
      · exact ih htext
      · simp only [List.mem_cons, List.not_mem_nil, or_false] at htext
        rcases htext with huser | hassistant
        · cases huser
        · cases hassistant
          exact replied.free hlast

end Recorded

namespace Follows

variable {c : Conversation} {t : Transcript}

theorem history_eq (h : Follows tokenizer stops c t) : c.history = t.history tokenizer stops := by
  cases h with
  | idle turn history position => exact history
  | prefilling turn recorded asked unsampled going =>
      rw [Transcript.history, if_pos unsampled, List.append_nil]
      exact recorded.eq_turns
  | decoding turn replying sampled going =>
      obtain ⟨turns, recorded, hhistory⟩ := replying.recorded
      rw [Transcript.history, if_neg sampled, if_pos going, hhistory, recorded.eq_turns]
  | stopped turn recorded history asked replied ending =>
      rw [Transcript.history, if_neg replied.sampled_ne_nil, if_neg (by simp [ending]), history,
        recorded.eq_turns, ← replied.eq_reply]

theorem exists_replied (h : Follows tokenizer stops c t) {e : Exchange} (he : e ∈ t)
    (hending : e.ending ≠ none) : ∃ text, e.Replied tokenizer stops text := by
  cases h with
  | idle turn history position => cases he
  | prefilling turn recorded asked unsampled going =>
      rcases List.mem_cons.mp he with rfl | he
      · exact absurd going hending
      · exact recorded.exists_replied he
  | decoding turn replying sampled going =>
      obtain ⟨turns, recorded, -⟩ := replying.recorded
      rcases List.mem_cons.mp he with rfl | he
      · exact absurd going hending
      · exact recorded.exists_replied he
  | stopped turn recorded history asked replied ending =>
      rcases List.mem_cons.mp he with rfl | he
      · exact ⟨_, replied⟩
      · exact recorded.exists_replied he

theorem message_of_stopReason (h : Follows tokenizer stops c t) {reason : StopReason}
    (hreason : c.stopReason = some reason) :
    ∃ e earlier, t = e :: earlier ∧ e.ending = some reason ∧
      c.message = e.reply tokenizer stops := by
  rw [Conversation.stopReason] at hreason
  cases h with
  | stopped turn recorded history asked replied ending =>
      rw [turn, Option.some.injEq] at hreason
      subst hreason
      refine ⟨_, _, rfl, ending, ?_⟩
      rw [Conversation.message, turn]
      exact replied.eq_reply
  | idle turn | prefilling turn | decoding turn =>
      rw [turn] at hreason
      cases hreason

theorem message_free (h : Follows tokenizer stops c t)
    (hlast : ∀ stop ∈ stops, stop.toList.getLast? ≠ some replacement) :
    Free (ofStops stops).stops c.message.toList := by
  have hempty : Free (ofStops stops).stops [] :=
    Reply.free_nil fun _ => Reply.ne_nil_of_mem_ofStops
  rw [Conversation.message]
  cases h with
  | idle turn | prefilling turn =>
      rw [turn]
      exact hempty
  | decoding turn replying sampled going =>
      rw [turn]
      dsimp only
      rw [Reply.text, String.toList_ofList]
      exact replying.reading.shown_free
  | stopped turn recorded history asked replied ending =>
      rw [turn]
      exact replied.free hlast

theorem history_free (h : Follows tokenizer stops c t)
    (hlast : ∀ stop ∈ stops, stop.toList.getLast? ≠ some replacement) {text : String}
    (htext : .assistant text ∈ c.history) : Free (ofStops stops).stops text.toList := by
  cases h with
  | idle turn history position =>
      rw [history] at htext
      cases htext
  | prefilling turn recorded asked unsampled going => exact recorded.free hlast htext
  | decoding turn replying sampled going =>
      obtain ⟨turns, recorded, hhistory⟩ := replying.recorded
      rw [hhistory, List.mem_append, List.mem_singleton] at htext
      rcases htext with htext | huser
      · exact recorded.free hlast htext
      · cases huser
  | stopped turn recorded history asked replied ending =>
      rw [history] at htext
      exact (recorded.cons asked replied).free hlast htext

end Follows

variable {β : Type} [Backend β]

/-- Whether a call leaves the turn: it begins another conversation or the user's next turn, or a
fault of the model ends the conversation. -/
def Session.Entry.leavesTurn (entry : Session.Entry β) : Prop :=
  match entry.request, entry.response.result with
  | .prefill _, .ok _ => entry.before.state ≠ .prefilling
  | .prefill _, .error (.inference ..) | .decode, .error (.inference ..) => True
  | .prefill _, .error _ | .decode, _ | .evaluate, _ => False
  | .reload .., _ | .unload, _ | .resetChat, _ => True

namespace Chat

theorem HandedOver.message_grows {chat chat' : Chat β} {calls : List Call} {draft : Draft}
    (h : chat.HandedOver chat' calls draft) :
    chat.conversation.message.toList <+: draft.reply.shown := by
  rw [Conversation.message]
  cases h with
  | going turn =>
      rw [turn]
      dsimp only
      rw [Reply.text, String.toList_ofList]
  | bare turn | fed turn =>
      rw [turn]
      exact List.nil_prefix

omit [Backend β] in
theorem Absorbed.shown_grows {model : Model β} {position : Nat} {reply reply' : Reply}
    {token : TokenId} {reason : Option StopReason}
    (h : Absorbed model position reply token reply' reason) : reply.shown <+: reply'.shown := by
  cases h with
  | endOfSequence => exact List.prefix_rfl
  | stopString | contextWindow | goesOn => exact reply.shown_prefix_push _

omit [Backend β] in
theorem message_stop (c : Conversation) (reply : Reply) (reason : StopReason) :
    (c.stop reply reason).message.toList = reply.flush.shown := by
  rw [Conversation.message, Conversation.stop]
  dsimp only
  rw [Reply.text, String.toList_ofList]

omit [Backend β] in
theorem shown_prefix_message_settle (model : Model β) (c : Conversation) (draft : Draft) :
    draft.reply.shown <+: (settle model c draft).message.toList := by
  rcases settle_cases model c draft with ⟨-, h⟩ | ⟨-, h⟩
  · rw [h, message_stop]
    exact draft.reply.shown_prefix_flush
  · rw [h, Conversation.message]
    dsimp only
    rw [Reply.text, String.toList_ofList]

theorem Decoded.message_grows {chat : Chat β} {outcome : Outcome β Unit}
    (h : chat.Decoded outcome)
    (hfault : ∀ stage reason, outcome.result ≠ .error (.inference stage reason)) :
    chat.conversation.message.toList <+: outcome.chat.conversation.message.toList := by
  cases h with
  | refused refusal => exact List.prefix_rfl
  | failed turn nonempty forward => exact absurd rfl (hfault _ _)
  | @sampled chat' calls draft outcome handed extended =>
      have hshown := handed.message_grows
      cases extended with
      | unsampled sample => exact absurd rfl (hfault _ _)
      | failed sample absorb forward => exact absurd rfl (hfault _ _)
      | @ended token model reply reason sample absorb =>
          have habsorbed := (absorbed_of_absorb absorb).shown_grows
          rw [message_stop]
          exact (hshown.trans habsorbed).trans reply.shown_prefix_flush
      | @fed token model model' reply call logits sample absorb forward =>
          have habsorbed := (absorbed_of_absorb absorb).shown_grows
          have hsettle := shown_prefix_message_settle model' chat'.conversation
            { reply, generated := addWord draft.generated 1, logits }
          exact (hshown.trans habsorbed).trans hsettle

theorem Prefilled.message_grows {chat : Chat β} {input : Prompt} {outcome : Outcome β Unit}
    (h : chat.Prefilled input outcome)
    (hfault : ∀ stage reason, outcome.result ≠ .error (.inference stage reason))
    (hopen : outcome.result = .ok () → chat.conversation.isPrefilling = true) :
    chat.conversation.message.toList <+: outcome.chat.conversation.message.toList := by
  cases h with
  | refused refusal => exact List.prefix_rfl
  | failed planned feed => exact absurd rfl (hfault _ _)
  | fed planned feed =>
      have hprefilling := hopen rfl
      rw [Conversation.isPrefilling] at hprefilling
      rw [Conversation.message]
      cases hprogress : chat.conversation.progress with
      | prefilling parts logits => exact List.nil_prefix
      | idle | decoding | stopped => simp [hprogress] at hprefilling

end Chat

namespace Session

theorem message_grows_perform {s : Session β} {request : Request}
    (h : ¬ Entry.leavesTurn ⟨s, request, s.perform request⟩) :
    s.conversation.message.toList <+:
      (s.perform request).session.conversation.message.toList := by
  cases hchat : s.chat with
  | none =>
      have hmessage : s.conversation.message = "" := by simp [conversation, hchat]; rfl
      rw [hmessage]
      exact List.nil_prefix
  | some chat =>
      rw [conversation_of_chat hchat]
      cases request with
      | reload | unload | resetChat => exact absurd trivial h
      | evaluate =>
          rw [perform_evaluate hchat, conversation_of_chat rfl]
          exact List.prefix_rfl
      | decode =>
          rw [perform_decode hchat] at h ⊢
          rw [conversation_of_chat rfl]
          refine chat.decoded_decode.message_grows fun stage reason hresult => ?_
          simp [Entry.leavesTurn, hresult, Except.map] at h
      | prefill input =>
          rw [perform_prefill hchat] at h ⊢
          rw [conversation_of_chat rfl]
          refine (chat.prefilled_prefill input).message_grows (fun stage reason hresult => ?_) ?_
          · simp [Entry.leavesTurn, hresult, Except.map] at h
          · intro hresult
            simp only [Entry.leavesTurn, hresult, Except.map, ne_eq, not_not] at h
            exact isPrefilling_of_state hchat h

theorem message_grows_run {s : Session β} {requests : List Request}
    (h : ∀ entry ∈ s.log requests, ¬ entry.leavesTurn) :
    s.conversation.message.toList <+: (s.run requests).1.conversation.message.toList := by
  induction requests generalizing s with
  | nil => exact List.prefix_rfl
  | cons request rest ih =>
      rw [log, List.forall_mem_cons] at h
      exact (message_grows_perform h.1).trans (ih h.2)

end Session

/-- Replies that are over read as the tokens sampled for them, cut at the first stop string if it
ended them; while a reply stands stopped that is what can be read of it. Within a turn what can be
read only grows, and no stop string appears in it or in the history, unless one ends in U+FFFD. -/
theorem replies_decode {registry : Registry (Loader β)} {entropy : Nat → Nat → UInt32}
    {requests : List Request} {chat : Chat β}
    (hchat : ((Session.new registry entropy).run requests).1.chat = some chat) :
    let s := ((Session.new registry entropy).run requests).1
    let t := Transcript.ofLog ((Session.new registry entropy).log requests)
    let tokenizer := chat.model.tokenizer
    let stops := chat.model.config.template.stopStrings
    s.conversation.history = t.history tokenizer stops ∧
    (∀ e ∈ t, e.ending = some .stopString →
      (firstStop stops (known (tokenizer.bytes (e.spoken tokenizer)))).isSome = true ∧
        firstStop stops (known (tokenizer.bytes (e.spoken tokenizer).dropLast)) = none) ∧
    (∀ reason, s.conversation.stopReason = some reason →
      ∃ e earlier, t = e :: earlier ∧ e.ending = some reason ∧
        s.conversation.message = e.reply tokenizer stops) ∧
    (∀ later, (∀ entry ∈ s.log later, ¬ entry.leavesTurn) →
      s.conversation.message.toList <+: (s.run later).1.conversation.message.toList) ∧
    ((∀ stop ∈ stops, stop.toList.getLast? ≠ some replacement) →
      ∀ stop ∈ stops, stop ≠ "" →
        ¬ stop.toList <:+: s.conversation.message.toList ∧
          ∀ text, .assistant text ∈ s.conversation.history → ¬ stop.toList <:+: text.toList) := by
  intro s t tokenizer stops
  have hfollows : Follows tokenizer stops chat.conversation t :=
    Chat.stepInvariant_follows.invariant.run hchat
  have hconversation : s.conversation = chat.conversation := Session.conversation_of_chat hchat
  rw [hconversation]
  refine ⟨hfollows.history_eq, ?_, ?_, ?_, ?_⟩
  · intro e he hending
    obtain ⟨text, hreplied⟩ := hfollows.exists_replied he (by simp [hending])
    exact hreplied.firstStop_spec hending
  · intro reason hreason
    exact hfollows.message_of_stopReason hreason
  · intro later hlater
    rw [← hconversation]
    exact Session.message_grows_run hlater
  · intro hlast stop hstop hne
    refine ⟨not_infix_of_free (hfollows.message_free hlast) hstop hne, ?_⟩
    intro text htext
    exact not_infix_of_free (hfollows.history_free hlast htext) hstop hne

theorem replies_decode_steady :
    let tokenizer : Tokenizer :=
      { encode := fun _ => [0], tokenBytes := fun _ => "Hi</s>".toUTF8.toList, vocabSize := 1
        bos := none, eos := [] }
    ∃ chat,
      ((Session.new (Steady.registry tokenizer) fun _ _ => 0).run
        (Steady.requests none (.text "Hello"))).1.chat = some chat ∧
      ((Session.new (Steady.registry tokenizer) fun _ _ => 0).run
        (Steady.requests none (.text "Hello"))).1.conversation.message = "Hi" ∧
      ((Session.new (Steady.registry tokenizer) fun _ _ => 0).run
          (Steady.requests none (.text "Hello"))).1.conversation.history =
        (Transcript.ofLog ((Session.new (Steady.registry tokenizer) fun _ _ => 0).log
          (Steady.requests none (.text "Hello")))).history
            chat.model.tokenizer chat.model.config.template.stopStrings := by
  intro tokenizer
  have hvocabulary : tokenizer.vocabSize = 1 := rfl
  have hconfig : (Config.load none).toOption.any
      (·.sampling.penaltyWindow < Stage.windowLimit) = true := by decide +kernel
  obtain ⟨chat, hchat, -⟩ :=
    Steady.exists_chat (fun _ _ => 0) hvocabulary none hconfig (.text "Hello")
  have hreplies := replies_decode hchat
  exact ⟨chat, hchat, by decide +kernel, hreplies.1⟩

end Dialogue
