import Dialogue.Proofs.Session.Course
import Dialogue.Proofs.Session.Origin
import Dialogue.Proofs.Session.Positions
import Dialogue.Proofs.Session.Refusal
import Dialogue.Proofs.Session.Replies

namespace Dialogue

open Text.Utf8 (known)
open Reply (firstStop)

/-- Calls of a turn by which tokens were sampled, the position they lead to, and whether the last
token was fed: every token before it was, each at the position after the one before, from wherever
the prompt ended. -/
inductive Spoken : List Call → List TokenId → Nat → Bool → Prop
  | prompt {calls : List Call} {position : Nat}
      (unsampled : calls.filterMap Call.sampled? = []) : Spoken calls [] position true
  | fed {calls : List Call} {tokens : List TokenId} {position : Nat} (token : TokenId)
      (answered : Bool) (earlier : Spoken calls tokens position true) :
      Spoken (calls ++ [.sample token] ++ [.forward (.tokens [token]) position answered])
        (tokens ++ [token]) (position + 1) true
  | left {calls : List Call} {tokens : List TokenId} {position : Nat} (token : TokenId)
      (earlier : Spoken calls tokens position true) :
      Spoken (calls ++ [.sample token]) (tokens ++ [token]) position false
  | evaluate {calls : List Call} {tokens : List TokenId} {position : Nat} {fed : Bool}
      (earlier : Spoken calls tokens position fed) :
      Spoken (calls ++ [.evaluate]) tokens position fed

section

variable (tokenizer : Tokenizer) (config : Config)

/-- Why a reply stops with its last token, which was due at a position, if it does. -/
def Exchange.verdict? (due : Nat) (e : Exchange) : Option StopReason :=
  if e.sampled.getLast?.any tokenizer.isEos then some .endOfSequence
  else if (firstStop config.template.stopStrings
      (known (tokenizer.bytes e.sampled))).isSome then some .stopString
  else if config.contextWindow ≤ due then some .contextWindow
  else if config.maxGenLength ≤ e.sampled.length then some .maxGenLength
  else none

end

variable {tokenizer : Tokenizer} {config : Config}

namespace Exchange

variable {e : Exchange} {due : Nat}

theorem verdict?_of_continues (h : Continues tokenizer config.template.stopStrings e.sampled) :
    e.verdict? tokenizer config due =
      if config.contextWindow ≤ due then some .contextWindow
      else if config.maxGenLength ≤ e.sampled.length then some .maxGenLength
      else none := by
  have heos : e.sampled.getLast?.any tokenizer.isEos = false := by
    rw [Option.any_eq_false]
    intro last hlast
    rw [h.eos last (List.mem_of_getLast? hlast)]
  rw [verdict?, heos, firstStop_eq_none_iff.mpr h.free]
  rfl

theorem Replied.verdict?_eq {text : String} {reason : StopReason}
    (h : e.Replied tokenizer config.template.stopStrings text) (hending : e.ending = some reason)
    (hfull : reason = .contextWindow → config.contextWindow ≤ due)
    (hlong : reason = .maxGenLength →
      due < config.contextWindow ∧ config.maxGenLength ≤ e.sampled.length) :
    e.verdict? tokenizer config due = some reason := by
  cases h with
  | endOfSequence ending sampled eos continues =>
      rw [verdict?, sampled, List.getLast?_concat, Option.any_some, if_pos eos, ← ending, hending]
  | stopString ending sampled eos continues stop =>
      rw [Reply.beforeStop_ofStops, Option.map_eq_some_iff] at stop
      obtain ⟨i, hi, -⟩ := stop
      have hlast : e.sampled.getLast?.any tokenizer.isEos = false := by
        rw [sampled, List.getLast?_concat, Option.any_some, eos]
      rw [verdict?, hlast, hi, ← hending, ending]
      rfl
  | complete ending sampled continues =>
      rw [verdict?_of_continues continues]
      cases reason with
      | endOfSequence => exact absurd hending ending.1
      | stopString => exact absurd hending ending.2
      | contextWindow => rw [if_pos (hfull rfl)]
      | maxGenLength =>
          obtain ⟨hroom, hlength⟩ := hlong rfl
          rw [if_neg (by omega), if_pos hlength]

theorem Replied.firstStop_dropLast {text : String}
    (h : e.Replied tokenizer config.template.stopStrings text)
    (hending : e.ending = some .stopString) :
    firstStop config.template.stopStrings (known (tokenizer.bytes e.sampled.dropLast)) = none := by
  cases h with
  | endOfSequence ending => cases ending.symm.trans hending
  | complete ending => exact absurd hending ending.2
  | stopString ending sampled eos continues stop =>
      rw [sampled, List.dropLast_concat, firstStop_eq_none_iff]
      exact continues.free

end Exchange

namespace Chat

variable {β : Type} [Backend β]

/-- A chat whose position is within the window as soon as the user's turn ends. -/
structure Within (chat : Chat β) : Prop where
  position : chat.conversation.isPrefilling = false →
    chat.conversation.position ≤ chat.model.config.contextWindow
  sealed : chat.conversation.isPrefilling = true →
    (chat.model.sealTokens = [] →
      chat.conversation.position ≤ chat.model.config.contextWindow) ∧
    addWord chat.conversation.position chat.model.sealTokens.length ≤
      chat.model.config.contextWindow

/-- Where the current turn stands by its course: what was decoded of it, and what was fed. -/
inductive Counts (chat : Chat β) : Transcript → Course β → Prop
  | idle {t : Transcript} {x : Course β} (turn : chat.conversation.progress = .idle) :
      Counts chat t x
  | prefilling {t : Transcript} {x : Course β} {parts : List Part} {logits : Option Logits}
      (turn : chat.conversation.progress = .prefilling parts logits)
      (unsampled : x.calls.filterMap Call.sampled? = []) (counted : x.decodes = 0) :
      Counts chat t x
  | decoding {e : Exchange} {earlier : Transcript} {x : Course β} {draft : Draft}
      (turn : chat.conversation.progress = .decoding draft)
      (generated : draft.generated = e.sampled.length) (counted : x.decodes = e.sampled.length)
      (short : e.sampled.length < chat.model.config.maxGenLength)
      (spoken : Spoken x.calls e.sampled chat.conversation.position true) :
      Counts chat (e :: earlier) x
  | stopped {e : Exchange} {earlier : Transcript} {x : Course β} {reply : Reply}
      {reason : StopReason} (turn : chat.conversation.progress = .stopped reply reason)
      (counted : x.decodes = e.sampled.length)
      (length : e.sampled.length ≤ chat.model.config.maxGenLength)
      (spoken : Spoken x.calls e.sampled chat.conversation.position
        (decide (reason = .maxGenLength)))
      (full : reason = .contextWindow →
        chat.model.config.contextWindow ≤ chat.conversation.position)
      (long : reason = .maxGenLength → e.sampled.length = chat.model.config.maxGenLength) :
      Counts chat (e :: earlier) x

variable {chat chat' : Chat β} {calls : List Call} {draft : Draft} {e : Exchange}
  {earlier : Transcript} {x : Course β}

theorem HandedOver.position_le (h : chat.HandedOver chat' calls draft) (hwithin : chat.Within) :
    chat'.conversation.position ≤ chat'.model.config.contextWindow := by
  rw [h.alike.config]
  cases h with
  | going turn => exact hwithin.position (by rw [Conversation.isPrefilling, turn])
  | bare turn empty =>
      exact (hwithin.sealed (by rw [Conversation.isPrefilling, turn])).1 empty
  | fed turn nonempty forward =>
      exact (hwithin.sealed (by rw [Conversation.isPrefilling, turn])).2

/-- Once a decode comes to sample, every token before was fed, and there may be one more. -/
structure Ready (chat : Chat β) (calls : List Call) (draft : Draft) (e : Exchange)
    (x : Course β) : Prop where
  generated : draft.generated = e.sampled.length
  counted : x.decodes = e.sampled.length
  short : e.sampled.length < chat.model.config.maxGenLength
  spoken : Spoken (x.calls ++ calls) e.sampled chat.conversation.position true

theorem HandedOver.ready (h : chat.HandedOver chat' calls draft)
    (hfollows : chat.Follows (e :: earlier)) (hcounts : chat.Counts (e :: earlier) x)
    (hlimit : 0 < chat.model.config.maxGenLength) : chat'.Ready calls draft e x := by
  have hfeeding := filterMap_sampled_of_feeding h.feeding
  have hconfig := h.alike.config
  cases h with
  | going turn =>
      cases hcounts with
      | decoding turn' generated counted short spoken =>
          cases turn.symm.trans turn'
          rw [← List.append_nil x.calls] at spoken
          exact ⟨generated, counted, short, spoken⟩
      | idle turn' | prefilling turn' | stopped turn' => cases turn.symm.trans turn'
  | bare turn | fed turn =>
      cases hcounts with
      | prefilling turn' unsampled' counted =>
          cases hfollows with
          | prefilling turn'' recorded asked unsampled going =>
              refine ⟨?_, ?_, ?_, ?_⟩
              · rw [unsampled]
                rfl
              · rw [unsampled, counted]
                rfl
              · rw [unsampled, hconfig]
                exact hlimit
              · rw [unsampled]
                apply Spoken.prompt
                rw [List.filterMap_append, unsampled', hfeeding, List.append_nil]
          | decoding turn'' | stopped turn'' => cases turn.symm.trans turn''
      | idle turn' | decoding turn' | stopped turn' => cases turn.symm.trans turn'

omit [Backend β] in
theorem Ready.ended {token : TokenId} {model : Model β} {reply : Reply} {reason : StopReason}
    {usage : Usage} (h : chat.Ready calls draft e x)
    (sample : chat.model.sample draft.logits = (some token, model))
    (absorb : absorb model chat.conversation.position draft.reply token = (reply, some reason)) :
    Counts { model, conversation := chat.conversation.stop reply reason, usage }
      (e.addReply [token] (some reason) :: earlier)
      { x.hear (calls ++ [.sample token]) with decodes := x.decodes + 1 } := by
  have hconfig := (Model.sample_spec sample).1.config
  have hlength : (e.addReply [token] (some reason)).sampled.length = e.sampled.length + 1 :=
    List.length_append
  have hspoken := Spoken.left token h.spoken
  have hshort := h.short
  rw [List.append_assoc] at hspoken
  have habsorbed := absorbed_of_absorb absorb
  refine .stopped rfl (by rw [hlength, h.counted]) ?_ ?_ ?_ ?_
  · rw [hlength, hconfig]
    exact hshort
  · cases habsorbed <;> exact hspoken
  · rintro rfl
    cases habsorbed with
    | contextWindow eos stop full => exact full
  · rintro rfl
    cases habsorbed

theorem Ready.fed {token : TokenId} {model model' : Model β} {reply : Reply} {call : Call}
    {logits : Logits} {usage : Usage} (h : chat.Ready calls draft e x)
    (hinWord : chat.model.config.InWord)
    (hwindow : chat.conversation.position < chat.model.config.contextWindow)
    (sample : chat.model.sample draft.logits = (some token, model))
    (forward : model.forward (.tokens [token]) chat.conversation.position =
      (model', call, .ok logits)) :
    let draft' : Draft := { reply, generated := addWord draft.generated 1, logits }
    Counts { model := model', conversation := settle model' chat.conversation draft', usage }
      (e.addReply [token] (settle model' chat.conversation draft').stopReason :: earlier)
      { x.hear (calls ++ [.sample token] ++ [call]) with decodes := x.decodes + 1 } := by
  intro draft'
  have hconfig := ((Model.sample_spec sample).1.trans (.of_forward forward)).config
  obtain ⟨-, -, answered, rfl⟩ := Model.forward_spec forward
  have hspoken := Spoken.fed token answered h.spoken
  have hshort := h.short
  rw [← hconfig] at hshort
  rw [List.append_assoc, List.append_assoc, ← List.append_assoc calls] at hspoken
  -- neither the tokens nor the positions are too many to be counted
  have hposition : addWord chat.conversation.position 1 = chat.conversation.position + 1 :=
    addWord_of_lt (Nat.lt_of_le_of_lt hwindow hinWord.contextWindow)
  have hdraft : draft'.generated = draft.generated + 1 := by
    apply addWord_of_lt
    rw [h.generated]
    exact Nat.lt_of_le_of_lt h.short hinWord.maxGenLength
  have hlength : ∀ ending, (e.addReply [token] ending).sampled.length = draft'.generated := by
    intro ending
    rw [Exchange.addReply, List.length_append, ← h.generated, hdraft]
    rfl
  have hcounted : x.decodes + 1 = draft'.generated := by
    rw [h.counted, ← h.generated, hdraft]
  have hgenerated : draft'.generated ≤ model'.config.maxGenLength := by
    rw [← hcounted, h.counted]
    exact hshort
  rcases settle_cases model' chat.conversation draft' with ⟨hlong, hsettle⟩ | ⟨hmore, hsettle⟩
  all_goals rw [hposition] at hsettle
  · rw [hsettle]
    refine .stopped rfl ?_ ?_ hspoken (by simp) ?_
    · rw [hlength, hcounted]
    · rw [hlength]
      exact hgenerated
    · intro _
      rw [hlength]
      exact Nat.le_antisymm hgenerated hlong
  · rw [hsettle]
    refine .decoding rfl ?_ ?_ ?_ hspoken
    · rw [hlength]
    · rw [hlength, hcounted]
    · rw [hlength]
      exact hmore

omit [Backend β] in
theorem Counts.addPart {t t' : Transcript} (h : chat.Counts t x)
    (hcalls : calls.filterMap Call.sampled? = []) (model : Model β) (part : Part)
    (positions : Nat) (logits : Option Logits) (usage : Usage) (backend : Option β) :
    Counts { model, conversation := chat.conversation.addPart part positions logits, usage } t'
      (if chat.conversation.isPrefilling then x.hear calls
        else { opening := backend, calls }) := by
  rw [Conversation.isPrefilling, Conversation.addPart]
  cases h with
  | idle turn | decoding turn | stopped turn =>
      rw [turn]
      exact .prefilling rfl hcalls rfl
  | prefilling turn unsampled counted =>
      rw [turn]
      refine .prefilling rfl ?_ counted
      rw [if_pos rfl, Course.hear, List.filterMap_append, unsampled, hcalls]
      rfl

theorem Counts.evaluate {t : Transcript} (h : chat.Counts t x) :
    chat.evaluate.chat.Counts t (x.hear [.evaluate]) := by
  cases h with
  | idle turn => exact .idle turn
  | prefilling turn unsampled counted =>
      refine .prefilling turn ?_ counted
      rw [Course.hear, List.filterMap_append, unsampled]
      rfl
  | decoding turn generated counted short spoken =>
      exact .decoding turn generated counted short spoken.evaluate
  | stopped turn counted length spoken full long =>
      exact .stopped turn counted length spoken.evaluate full long

theorem courseInvariant_counts :
    CourseInvariant fun (chat : Chat β) t x =>
      chat.Follows t ∧ chat.Within ∧
        (0 < chat.model.config.maxGenLength → chat.model.config.InWord → chat.Counts t x) where
  fresh model := ⟨.idle rfl rfl rfl, ⟨fun _ => Nat.zero_le _, nofun⟩, fun _ _ => .idle rfl⟩
  prefill h hpart hroom feed := by
    obtain ⟨hfollows, hwithin, hcounts⟩ := h
    obtain ⟨halike, hfeeding⟩ := Model.feed_spec feed
    refine ⟨hfollows.prefill hpart feed, ⟨?_, ?_⟩, fun hlimit hinWord => ?_⟩
    · intro hprefilling
      rw [addPart_isPrefilling] at hprefilling
      cases hprefilling
    · intro _
      dsimp only
      rw [addPart_position, halike.config, halike.sealTokens, addWord_assoc]
      refine ⟨fun hempty => ?_, hroom⟩
      simpa [hempty, addWord_eq] using hroom
    · rw [halike.config] at hlimit hinWord
      exact (hcounts hlimit hinWord).addPart (filterMap_sampled_of_feeding hfeeding) _ _ _ _ _ _
  ended h handed sample absorb := by
    obtain ⟨hfollows, hwithin, hcounts⟩ := h
    have hsampled := (Model.sample_spec sample).1
    refine ⟨hfollows.ended handed sample absorb, ⟨fun _ => ?_, nofun⟩, fun hlimit hinWord => ?_⟩
    · rw [hsampled.config]
      exact handed.position_le hwithin
    · obtain ⟨e, earlier, rfl, replying⟩ := handed.replying hfollows
      rw [(handed.alike.trans hsampled).config] at hlimit hinWord
      exact (handed.ready hfollows (hcounts hlimit hinWord) hlimit).ended sample absorb
  fed h handed sample absorb forward := by
    obtain ⟨hfollows, hwithin, hcounts⟩ := h
    have halike := (Model.sample_spec sample).1.trans (.of_forward forward)
    have hroom := room_of_absorb sample absorb
    refine ⟨hfollows.fed handed sample absorb forward, ⟨fun _ => ?_, ?_⟩, fun hlimit hinWord => ?_⟩
    · rw [settle_position, halike.config]
      exact Nat.le_trans (addWord_le _ _) hroom
    · intro hprefilling
      rw [settle_isPrefilling] at hprefilling
      cases hprefilling
    · obtain ⟨e, earlier, rfl, replying⟩ := handed.replying hfollows
      rw [(handed.alike.trans halike).config] at hlimit hinWord
      rw [← handed.alike.config] at hinWord
      exact (handed.ready hfollows (hcounts hlimit (handed.alike.config ▸ hinWord)) hlimit).fed
        hinWord hroom sample forward
  evaluate h := ⟨h.1, ⟨h.2.1.position, h.2.1.sealed⟩, fun hlimit hinWord =>
    (h.2.2 hlimit hinWord).evaluate⟩

end Chat

variable {β : Type} [Backend β]

namespace Exchange

/-- A reply that goes on: its tokens were all fed and give no reason to stop. -/
structure GoesOn (tokenizer : Tokenizer) (config : Config) (x : Course β) (position : Nat)
    (e : Exchange) : Prop where
  counted : x.decodes = e.sampled.length
  limits : 1 ≤ x.decodes ∧ x.decodes < config.maxGenLength
  eos : ∀ token ∈ e.sampled, tokenizer.isEos token = false
  spoken : Spoken x.calls e.sampled position true
  verdict : ∃ due, position = due + 1 ∧ e.verdict? tokenizer config due = none

/-- A reply that stopped, for the first reason that its last token gave. -/
structure StoppedFor (tokenizer : Tokenizer) (config : Config) (x : Course β) (position : Nat)
    (reason : StopReason) (e : Exchange) : Prop where
  counted : x.decodes = e.sampled.length
  limits : 1 ≤ x.decodes ∧ x.decodes ≤ config.maxGenLength
  spoken : Spoken x.calls e.sampled position (decide (reason = .maxGenLength))
  verdict : ∃ due, (position = due + if reason = .maxGenLength then 1 else 0) ∧
    e.verdict? tokenizer config due = some reason
  completed : reason = .stopString →
    firstStop config.template.stopStrings (known (tokenizer.bytes e.sampled.dropLast)) = none
  full : reason = .contextWindow → position = config.contextWindow
  long : reason = .maxGenLength → x.decodes = config.maxGenLength

end Exchange

theorem Spoken.length_le {calls : List Call} {tokens : List TokenId} {position : Nat} {fed : Bool}
    (h : Spoken calls tokens position fed) (hfed : fed = true) : tokens.length ≤ position := by
  induction h with
  | prompt unsampled => exact Nat.zero_le _
  | fed token answered earlier ih =>
      rw [List.length_append]
      exact Nat.succ_le_succ (ih rfl)
  | left token earlier ih => cases hfed
  | evaluate earlier ih => exact ih hfed

namespace Chat

variable {chat : Chat β} {t : Transcript} {x : Course β}

omit [Backend β] in
theorem Counts.goesOn (h : chat.Counts t x) (hfollows : chat.Follows t) (hwithin : chat.Within)
    {draft : Draft} (turn : chat.conversation.progress = .decoding draft) :
    ∃ e earlier, t = e :: earlier ∧
      e.GoesOn chat.model.tokenizer chat.model.config x chat.conversation.position := by
  cases h with
  | idle turn' | prefilling turn' | stopped turn' => cases turn.symm.trans turn'
  | @decoding e earlier _ _ turn' generated counted short spoken =>
      cases hfollows with
      | prefilling turn'' | stopped turn'' => cases turn.symm.trans turn''
      | decoding turn'' replying sampled going =>
          have hpos := List.length_pos_iff.mpr sampled
          have hposition := spoken.length_le rfl
          have hwindow := hwithin.position (by rw [Conversation.isPrefilling, turn])
          -- the last token was fed, so it was due at the position before
          refine ⟨e, earlier, rfl, counted, ⟨by omega, by omega⟩, replying.continues.eos, spoken,
            chat.conversation.position - 1, by omega, ?_⟩
          rw [Exchange.verdict?_of_continues replying.continues, if_neg (by omega),
            if_neg (by omega)]

omit [Backend β] in
theorem Counts.stoppedFor (h : chat.Counts t x) (hfollows : chat.Follows t)
    (hwithin : chat.Within) {reply : Reply} {reason : StopReason}
    (turn : chat.conversation.progress = .stopped reply reason) :
    ∃ e earlier, t = e :: earlier ∧
      e.StoppedFor chat.model.tokenizer chat.model.config x chat.conversation.position
        reason := by
  cases h with
  | idle turn' | prefilling turn' | decoding turn' => cases turn.symm.trans turn'
  | @stopped e earlier _ _ _ turn' counted length spoken full long =>
      cases turn.symm.trans turn'
      cases hfollows with
      | prefilling turn'' | decoding turn'' => cases turn.symm.trans turn''
      | stopped turn'' recorded history asked replied ending =>
          cases turn.symm.trans turn''
          have hpos := List.length_pos_iff.mpr replied.sampled_ne_nil
          have hwindow := hwithin.position (by rw [Conversation.isPrefilling, turn])
          refine ⟨e, earlier, rfl, counted, ⟨by omega, by omega⟩, spoken, ?_, ?_, ?_, ?_⟩
          · -- only a reply of the greatest length fed its last token, at the position before
            by_cases hreason : reason = .maxGenLength
            · have hlong := long hreason
              rw [decide_eq_true hreason] at spoken
              have hposition := spoken.length_le rfl
              refine ⟨chat.conversation.position - 1, by rw [if_pos hreason]; omega, ?_⟩
              exact replied.verdict?_eq ending (by simp [hreason]) fun _ => ⟨by omega, by omega⟩
            · refine ⟨chat.conversation.position, by rw [if_neg hreason]; rfl, ?_⟩
              exact replied.verdict?_eq ending full fun hmax => absurd hmax hreason
          · rintro rfl
            exact replied.firstStop_dropLast ending
          · intro hreason
            exact Nat.le_antisymm hwindow (full hreason)
          · intro hreason
            rw [counted]
            exact long hreason

end Chat

namespace Session

/-- Whether a call begins something else where a reply stopped: an input that is not refused, a new
conversation, or another model or none. -/
def Entry.reopens (entry : Entry β) : Bool :=
  match entry.request with
  | .prefill _ => !refuses entry.response.result
  | .reload .. | .unload | .resetChat => true
  | .decode | .evaluate => false

variable {s : Session β}

omit [Backend β] in
theorem exists_stopped (h : s.state = .stopped) :
    ∃ chat reply reason, s.chat = some chat ∧
      chat.conversation.progress = .stopped reply reason := by
  cases hchat : s.chat with
  | none => simp [state, hchat] at h
  | some chat =>
      have hprogress := progress_of_state hchat
      rw [h] at hprogress
      obtain ⟨reply, reason, hprogress⟩ := hprogress
      exact ⟨chat, reply, reason, rfl, hprogress⟩

theorem decode_of_stopped (h : s.state = .stopped) :
    (s.perform .decode).result = .error .alreadyStopped := by
  obtain ⟨chat, reply, reason, hchat, hprogress⟩ := exists_stopped h
  rw [perform_decode hchat, Chat.decode, hprogress]
  rfl

theorem stopped_of_perform (h : s.state = .stopped) {request : Request}
    (hreopens : Entry.reopens ⟨s, request, s.perform request⟩ = false) :
    (s.perform request).session.state = .stopped := by
  cases request with
  | reload | unload | resetChat => cases hreopens
  | prefill input =>
      rw [Entry.reopens, Bool.not_eq_false'] at hreopens
      rw [(perform_of_refused hreopens).1]
      exact h
  | decode =>
      have hrefused : (s.perform .decode).isRefused = true := by
        rw [Response.isRefused, decode_of_stopped h]
        rfl
      rw [(perform_of_refused hrefused).1]
      exact h
  | evaluate =>
      obtain ⟨chat, reply, reason, hchat, hprogress⟩ := exists_stopped h
      rw [perform_evaluate hchat, state]
      dsimp only
      rw [Chat.evaluate, hprogress]

theorem stopped_of_run (h : s.state = .stopped) {requests : List Request}
    (hreopens : ∀ entry ∈ s.log requests, entry.reopens = false) :
    (s.run requests).1.state = .stopped := by
  induction requests generalizing s with
  | nil => exact h
  | cons request rest ih =>
      rw [log, List.forall_mem_cons] at hreopens
      exact ih (stopped_of_perform h hreopens.1) hreopens.2

end Session

/-- A reply goes on exactly as long as nothing that can stop it has happened, and stops for the
first reason that applies to its last token: one that ends replies, a stop string that it
completed, no position left to feed it, or, once it was fed, the greatest length. It then stays
stopped. -/
theorem stop_discipline {registry : Registry (Loader β)} {entropy : Nat → Nat → UInt32}
    {requests : List Request} {chat : Chat β}
    (hchat : ((Session.new registry entropy).run requests).1.chat = some chat) :
    let s := ((Session.new registry entropy).run requests).1
    let t := Transcript.ofLog ((Session.new registry entropy).log requests)
    let x := Course.ofLog ((Session.new registry entropy).log requests)
    (s.state = .decoding →
      ∃ e earlier, t = e :: earlier ∧
        e.GoesOn chat.model.tokenizer chat.model.config x s.conversation.position) ∧
    (s.state = .stopped →
      ∃ reason e earlier, s.conversation.stopReason = some reason ∧ t = e :: earlier ∧
        e.StoppedFor chat.model.tokenizer chat.model.config x s.conversation.position reason ∧
        ∀ later, (∀ entry ∈ s.log later, entry.reopens = false) →
          ((s.run later).1.perform .decode).result = .error .alreadyStopped) := by
  intro s t x
  obtain ⟨hfollows, hwithin, hcounts⟩ := Chat.courseInvariant_counts.run hchat
  obtain ⟨name, directory, calls, -, horigin⟩ := Session.origin_of_run hchat
  -- a configuration that was loaded lets a reply have one token at least
  have hcounts := hcounts horigin.limits.1 horigin.inWord
  have hconversation : s.conversation = chat.conversation := Session.conversation_of_chat hchat
  rw [hconversation]
  constructor
  · intro hstate
    have hprogress := Session.progress_of_state (s := s) hchat
    rw [hstate] at hprogress
    obtain ⟨draft, hprogress⟩ := hprogress
    exact hcounts.goesOn hfollows hwithin hprogress
  · intro hstate
    obtain ⟨chat', reply, reason, hchat', hprogress⟩ := Session.exists_stopped hstate
    cases hchat.symm.trans hchat'
    obtain ⟨e, earlier, ht, hstopped⟩ := hcounts.stoppedFor hfollows hwithin hprogress
    refine ⟨reason, e, earlier, ?_, ht, hstopped, fun later hlater => ?_⟩
    · rw [Conversation.stopReason, hprogress]
    · exact Session.decode_of_stopped (Session.stopped_of_run hstate hlater)

/-- A reply of the greatest length. -/
theorem stop_discipline_steady :
    let tokenizer : Tokenizer :=
      { encode := fun _ => [0], tokenBytes := fun _ => [0x61], vocabSize := 1, bos := none
        eos := [] }
    let configFile := File.ofText "\x7b\"max_gen_len\":2\x7d"
    let requests := [Steady.load configFile, .prefill (.text "Hi"), .decode, .decode]
    let s := ((Session.new (Steady.registry tokenizer) fun _ _ => 0).run requests).1
    let t := Transcript.ofLog ((Session.new (Steady.registry tokenizer) fun _ _ => 0).log requests)
    let x := Course.ofLog ((Session.new (Steady.registry tokenizer) fun _ _ => 0).log requests)
    x.decodes = 2 ∧
      ∃ chat e earlier, s.chat = some chat ∧ t = e :: earlier ∧
        e.StoppedFor chat.model.tokenizer chat.model.config x s.conversation.position
          .maxGenLength := by
  intro tokenizer configFile requests s t x
  have hstate : s.state = .stopped := by decide +kernel
  have hreason : s.conversation.stopReason = some .maxGenLength := by decide +kernel
  obtain ⟨chat, reply, reason, hchat, -⟩ := Session.exists_stopped hstate
  obtain ⟨reason', e, earlier, hreason', ht, hstopped, -⟩ := (stop_discipline hchat).2 hstate
  cases hreason.symm.trans hreason'
  have hdecodes : x.decodes = 2 := by decide +kernel
  exact ⟨hdecodes, chat, e, earlier, hchat, ht, hstopped⟩

end Dialogue
