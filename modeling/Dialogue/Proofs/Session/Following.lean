import Dialogue.Proofs.Reply.Reading
import Dialogue.Proofs.Session.Run

namespace Dialogue

open Text.Utf8 (known)
open Reply (ofStops)

section

variable (tokenizer : Tokenizer) (stops : List String)

/-- Tokens after which a reply goes on: none ends it, and no stop string is in their text. -/
structure Continues (tokens : List TokenId) : Prop where
  eos : ∀ token ∈ tokens, tokenizer.isEos token = false
  free : Reply.Free (ofStops stops).stops (known (tokenizer.bytes tokens))

/-- What a reply that is over reads as. -/
inductive Exchange.Replied (e : Exchange) : String → Prop
  | endOfSequence {tokens : List TokenId} {last : TokenId}
      (ending : e.ending = some .endOfSequence) (sampled : e.sampled = tokens ++ [last])
      (eos : tokenizer.isEos last = true) (continues : Continues tokenizer stops tokens) :
      Replied e (tokenizer.decode tokens)
  | stopString {tokens : List TokenId} {last : TokenId} {before : List Char}
      (ending : e.ending = some .stopString) (sampled : e.sampled = tokens ++ [last])
      (eos : tokenizer.isEos last = false) (continues : Continues tokenizer stops tokens)
      (stop : Reply.beforeStop (ofStops stops).stops (known (tokenizer.bytes e.sampled)) =
        some before) :
      Replied e (String.ofList before)
  | complete (ending : e.ending ≠ some .endOfSequence ∧ e.ending ≠ some .stopString)
      (sampled : e.sampled ≠ []) (continues : Continues tokenizer stops e.sampled) :
      Replied e (tokenizer.decode e.sampled)

structure Exchange.Asked (e : Exchange) : Prop where
  nonempty : e.parts ≠ []
  texts : .text "" ∉ e.parts

/-- The history of exchanges that are over. -/
inductive Recorded : Transcript → List Turn → Prop
  | nil : Recorded [] []
  | cons {e : Exchange} {earlier : Transcript} {turns : List Turn} {text : String}
      (recorded : Recorded earlier turns) (asked : e.Asked)
      (replied : e.Replied tokenizer stops text) :
      Recorded (e :: earlier) (turns ++ [.user e.parts, .assistant text])

/-- The latest exchange waits for the next token of its reply. -/
structure Replying (history : List Turn) (reply : Reply) (e : Exchange) (earlier : Transcript) :
    Prop where
  recorded : ∃ turns, Recorded tokenizer stops earlier turns ∧ history = turns ++ [.user e.parts]
  asked : e.Asked
  continues : Continues tokenizer stops e.sampled
  reading : Reply.Reading (ofStops stops).stops (tokenizer.bytes e.sampled) reply

/-- A conversation stands where its transcript says. -/
inductive Follows (c : Conversation) : Transcript → Prop
  | idle (turn : c.progress = .idle) (history : c.history = []) (position : c.position = 0) :
      Follows c []
  | prefilling {e : Exchange} {earlier : Transcript} {logits : Option Logits}
      (turn : c.progress = .prefilling e.parts logits)
      (recorded : Recorded tokenizer stops earlier c.history) (asked : e.Asked)
      (unsampled : e.sampled = []) (going : e.ending = none) : Follows c (e :: earlier)
  | decoding {e : Exchange} {earlier : Transcript} {draft : Draft}
      (turn : c.progress = .decoding draft)
      (replying : Replying tokenizer stops c.history draft.reply e earlier)
      (sampled : e.sampled ≠ []) (going : e.ending = none) : Follows c (e :: earlier)
  | stopped {e : Exchange} {earlier : Transcript} {turns : List Turn} {reply : Reply}
      {reason : StopReason} (turn : c.progress = .stopped reply reason)
      (recorded : Recorded tokenizer stops earlier turns)
      (history : c.history = turns ++ [.user e.parts, .assistant reply.text]) (asked : e.Asked)
      (replied : e.Replied tokenizer stops reply.text) (ending : e.ending = some reason) :
      Follows c (e :: earlier)

end

variable {tokenizer : Tokenizer} {stops : List String}

theorem continues_nil : Continues tokenizer stops [] where
  eos := by simp
  free := Reply.free_nil fun _ => Reply.ne_nil_of_mem_ofStops

theorem Tokenizer.bytes_concat (tokens : List TokenId) (token : TokenId) :
    tokenizer.bytes (tokens ++ [token]) = tokenizer.bytes tokens ++ tokenizer.tokenBytes token := by
  rw [bytes_append]
  simp [bytes]

namespace Exchange

theorem Asked.of_piece {piece : Piece} (h : piece.part ≠ .text "") :
    Asked { pieces := [piece] } where
  nonempty := by simp [parts]
  texts := by simpa [parts] using h.symm

theorem parts_addPiece (e : Exchange) (piece : Piece) :
    parts { e with pieces := e.pieces ++ [piece] } = e.parts ++ [piece.part] := by
  simp [parts]

theorem Asked.addPiece {e : Exchange} (h : e.Asked) {piece : Piece}
    (hpart : piece.part ≠ .text "") : Asked { e with pieces := e.pieces ++ [piece] } where
  nonempty := by simp [parts_addPiece]
  texts := by
    rw [parts_addPiece, List.mem_append, List.mem_singleton, not_or]
    exact ⟨h.texts, hpart.symm⟩

theorem Replied.sampled_ne_nil {e : Exchange} {text : String}
    (h : e.Replied tokenizer stops text) : e.sampled ≠ [] := by
  cases h with
  | endOfSequence ending sampled => simp [sampled]
  | stopString ending sampled => simp [sampled]
  | complete ending sampled => exact sampled

end Exchange

namespace Replying

variable {history : List Turn} {reply : Reply} {e : Exchange} {earlier : Transcript}

theorem of_unsampled {turns : List Turn} (hrecorded : Recorded tokenizer stops earlier turns)
    (hasked : e.Asked) (hsampled : e.sampled = []) :
    Replying tokenizer stops (turns ++ [.user e.parts]) (ofStops stops) e earlier := by
  refine ⟨⟨turns, hrecorded, rfl⟩, hasked, ?_, ?_⟩
  · rw [hsampled]
    exact continues_nil
  · rw [hsampled]
    exact Reply.reading_ofStops stops

theorem flush_text (h : Replying tokenizer stops history reply e earlier) :
    reply.flush.text = tokenizer.decode e.sampled := by
  rw [Reply.text, h.reading.flush_shown]
  rfl

theorem push (h : Replying tokenizer stops history reply e earlier) {token : TokenId}
    (ending : Option StopReason) (eos : tokenizer.isEos token = false)
    (stop : (reply.push (tokenizer.tokenBytes token)).1 = false) :
    Replying tokenizer stops history (reply.push (tokenizer.tokenBytes token)).2
      (e.addReply [token] ending) earlier := by
  have hreading := h.reading.push (fun _ => Reply.ne_nil_of_mem_ofStops) stop
  rw [← Tokenizer.bytes_concat] at hreading
  refine ⟨h.recorded, ⟨h.asked.nonempty, h.asked.texts⟩, ⟨?_, hreading.free⟩, hreading⟩
  intro other hother
  rcases List.mem_append.mp hother with hother | hother
  · exact h.continues.eos other hother
  · rw [List.mem_singleton] at hother
    rwa [hother]

theorem replied_complete (h : Replying tokenizer stops history reply e earlier)
    (hending : e.ending ≠ some .endOfSequence ∧ e.ending ≠ some .stopString)
    (hsampled : e.sampled ≠ []) : e.Replied tokenizer stops reply.flush.text := by
  rw [h.flush_text]
  exact .complete hending hsampled h.continues

theorem replied_of_absorbed (h : Replying tokenizer stops history reply e earlier) {β : Type}
    {model : Model β} {position : Nat} {token : TokenId} {reply' : Reply} {reason : StopReason}
    (hmodel : model.tokenizer = tokenizer)
    (habsorbed : Chat.Absorbed model position reply token reply' (some reason)) :
    (e.addReply [token] (some reason)).Replied tokenizer stops reply'.flush.text := by
  subst hmodel
  cases habsorbed with
  | endOfSequence eos =>
      rw [h.flush_text]
      exact .endOfSequence rfl rfl eos h.continues
  | contextWindow eos stop full =>
      exact (h.push _ eos stop).replied_complete ⟨nofun, nofun⟩ (by simp [Exchange.addReply])
  | stopString eos stop =>
      -- nothing is held back or waits any more, so the flush adds nothing
      rw [h.reading.push_fst, Option.isSome_iff_exists] at stop
      obtain ⟨before, hbefore⟩ := stop
      obtain ⟨hshown, hheld, hwaiting⟩ := h.reading.shown_of_push hbefore
      have hflush : (reply.push (model.tokenizer.tokenBytes token)).2.flush.text =
          String.ofList before := by
        simp [Reply.flush, Reply.text, hshown, hheld, hwaiting, Text.Utf8.finish]
      rw [hflush]
      rw [← Tokenizer.bytes_concat] at hbefore
      exact .stopString rfl rfl eos h.continues hbefore

theorem follows_stop (h : Replying tokenizer stops history reply e earlier) {c : Conversation}
    {e' : Exchange} {reply' : Reply} {reason : StopReason}
    (hreplied : e'.Replied tokenizer stops reply'.flush.text) (hhistory : c.history = history)
    (hparts : e'.parts = e.parts) (hending : e'.ending = some reason) :
    Follows tokenizer stops (c.stop reply' reason) (e' :: earlier) := by
  obtain ⟨turns, hrecorded, rfl⟩ := h.recorded
  refine .stopped rfl hrecorded ?_ ⟨?_, ?_⟩ hreplied hending
  · simp [Conversation.stop, hhistory, hparts]
  · exact hparts ▸ h.asked.nonempty
  · exact hparts ▸ h.asked.texts

end Replying

theorem Follows.addPart {c : Conversation} {t : Transcript} (h : Follows tokenizer stops c t)
    {piece : Piece} (hpart : piece.part ≠ .text "") (positions : Nat) (logits : Option Logits) :
    Follows tokenizer stops (c.addPart piece.part positions logits) (t.addPiece piece) := by
  cases h with
  | idle turn history position =>
      rw [Conversation.addPart, turn]
      exact .prefilling rfl (by rw [history]; exact .nil) (.of_piece hpart) rfl rfl
  | @prefilling e earlier old turn recorded asked unsampled going =>
      have hturn : (c.addPart piece.part positions logits).progress =
          .prefilling (e.parts ++ [piece.part]) (logits.or old) := by
        rw [Conversation.addPart, turn]
      have hhistory : (c.addPart piece.part positions logits).history = c.history := by
        rw [Conversation.addPart, turn]
      rw [Transcript.addPiece, if_pos unsampled]
      rw [← Exchange.parts_addPiece] at hturn
      exact .prefilling hturn (hhistory ▸ recorded) (asked.addPiece hpart) unsampled going
  | decoding turn replying sampled going =>
      rw [Conversation.addPart, turn, Transcript.addPiece, if_neg sampled]
      obtain ⟨turns, hrecorded, hhistory⟩ := replying.recorded
      have hreplied := replying.replied_complete (by simp [going]) sampled
      refine .prefilling rfl ?_ (.of_piece hpart) rfl rfl
      simpa [hhistory] using hrecorded.cons replying.asked hreplied
  | stopped turn recorded history asked replied ending =>
      rw [Conversation.addPart, turn, Transcript.addPiece, if_neg replied.sampled_ne_nil]
      refine .prefilling rfl ?_ (.of_piece hpart) rfl rfl
      rw [history]
      exact recorded.cons asked replied

namespace Chat

variable {β : Type} [Backend β]

def Follows (chat : Chat β) (t : Transcript) : Prop :=
  Dialogue.Follows chat.model.tokenizer chat.model.config.template.stopStrings chat.conversation t

theorem HandedOver.replying {chat chat' : Chat β} {calls : List Call} {draft : Draft}
    {t : Transcript} (h : chat.HandedOver chat' calls draft) (hfollows : chat.Follows t) :
    ∃ e earlier, t = e :: earlier ∧
      Replying chat'.model.tokenizer chat'.model.config.template.stopStrings
        chat'.conversation.history draft.reply e earlier := by
  have halike := h.alike
  rw [halike.tokenizer, halike.config]
  cases h with
  | going turn =>
      cases hfollows with
      | decoding turn' replying =>
          cases turn.symm.trans turn'
          exact ⟨_, _, rfl, replying⟩
      | idle turn' | prefilling turn' | stopped turn' => cases turn.symm.trans turn'
  | bare turn empty =>
      cases hfollows with
      | prefilling turn' recorded asked unsampled =>
          cases turn.symm.trans turn'
          exact ⟨_, _, rfl, .of_unsampled recorded asked unsampled⟩
      | idle turn' | decoding turn' | stopped turn' => cases turn.symm.trans turn'
  | fed turn nonempty forward =>
      cases hfollows with
      | prefilling turn' recorded asked unsampled =>
          cases turn.symm.trans turn'
          dsimp only
          rw [(Model.Alike.of_forward forward).config]
          exact ⟨_, _, rfl, .of_unsampled recorded asked unsampled⟩
      | idle turn' | decoding turn' | stopped turn' => cases turn.symm.trans turn'

omit [Backend β] in
theorem follows_settle {model : Model β} {c : Conversation} {draft : Draft} {e : Exchange}
    {earlier : Transcript} {token : TokenId}
    (h : ∀ ending, Replying model.tokenizer model.config.template.stopStrings c.history draft.reply
      (e.addReply [token] ending) earlier) :
    Dialogue.Follows model.tokenizer model.config.template.stopStrings (settle model c draft)
      (e.addReply [token] (settle model c draft).stopReason :: earlier) := by
  rcases settle_cases model c draft with ⟨-, hsettle⟩ | ⟨-, hsettle⟩
  · rw [hsettle]
    have hreplied := (h (some .maxGenLength)).replied_complete ⟨nofun, nofun⟩
      (by simp [Exchange.addReply])
    exact (h _).follows_stop hreplied rfl rfl rfl
  · rw [hsettle]
    exact .decoding rfl (h _) (by simp [Exchange.addReply]) rfl

theorem Follows.prefill {chat : Chat β} {t : Transcript} {piece : Piece} {model : Model β}
    {calls : List Call} {last logits : Option Logits} {inputs : List (Input × Nat)}
    {positions : Nat} {usage : Usage} (h : chat.Follows t) (hpart : piece.part ≠ .text "")
    (feed : chat.model.feed chat.conversation.position inputs = ⟨model, calls, .ok last⟩) :
    Follows { model, conversation := chat.conversation.addPart piece.part positions logits, usage }
      (t.addPiece piece) := by
  have halike := Model.Alike.of_feed feed
  rw [Follows, halike.tokenizer, halike.config]
  exact h.addPart hpart positions logits

theorem Follows.ended {chat chat' : Chat β} {t : Transcript} {calls : List Call} {draft : Draft}
    {token : TokenId} {model : Model β} {reply : Reply} {reason : StopReason} {usage : Usage}
    (h : chat.Follows t) (handed : chat.HandedOver chat' calls draft)
    (sample : chat'.model.sample draft.logits = (some token, model))
    (absorb : absorb model chat'.conversation.position draft.reply token = (reply, some reason)) :
    Follows { model, conversation := chat'.conversation.stop reply reason, usage }
      (t.addReply [token] (some reason)) := by
  obtain ⟨e, earlier, rfl, replying⟩ := handed.replying h
  have halike := (Model.sample_spec sample).1
  have hreplied := replying.replied_of_absorbed halike.tokenizer (absorbed_of_absorb absorb)
  rw [Follows, halike.tokenizer, halike.config]
  exact replying.follows_stop hreplied rfl rfl rfl

theorem Follows.fed {chat chat' : Chat β} {t : Transcript} {calls : List Call} {draft : Draft}
    {token : TokenId} {model model' : Model β} {reply : Reply} {call : Call} {logits : Logits}
    {generated : Nat} {usage : Usage} (h : chat.Follows t)
    (handed : chat.HandedOver chat' calls draft)
    (sample : chat'.model.sample draft.logits = (some token, model))
    (absorb : absorb model chat'.conversation.position draft.reply token = (reply, none))
    (forward : model.forward (.tokens [token]) chat'.conversation.position =
      (model', call, .ok logits)) :
    Follows
      { model := model'
        conversation := settle model' chat'.conversation { reply, generated, logits }, usage }
      (t.addReply [token]
        (settle model' chat'.conversation { reply, generated, logits }).stopReason) := by
  obtain ⟨e, earlier, rfl, replying⟩ := handed.replying h
  have hsampled := (Model.sample_spec sample).1
  have halike := hsampled.trans (.of_forward forward)
  cases absorbed_of_absorb absorb with
  | goesOn eos stop room =>
      rw [hsampled.tokenizer] at eos stop ⊢
      apply follows_settle
      intro ending
      rw [halike.tokenizer, halike.config]
      exact replying.push ending eos stop

theorem stepInvariant_follows :
    StepInvariant fun (chat : Chat β) (_ : List Call) t => chat.Follows t where
  fresh _ := .idle rfl rfl rfl
  prefill h hpart feed := h.prefill hpart feed
  ended h handed sample absorb := h.ended handed sample absorb
  fed h handed sample absorb forward := h.fed handed sample absorb forward
  evaluate h := h

end Chat

end Dialogue
