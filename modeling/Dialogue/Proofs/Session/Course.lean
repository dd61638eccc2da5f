import Dialogue.Proofs.Session.Run

/-!
The course of a turn, read off the log of a run: the backend as it was when the user's turn was
opened, the calls that it received since, and the number of decodes that succeeded. Of what a
conversation keeps, only whether a user's turn is open is looked at.
-/

namespace Dialogue

variable {β : Type} [Backend β]

structure Course (β : Type) where
  opening : Option β := none
  calls : List Call := []
  decodes : Nat := 0

namespace Course

def hear (x : Course β) (calls : List Call) : Course β :=
  { x with calls := x.calls ++ calls }

/-- An input that is accepted goes on with the user's turn that is open, or opens one. -/
def afterPrefill {α : Type} (x : Course β) (isOpen : Bool) (backend : Option β)
    (calls : List Call) : Except Session.Error α → Course β
  | .ok _ => if isOpen then x.hear calls else { opening := backend, calls }
  | .error (.inference ..) => {}
  | .error _ => x

def afterDecode {α : Type} (x : Course β) (calls : List Call) :
    Except Session.Error α → Course β
  | .ok _ => { x.hear calls with decodes := x.decodes + 1 }
  | .error (.inference ..) => {}
  | .error _ => x

omit [Backend β] in
@[simp] theorem afterPrefill_map {α γ : Type} (x : Course β) (isOpen : Bool) (backend : Option β)
    (calls : List Call) (result : Except Session.Error α) (f : α → γ) :
    x.afterPrefill isOpen backend calls (result.map f) =
      x.afterPrefill isOpen backend calls result := by
  rcases result with reason | value
  · cases reason <;> rfl
  · rfl

omit [Backend β] in
@[simp] theorem afterDecode_map {α γ : Type} (x : Course β) (calls : List Call)
    (result : Except Session.Error α) (f : α → γ) :
    x.afterDecode calls (result.map f) = x.afterDecode calls result := by
  rcases result with reason | value
  · cases reason <;> rfl
  · rfl

/-- A course after one call more. -/
def record (x : Course β) (entry : Session.Entry β) : Course β :=
  let calls := entry.response.events.filterMap Event.call?
  match entry.request with
  | .prefill _ =>
    x.afterPrefill entry.before.conversation.isPrefilling
      (entry.before.chat.map (·.model.backend)) calls entry.response.result
  | .decode => x.afterDecode calls entry.response.result
  | .evaluate => x.hear calls
  | .reload .. | .unload | .resetChat => {}

def ofLog (log : List (Session.Entry β)) : Course β :=
  log.foldl record {}

end Course

namespace Chat

/-- A property of chats, transcripts and courses, which holds of a fresh chat and is kept by the
steps that move a conversation on. -/
structure CourseInvariant (P : Chat β → Transcript → Course β → Prop) : Prop where
  fresh : ∀ model, P { model } [] {}
  prefill : ∀ {chat : Chat β} {t : Transcript} {x : Course β} {piece : Piece} {model : Model β}
    {calls : List Call} {logits : Option Logits},
    P chat t x → piece.part ≠ .text "" →
    addWord chat.conversation.position
        (addWord (chat.planFor piece).positions chat.model.sealTokens.length) ≤
      chat.model.config.contextWindow →
    chat.model.feed chat.conversation.position (chat.planFor piece).inputs =
      ⟨model, calls, .ok logits⟩ →
    P { model
        conversation :=
          chat.conversation.addPart piece.part (chat.planFor piece).positions logits
        usage := chat.usage.addPrefill (chat.planFor piece).positions }
      (t.addPiece piece)
      (if chat.conversation.isPrefilling then x.hear calls
        else { opening := some chat.model.backend, calls })
  ended : ∀ {chat chat' : Chat β} {t : Transcript} {x : Course β} {calls : List Call}
    {draft : Draft} {token : TokenId} {model : Model β} {reply : Reply} {reason : StopReason},
    P chat t x → chat.HandedOver chat' calls draft →
    chat'.model.sample draft.logits = (some token, model) →
    absorb model chat'.conversation.position draft.reply token = (reply, some reason) →
    P { model
        conversation := chat'.conversation.stop reply reason
        usage := chat'.usage.addDecode }
      (t.addReply [token] (some reason))
      { x.hear (calls ++ [.sample token]) with decodes := x.decodes + 1 }
  fed : ∀ {chat chat' : Chat β} {t : Transcript} {x : Course β} {calls : List Call}
    {draft : Draft} {token : TokenId} {model model' : Model β} {reply : Reply} {call : Call}
    {logits : Logits},
    P chat t x → chat.HandedOver chat' calls draft →
    chat'.model.sample draft.logits = (some token, model) →
    absorb model chat'.conversation.position draft.reply token = (reply, none) →
    model.forward (.tokens [token]) chat'.conversation.position = (model', call, .ok logits) →
    P { model := model'
        conversation := settle model' chat'.conversation
          { reply, generated := addWord draft.generated 1, logits }
        usage := chat'.usage.addDecode }
      (t.addReply [token]
        (settle model' chat'.conversation
          { reply, generated := addWord draft.generated 1, logits }).stopReason)
      { x.hear (calls ++ [.sample token] ++ [call]) with decodes := x.decodes + 1 }
  evaluate : ∀ {chat : Chat β} {t : Transcript} {x : Course β}, P chat t x →
    P chat.evaluate.chat t (x.hear [.evaluate])

namespace CourseInvariant

variable {P : Chat β → Transcript → Course β → Prop} {chat : Chat β} {t : Transcript}
  {x : Course β}

theorem of_prefilled (h : CourseInvariant P) (hchat : P chat t x) {input : Prompt}
    {outcome : Outcome β Unit} (houtcome : chat.Prefilled input outcome) :
    P outcome.chat (t.afterPrefill (chat.piece? input) outcome.result)
      (x.afterPrefill chat.conversation.isPrefilling (some chat.model.backend) outcome.calls
        outcome.result) := by
  cases houtcome with
  | refused refusal => exact hchat
  | failed planned feed => exact h.fresh _
  | fed planned feed =>
      obtain ⟨hplanned, hroom⟩ := plan_eq_ok planned
      obtain ⟨piece, hpiece, hpart, rfl⟩ := hplanned.exists_piece
      rw [hpiece]
      exact h.prefill hchat hpart hroom feed

theorem of_decoded (h : CourseInvariant P) (hchat : P chat t x) {outcome : Outcome β Unit}
    (houtcome : chat.Decoded outcome) :
    P outcome.chat
      (t.afterDecode (outcome.calls.filterMap Call.sampled?)
        outcome.chat.conversation.stopReason outcome.result)
      (x.afterDecode outcome.calls outcome.result) := by
  cases houtcome with
  | refused refusal => rcases refusal with rfl | rfl <;> exact hchat
  | failed turn nonempty forward => exact h.fresh _
  | sampled handed extended =>
      have hsampled := filterMap_sampled_of_feeding handed.feeding
      cases extended with
      | unsampled sample => exact h.fresh _
      | failed sample absorb forward => exact h.fresh _
      | ended sample absorb =>
          dsimp only
          rw [List.filterMap_append, hsampled]
          exact h.ended hchat handed sample absorb
      | fed sample absorb forward =>
          obtain ⟨-, -, answered, rfl⟩ := Model.forward_spec forward
          dsimp only
          rw [List.filterMap_append, List.filterMap_append, hsampled]
          exact h.fed hchat handed sample absorb forward

theorem run (h : CourseInvariant P) {registry : Registry (Loader β)}
    {entropy : Nat → Nat → UInt32} {requests : List Request}
    (hchat : ((Session.new registry entropy).run requests).1.chat = some chat) :
    P chat (Transcript.ofLog ((Session.new registry entropy).log requests))
      (Course.ofLog ((Session.new registry entropy).log requests)) := by
  have hlog : LogInvariant registry fun chat _ log =>
      P chat (Transcript.ofLog log) (Course.ofLog log) := by
    -- only what the call recorded last is at stake
    refine ⟨?_, ?_, ?_, ?_, ?_⟩
    all_goals simp only [Transcript.ofLog, Course.ofLog, List.foldl_append]
    · intro s past log name directory model hregistry hloads
      exact h.fresh model
    · intro s chat past log hchat hold
      exact h.fresh _
    · intro s chat past log input hchat hold
      have hkept := h.of_prefilled hold (chat.prefilled_prefill input)
      rw [Session.perform_prefill hchat]
      simp only [List.foldl_cons, List.foldl_nil, Transcript.record, Course.record, hchat,
        Option.bind_some, Option.map_some, Session.conversation_of_chat hchat, filterMap_call_call,
        Transcript.afterPrefill_map, Course.afterPrefill_map]
      exact hkept
    · intro s chat past log hchat hold
      have hkept := h.of_decoded hold chat.decoded_decode
      rw [Session.perform_decode hchat]
      simp only [List.foldl_cons, List.foldl_nil, Transcript.record, Course.record,
        filterMap_call_call, filterMap_sampled_call, Transcript.afterDecode_map,
        Course.afterDecode_map]
      exact hkept
    · intro s chat past log hchat hold
      have hkept := h.evaluate hold
      rw [Session.perform_evaluate hchat]
      simpa [Transcript.record, Course.record, Event.call?] using hkept
  exact hlog.run hchat

end CourseInvariant

end Chat

end Dialogue
