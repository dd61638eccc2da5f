import Dialogue.Proofs.Session.Following

namespace Dialogue

namespace Conversation

def openTurn? (c : Conversation) : Option (List Part) :=
  match c.progress with
  | .prefilling parts _ => some parts
  | _ => none

def pending? (c : Conversation) : Option Logits :=
  match c.progress with
  | .prefilling _ logits => logits
  | .decoding draft => some draft.logits
  | _ => none

end Conversation

/-- What a side may say at once: the user's turn has parts and no text of it is empty, the
assistant's is one text. -/
def Turn.WellFormed (turn : Turn) : Prop :=
  match turn.role with
  | .user => turn.parts ≠ [] ∧ .text "" ∉ turn.parts
  | .assistant => ∃ text, turn.parts = [.text text]

/-- The sides take turns, the user first. -/
structure Alternating (history : List Turn) : Prop where
  roles : ∀ i turn, history[i]? = some turn →
    turn.role = if i % 2 = 0 then .user else .assistant
  wellFormed : ∀ turn ∈ history, turn.WellFormed

theorem alternating_nil : Alternating [] where
  roles := by simp
  wellFormed := by simp

namespace Alternating

variable {history : List Turn}

theorem concat (h : Alternating history) {turn : Turn} (hturn : turn.WellFormed)
    (hrole : turn.role = if history.length % 2 = 0 then .user else .assistant) :
    Alternating (history ++ [turn]) := by
  constructor
  · intro i other hother
    rcases Nat.lt_trichotomy i history.length with hlt | rfl | hgt
    · rw [List.getElem?_append_left hlt] at hother
      exact h.roles i other hother
    · rw [List.getElem?_concat_length, Option.some.injEq] at hother
      rwa [← hother]
    · rw [List.getElem?_eq_none (by simp; omega)] at hother
      cases hother
  · intro other hother
    rcases List.mem_append.mp hother with hother | hother
    · exact h.wellFormed other hother
    · rw [List.mem_singleton] at hother
      rwa [hother]

theorem user (h : Alternating history) (heven : history.length % 2 = 0) {e : Exchange}
    (hasked : e.Asked) : Alternating (history ++ [.user e.parts]) := by
  apply h.concat
  · exact ⟨hasked.nonempty, hasked.texts⟩
  · rw [if_pos heven]
    rfl

theorem assistant (h : Alternating history) (hodd : history.length % 2 = 1) (text : String) :
    Alternating (history ++ [.assistant text]) := by
  apply h.concat
  · exact ⟨text, rfl⟩
  · rw [if_neg (by omega)]
    rfl

theorem exchange (h : Alternating history) (heven : history.length % 2 = 0) {e : Exchange}
    (hasked : e.Asked) (text : String) :
    Alternating (history ++ [.user e.parts, .assistant text]) := by
  have hassistant := (h.user heven hasked).assistant (by simp; omega) text
  rwa [List.append_assoc] at hassistant

end Alternating

theorem Recorded.alternating {tokenizer : Tokenizer} {stops : List String} {t : Transcript}
    {turns : List Turn} (h : Recorded tokenizer stops t turns) :
    Alternating turns ∧ turns.length % 2 = 0 := by
  induction h with
  | nil => exact ⟨alternating_nil, rfl⟩
  | cons _ asked _ ih =>
      obtain ⟨halternating, heven⟩ := ih
      refine ⟨halternating.exchange heven asked _, ?_⟩
      rw [List.length_append]
      simp only [List.length_cons, List.length_nil]
      omega

theorem Follows.shape {tokenizer : Tokenizer} {stops : List String} {c : Conversation}
    {t : Transcript} (h : Follows tokenizer stops c t) :
    Alternating c.history ∧
    match c.progress with
    | .idle => c.history = [] ∧ c.position = 0
    | .prefilling parts _ => c.history.length % 2 = 0 ∧ parts ≠ []
    | .decoding _ => c.history.length % 2 = 1
    | .stopped reply _ =>
      c.history.length % 2 = 0 ∧ c.history ≠ [] ∧
        c.history.getLast? = some (.assistant reply.text) := by
  cases h with
  | idle turn history position =>
      rw [turn, history]
      exact ⟨alternating_nil, rfl, position⟩
  | prefilling turn recorded asked unsampled =>
      obtain ⟨halternating, heven⟩ := recorded.alternating
      rw [turn]
      exact ⟨halternating, heven, asked.nonempty⟩
  | decoding turn replying sampled going =>
      obtain ⟨turns, recorded, hhistory⟩ := replying.recorded
      obtain ⟨halternating, heven⟩ := recorded.alternating
      rw [turn, hhistory]
      refine ⟨halternating.user heven replying.asked, ?_⟩
      simp only [List.length_append, List.length_singleton]
      omega
  | stopped turn recorded history asked replied ending =>
      obtain ⟨halternating, heven⟩ := recorded.alternating
      rw [turn, history]
      refine ⟨halternating.exchange heven asked _, ?_, by simp, by simp⟩
      simp only [List.length_append, List.length_cons, List.length_nil]
      omega

namespace Chat

variable {β : Type} [Backend β]

theorem stepInvariant_usage :
    StepInvariant fun (chat : Chat β) (_ : List Call) _ =>
      chat.conversation.progress = .idle → chat.usage = {} where
  fresh _ _ := rfl
  prefill _ _ _ hidle := absurd hidle (addPart_progress_ne_idle _ _ _ _)
  ended _ _ _ _ := nofun
  fed _ _ _ _ _ hidle := absurd hidle (settle_progress_ne_idle _ _ _)
  evaluate h := h

end Chat

variable {β : Type} [Backend β]

/-- In every session that calls lead to the sides take turns, a reply has a reason to have stopped
exactly in the stopped state, and the conversation has the shape that the state tells. -/
theorem turns_alternate (registry : Registry (Loader β)) (entropy : Nat → Nat → UInt32)
    (requests : List Request) :
    let s := ((Session.new registry entropy).run requests).1
    let c := s.conversation
    Alternating c.history ∧
    (c.stopReason.isSome = true ↔ s.state = .stopped) ∧
    (s.isStopped = true ↔ s.state = .stopped) ∧
    match s.state with
    | .unloaded | .loaded =>
      c.history = [] ∧ c.openTurn? = none ∧ c.message = "" ∧ c.position = 0 ∧ s.usage = {}
    | .prefilling =>
      c.history.length % 2 = 0 ∧ (∃ parts, c.openTurn? = some parts ∧ parts ≠ []) ∧
        c.message = ""
    | .decoding =>
      c.history.length % 2 = 1 ∧ c.openTurn? = none ∧ c.pending?.isSome = true
    | .stopped =>
      c.history.length % 2 = 0 ∧ c.history ≠ [] ∧ c.openTurn? = none ∧
        c.history.getLast? = some (.assistant c.message) := by
  intro s c
  cases hchat : s.chat with
  | none =>
      have hconversation : c = {} := by simp [c, Session.conversation, hchat]
      have husage : s.usage = {} := by simp [Session.usage, hchat]
      have hstate : s.state = .unloaded := by simp [Session.state, hchat]
      simp only [Session.isStopped, c] at hconversation ⊢
      rw [hstate, hconversation, husage]
      exact ⟨alternating_nil, by decide, by decide, rfl, rfl, rfl, rfl, rfl⟩
  | some chat =>
      have hconversation : c = chat.conversation := Session.conversation_of_chat hchat
      have husage : s.usage = chat.usage := by simp [Session.usage, hchat]
      obtain ⟨halternating, hshape⟩ := (Chat.stepInvariant_follows.invariant.run hchat).shape
      have hcount := Chat.stepInvariant_usage.invariant.run hchat
      simp only [Session.isStopped, Session.state, hchat, c] at hconversation ⊢
      rw [hconversation, husage]
      refine ⟨halternating, ?_⟩
      simp only [Conversation.stopReason, Conversation.openTurn?, Conversation.message,
        Conversation.pending?]
      cases hprogress : chat.conversation.progress with
      | idle =>
          rw [hprogress] at hshape
          obtain ⟨hhistory, hposition⟩ := hshape
          exact ⟨by decide, by decide, hhistory, rfl, rfl, hposition, hcount hprogress⟩
      | prefilling parts logits =>
          rw [hprogress] at hshape
          obtain ⟨heven, hparts⟩ := hshape
          exact ⟨by simp, by simp, heven, ⟨parts, rfl, hparts⟩, rfl⟩
      | decoding draft =>
          rw [hprogress] at hshape
          exact ⟨by simp, by simp, hshape, rfl, rfl⟩
      | stopped reply reason =>
          rw [hprogress] at hshape
          obtain ⟨heven, hne, hlast⟩ := hshape
          exact ⟨by simp, by simp, heven, hne, rfl, hlast⟩

end Dialogue
