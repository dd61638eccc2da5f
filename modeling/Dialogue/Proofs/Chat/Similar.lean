import Dialogue.Proofs.Backend.Similar

namespace Dialogue

variable {β : Type} [Backend β]

namespace Chat

/-- Chats that cannot be told apart by what they answer. -/
structure Similar (chat chat' : Chat β) : Prop where
  model : chat.model.Similar chat'.model
  conversation : chat'.conversation = chat.conversation
  usage : chat'.usage = chat.usage

namespace Outcome

structure Similar {α : Type} (outcome outcome' : Outcome β α) : Prop where
  chat : outcome.chat.Similar outcome'.chat
  calls : outcome'.calls = outcome.calls
  result : outcome'.result = outcome.result

end Outcome

theorem similar_recover {m m' : Model β} (h : m.Similar m') (calls : List Call)
    (stage : InferenceStage) (reason : Backend.Error) :
    (recover m calls stage reason).Similar (recover m' calls stage reason) :=
  ⟨⟨h.reset, rfl, rfl⟩, rfl, rfl⟩

omit [Backend β] in
theorem absorb_eq {m m' : Model β} (htokenizer : m'.tokenizer = m.tokenizer)
    (hconfig : m'.config = m.config) (position : Nat) (reply : Reply) (token : TokenId) :
    absorb m' position reply token = absorb m position reply token := by
  rw [absorb, absorb, htokenizer, hconfig]

omit [Backend β] in
theorem settle_eq {m m' : Model β} (hconfig : m'.config = m.config) (c : Conversation)
    (draft : Draft) : settle m' c draft = settle m c draft := by
  rw [settle, settle, hconfig]

namespace Similar

variable {chat chat' : Chat β}

theorem plan (h : chat.Similar chat') (input : Prompt) : chat'.plan input = chat.plan input := by
  have htokens : ∀ text, chat'.promptTokens text = chat.promptTokens text := by
    intro text
    simp only [promptTokens, openingTokens, openingText, h.conversation, h.model.tokenizer,
      h.model.config]
  have hplan : chat'.planOf input = chat.planOf input := by
    cases input <;>
      simp only [planOf, htokens, h.model.backend.imageEmbedLen, h.model.name]
  have hroom : chat'.checkRoom = chat.checkRoom := by
    funext plan
    simp only [checkRoom, h.model.sealTokens, h.model.config, h.conversation]
  rw [Chat.plan, Chat.plan, hplan, hroom]

theorem prefill (h : chat.Similar chat') (input : Prompt) :
    (chat.prefill input).Similar (chat'.prefill input) := by
  rw [Chat.prefill, Chat.prefill, h.plan]
  cases chat.plan input with
  | error reason => exact ⟨h, rfl, rfl⟩
  | ok plan =>
      dsimp only
      rw [h.conversation, h.usage]
      rcases hfeed : chat.model.feed chat.conversation.position plan.inputs with
        ⟨model, calls, reason | logits⟩
      all_goals
        obtain ⟨model', hfeed', hmodel⟩ := h.model.feed hfeed
        rw [hfeed']
      · exact similar_recover hmodel calls .prefill reason
      · exact ⟨⟨hmodel, rfl, rfl⟩, rfl, rfl⟩

theorem extend (h : chat.Similar chat') (calls : List Call) (draft : Draft) :
    (chat.extend calls draft).Similar (chat'.extend calls draft) := by
  rw [Chat.extend, Chat.extend, h.conversation, h.usage]
  rcases hsample : chat.model.sample draft.logits with ⟨token | token, model⟩
  all_goals
    obtain ⟨model', hsample', hmodel⟩ := h.model.sample hsample
    rw [hsample']
  · exact similar_recover hmodel calls .decode (.forward .noLogits)
  · dsimp only
    rw [absorb_eq hmodel.tokenizer hmodel.config]
    rcases absorb model chat.conversation.position draft.reply token with
      ⟨reply, reason | reason⟩
    · dsimp only
      rcases hforward : model.forward (.tokens [token]) chat.conversation.position with
        ⟨next, call, reason | logits⟩
      all_goals
        obtain ⟨next', hforward', hnext⟩ := hmodel.forward hforward
        rw [hforward']
      · exact similar_recover hnext _ .decode reason
      · dsimp only
        rw [settle_eq hnext.config]
        exact ⟨⟨hnext, rfl, rfl⟩, rfl, rfl⟩
    · exact ⟨⟨hmodel, rfl, rfl⟩, rfl, rfl⟩

theorem extend_freshDraft (h : chat.Similar chat') (calls : List Call) (logits : Logits) :
    (chat.extend calls (chat.freshDraft logits)).Similar
      (chat'.extend calls (chat'.freshDraft logits)) := by
  rw [freshDraft, freshDraft, h.model.config]
  exact h.extend calls _

theorem begin (h : chat.Similar chat') (parts : List Part) (logits : Option Logits) :
    (chat.begin parts logits).Similar (chat'.begin parts logits) := by
  unfold Chat.begin
  rw [h.model.sealTokens, h.conversation, h.usage]
  split
  · exact ⟨h, rfl, rfl⟩
  · refine extend_freshDraft ?_ [] _
    exact ⟨h.model, rfl, rfl⟩
  · rcases hforward : chat.model.forward (.tokens chat.model.sealTokens)
      chat.conversation.position with ⟨next, call, reason | logits⟩
    all_goals
      obtain ⟨next', hforward', hnext⟩ := h.model.forward hforward
      rw [hforward']
    · exact similar_recover hnext [call] .prefill reason
    · refine extend_freshDraft ?_ [call] logits
      exact ⟨hnext, rfl, rfl⟩

theorem decode (h : chat.Similar chat') : chat.decode.Similar chat'.decode := by
  rw [Chat.decode, Chat.decode, h.conversation]
  cases chat.conversation.progress with
  | idle => exact ⟨h, rfl, rfl⟩
  | stopped reply reason => exact ⟨h, rfl, rfl⟩
  | prefilling parts logits => exact h.begin parts logits
  | decoding draft => exact h.extend [] draft

theorem reset (h : chat.Similar chat') : chat.reset.Similar chat'.reset :=
  ⟨⟨h.model.reset, rfl, rfl⟩, rfl, rfl⟩

theorem evaluate (h : chat.Similar chat') : chat.evaluate.Similar chat'.evaluate := by
  obtain ⟨hreport, hnext⟩ := h.model.backend.evaluate
  refine ⟨⟨⟨h.model.name, h.model.path, h.model.config, h.model.tokenizer, hnext, h.model.chain⟩,
    h.conversation, h.usage⟩, rfl, ?_⟩
  exact congrArg (Except.mapError (Session.Error.inference .evaluate)) hreport

end Similar

end Chat

end Dialogue
