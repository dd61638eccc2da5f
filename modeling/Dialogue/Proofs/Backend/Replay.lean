import Dialogue.Proofs.Chat.Outcome

namespace Dialogue

variable {β : Type} [Backend β]

namespace Backend

/-- A backend, and the logits that it answered last, after one call more. -/
def hear (x : β × Option Logits) : Call → β × Option Logits
  | .forward input position _ =>
    ((Backend.forward x.1 input position).2,
      (Backend.forward x.1 input position).1.toOption.or x.2)
  | .sample _ => x
  | .resetCache => (Backend.resetCache x.1, x.2)
  | .evaluate => ((Backend.evaluate x.1).2, x.2)

/-- A backend after calls, with the last logits that it answered to them, if any. -/
def replay (b : β) (calls : List Call) : β × Option Logits :=
  calls.foldl hear (b, none)

theorem replay_append (b : β) (first second : List Call) :
    replay b (first ++ second) = second.foldl hear (replay b first) :=
  List.foldl_append

theorem foldl_hear_fst (b : β) (last : Option Logits) (calls : List Call) :
    (calls.foldl hear (b, last)).1 = (replay b calls).1 := by
  rw [replay]
  generalize (none : Option Logits) = other
  induction calls generalizing b last other with
  | nil => rfl
  | cons call calls ih =>
      rw [List.foldl_cons, List.foldl_cons]
      cases call <;> exact ih _ _ _

theorem replay_append_fst (b : β) (first second : List Call) :
    (replay b (first ++ second)).1 = (replay (replay b first).1 second).1 := by
  rw [replay_append, ← foldl_hear_fst (replay b first).1 (replay b first).2]

end Backend

open Backend (hear replay)

namespace Model

variable {m m' : Model β} {input : Input} {position : Nat} {call : Call} {last : Option Logits}

theorem hear_of_forward (last : Option Logits) {result : Except Backend.Error Logits}
    (h : m.forward input position = (m', call, result)) :
    (hear (m.backend, last) call).1 = m'.backend := by
  obtain ⟨-, hbackend, answered, rfl⟩ := forward_spec h
  rw [hbackend]
  rfl

theorem answer_of_forward {logits : Logits}
    (h : m.forward input position = (m', call, .ok logits)) :
    (Backend.forward m.backend input position).1 = .ok logits ∧
      call = .forward input position true ∧ logits.length = Backend.vocabSize m'.backend := by
  rw [forward] at h
  rcases hforward : Backend.forward m.backend input position with ⟨reason | answer, backend⟩
  all_goals
    simp only [hforward, Prod.mk.injEq] at h
    obtain ⟨rfl, hcall, hcheck⟩ := h
  · cases hcheck
  · rw [checkLogits] at hcheck
    split at hcheck
    · rename_i hlength
      cases hcheck
      exact ⟨rfl, hcall.symm, hlength⟩
    · cases hcheck

theorem hear_of_forward_ok {logits : Logits}
    (h : m.forward input position = (m', call, .ok logits)) :
    hear (m.backend, last) call = (m'.backend, some logits) := by
  obtain ⟨hanswer, rfl, -⟩ := answer_of_forward h
  rw [(forward_spec h).2.1, hear, hanswer]
  rfl

theorem replay_of_feed {inputs : List (Input × Nat)} {calls : List Call}
    {result : Except Backend.Error (Option Logits)}
    (h : m.feed position inputs = ⟨m', calls, result⟩) :
    (replay m.backend calls).1 = m'.backend := by
  have hfed := fedBy_of_feed h
  clear h
  rw [← Backend.foldl_hear_fst m.backend none]
  generalize (none : Option Logits) = last
  induction hfed generalizing last with
  | nil => rfl
  | failed forward => exact hear_of_forward last forward
  | @fed m m₁ m' position length input rest call calls logits result forward later ih =>
      rw [List.foldl_cons, hear_of_forward_ok forward]
      exact ih _

theorem hear_of_feed_ok {inputs : List (Input × Nat)} {calls : List Call}
    {logits : Option Logits} (h : m.feed position inputs = ⟨m', calls, .ok logits⟩) :
    calls.foldl hear (m.backend, last) = (m'.backend, logits.or last) := by
  have hfed := fedBy_of_feed h
  clear h
  generalize hresult : Except.ok logits = result at hfed
  induction hfed generalizing last logits with
  | nil =>
      cases hresult
      rfl
  | failed forward => cases hresult
  | @fed m m₁ m' position length input rest call calls answer result forward later ih =>
      cases result with
      | error reason => cases hresult
      | ok final =>
          cases hresult
          rw [List.foldl_cons, hear_of_forward_ok forward, ih rfl]
          cases final <;> rfl

end Model

namespace Chat

variable {chat chat' : Chat β} {calls : List Call} {draft : Draft} {outcome : Outcome β Unit}

theorem Prefilled.replay_eq {input : Prompt} (h : chat.Prefilled input outcome) :
    (replay chat.model.backend outcome.calls).1 = outcome.chat.model.backend := by
  cases h with
  | refused refusal => rfl
  | failed planned feed =>
      rw [recover, Backend.replay_append_fst, Model.replay_of_feed feed]
      rfl
  | fed planned feed => exact Model.replay_of_feed feed

theorem HandedOver.replay_eq (h : chat.HandedOver chat' calls draft) :
    (replay chat.model.backend calls).1 = chat'.model.backend := by
  cases h with
  | going => rfl
  | bare => rfl
  | fed turn nonempty forward => exact Model.hear_of_forward none forward

theorem Extended.replay_eq (h : chat.Extended calls draft outcome) :
    ∃ more, outcome.calls = calls ++ more ∧
      (replay chat.model.backend more).1 = outcome.chat.model.backend := by
  cases h with
  | unsampled sample =>
      refine ⟨[.resetCache], rfl, ?_⟩
      exact congrArg Backend.resetCache (Model.sample_spec sample).2.symm
  | @ended token model reply reason sample absorb =>
      exact ⟨[.sample token], rfl, (Model.sample_spec sample).2.symm⟩
  | @failed token model model' reply call reason sample absorb forward =>
      refine ⟨[.sample token, call, .resetCache], by simp [recover], ?_⟩
      have hbackend := Model.hear_of_forward none forward
      rw [(Model.sample_spec sample).2] at hbackend
      exact congrArg Backend.resetCache hbackend
  | @fed token model model' reply call logits sample absorb forward =>
      refine ⟨[.sample token, call], by simp, ?_⟩
      have hbackend := Model.hear_of_forward none forward
      rw [(Model.sample_spec sample).2] at hbackend
      exact hbackend

theorem Decoded.replay_eq (h : chat.Decoded outcome) :
    (replay chat.model.backend outcome.calls).1 = outcome.chat.model.backend := by
  cases h with
  | refused refusal => rfl
  | failed turn nonempty forward =>
      exact congrArg Backend.resetCache (Model.hear_of_forward none forward)
  | sampled handed extended =>
      obtain ⟨more, hcalls, hmore⟩ := extended.replay_eq
      rw [hcalls, Backend.replay_append_fst, handed.replay_eq, hmore]

end Chat

end Dialogue
