import Dialogue.Proofs.Chat.Outcome
import Dialogue.Proofs.Sampling.Rewinding

namespace Dialogue

variable {β : Type} [Backend β]

namespace Backend

/-- A relation between backends that give the same answers and stay related by every call. -/
structure Bisimulation (R : β → β → Prop) : Prop where
  vocabSize : ∀ {b c}, R b c → vocabSize c = vocabSize b
  imageEmbedLen : ∀ {b c}, R b c → imageEmbedLen c = imageEmbedLen b
  forward : ∀ {b c}, R b c → ∀ input position,
    (forward c input position).1 = (forward b input position).1 ∧
      R (forward b input position).2 (forward c input position).2
  resetCache : ∀ {b c}, R b c → R (resetCache b) (resetCache c)
  evaluate : ∀ {b c}, R b c → (evaluate c).1 = (evaluate b).1 ∧ R (evaluate b).2 (evaluate c).2

/-- Backends that cannot be told apart by calls. -/
def Similar (b c : β) : Prop :=
  ∃ R, Bisimulation R ∧ R b c

namespace Similar

variable {b c d : β}

theorem vocabSize (h : Similar b c) : Backend.vocabSize c = Backend.vocabSize b := by
  obtain ⟨R, hR, hbc⟩ := h
  exact hR.vocabSize hbc

theorem imageEmbedLen (h : Similar b c) : Backend.imageEmbedLen c = Backend.imageEmbedLen b := by
  obtain ⟨R, hR, hbc⟩ := h
  exact hR.imageEmbedLen hbc

theorem forward (h : Similar b c) (input : Input) (position : Nat) :
    (Backend.forward c input position).1 = (Backend.forward b input position).1 ∧
      Similar (Backend.forward b input position).2 (Backend.forward c input position).2 := by
  obtain ⟨R, hR, hbc⟩ := h
  obtain ⟨hanswer, hnext⟩ := hR.forward hbc input position
  exact ⟨hanswer, R, hR, hnext⟩

theorem resetCache (h : Similar b c) : Similar (Backend.resetCache b) (Backend.resetCache c) := by
  obtain ⟨R, hR, hbc⟩ := h
  exact ⟨R, hR, hR.resetCache hbc⟩

theorem evaluate (h : Similar b c) :
    (Backend.evaluate c).1 = (Backend.evaluate b).1 ∧
      Similar (Backend.evaluate b).2 (Backend.evaluate c).2 := by
  obtain ⟨R, hR, hbc⟩ := h
  obtain ⟨hanswer, hnext⟩ := hR.evaluate hbc
  exact ⟨hanswer, R, hR, hnext⟩

theorem refl (b : β) : Similar b b := by
  refine ⟨Eq, ⟨?_, ?_, ?_, ?_, ?_⟩, rfl⟩
  all_goals
    rintro b _ rfl
  · rfl
  · rfl
  · exact fun _ _ => ⟨rfl, rfl⟩
  · rfl
  · exact ⟨rfl, rfl⟩

theorem trans (h : Similar b c) (h' : Similar c d) : Similar b d := by
  refine ⟨fun b d => ∃ c, Similar b c ∧ Similar c d, ⟨?_, ?_, ?_, ?_, ?_⟩, c, h, h'⟩
  all_goals
    rintro b d ⟨c, h, h'⟩
  · exact h'.vocabSize.trans h.vocabSize
  · exact h'.imageEmbedLen.trans h.imageEmbedLen
  · intro input position
    obtain ⟨hanswer, hnext⟩ := h.forward input position
    obtain ⟨hanswer', hnext'⟩ := h'.forward input position
    exact ⟨hanswer'.trans hanswer, _, hnext, hnext'⟩
  · exact ⟨_, h.resetCache, h'.resetCache⟩
  · obtain ⟨hanswer, hnext⟩ := h.evaluate
    obtain ⟨hanswer', hnext'⟩ := h'.evaluate
    exact ⟨hanswer'.trans hanswer, _, hnext, hnext'⟩

end Similar

end Backend

namespace Model

/-- Models that cannot be told apart by what they answer. -/
structure Similar (m m' : Model β) : Prop where
  name : m'.name = m.name
  path : m'.path = m.path
  config : m'.config = m.config
  tokenizer : m'.tokenizer = m.tokenizer
  backend : Backend.Similar m.backend m'.backend
  chain : m.chain.Agrees m'.chain

namespace Similar

variable {m m' : Model β}

theorem sealTokens (h : m.Similar m') : m'.sealTokens = m.sealTokens := by
  rw [Model.sealTokens, Model.sealTokens, h.tokenizer, h.config]

theorem checkLogits {b c : β} (h : Backend.Similar b c) (logits : Logits) :
    Model.checkLogits c logits = Model.checkLogits b logits := by
  rw [Model.checkLogits, Model.checkLogits, h.vocabSize]

theorem forward (h : m.Similar m') {next : Model β} {input : Input} {position : Nat}
    {call : Call} {result : Except Backend.Error Logits}
    (hforward : m.forward input position = (next, call, result)) :
    ∃ next', m'.forward input position = (next', call, result) ∧ next.Similar next' := by
  obtain ⟨hanswer, hnext⟩ := h.backend.forward input position
  rw [Model.forward] at hforward ⊢
  rcases hbackend : Backend.forward m.backend input position with ⟨reason | logits, backend⟩
  all_goals
    rcases hbackend' : Backend.forward m'.backend input position with ⟨answer, backend'⟩
    rw [hbackend, hbackend'] at hanswer hnext
    dsimp only at hanswer hnext
    subst hanswer
    rw [hbackend] at hforward
    cases hforward
    refine ⟨{ m' with backend := backend' }, ?_,
      h.name, h.path, h.config, h.tokenizer, hnext, h.chain⟩
  · rfl
  · dsimp only
    rw [checkLogits hnext]

theorem feed (h : m.Similar m') {fed : Model β} {position : Nat} {inputs : List (Input × Nat)}
    {calls : List Call} {result : Except Backend.Error (Option Logits)}
    (hfeed : m.feed position inputs = ⟨fed, calls, result⟩) :
    ∃ fed', m'.feed position inputs = ⟨fed', calls, result⟩ ∧ fed.Similar fed' := by
  have hfed := fedBy_of_feed hfeed
  clear hfeed
  induction hfed generalizing m' with
  | nil => exact ⟨m', rfl, h⟩
  | failed forward =>
      obtain ⟨next', hforward', hnext⟩ := h.forward forward
      exact ⟨next', by simp only [Model.feed, hforward'], hnext⟩
  | fed forward later ih =>
      obtain ⟨next', hforward', hnext⟩ := h.forward forward
      obtain ⟨fed', hfeed', hfed⟩ := ih hnext
      exact ⟨fed', by simp only [Model.feed, hforward', hfeed'], hfed⟩

theorem sample (h : m.Similar m') {next : Model β} {logits : Logits} {token : Option TokenId}
    (hsample : m.sample logits = (token, next)) :
    ∃ next', m'.sample logits = (token, next') ∧ next.Similar next' := by
  obtain ⟨htoken, hchain⟩ := h.chain.sample logits
  rw [Model.sample] at hsample ⊢
  rcases hselect : m.chain.sample logits with ⟨token | token, chain⟩
  all_goals
    rcases hselect' : m'.chain.sample logits with ⟨token', chain'⟩
    rw [hselect, hselect'] at htoken hchain
    dsimp only at htoken hchain
    subst htoken
    rw [hselect] at hsample
    cases hsample
  · exact ⟨_, rfl, h.name, h.path, h.config, h.tokenizer, h.backend, hchain⟩
  · exact ⟨_, rfl, h.name, h.path, h.config, h.tokenizer, h.backend, hchain.accept token⟩

theorem reset (h : m.Similar m') : m.reset.Similar m'.reset :=
  ⟨h.name, h.path, h.config, h.tokenizer, h.backend.resetCache, h.chain.reset⟩

end Similar

end Model

end Dialogue
