import Dialogue.Proofs.Sampling.Candidates
import Dialogue.Proofs.Session.Progress
import Dialogue.Proofs.Session.Restart
import Dialogue.Proofs.Tokenizer.Lookup

namespace Dialogue

variable {β : Type} [Backend β]

def Call.fedTokens : Call → List TokenId
  | .forward (.tokens tokens) .. => tokens
  | _ => []

def Event.fedTokens : Event → List TokenId
  | .call _ told => told.fedTokens
  | _ => []

theorem flatMap_fedTokens_call (serial : Nat) (calls : List Call) :
    (calls.map (Event.call serial)).flatMap Event.fedTokens = calls.flatMap Call.fedTokens := by
  rw [List.flatMap_map]
  rfl

namespace Model

variable {m m' : Model β} {position : Nat} {inputs : List (Input × Nat)} {calls : List Call}

/-- The model has a logit for each of these tokens. -/
def Covers (m : Model β) (tokens : List TokenId) : Prop :=
  ∀ token ∈ tokens, token.toNat < Backend.vocabSize m.backend

theorem covers_nil (m : Model β) : m.Covers [] :=
  nofun

theorem covers_append {first second : List TokenId} :
    m.Covers (first ++ second) ↔ m.Covers first ∧ m.Covers second :=
  List.forall_mem_append

theorem exists_input_of_fedBy {result : Except Backend.Error (Option Logits)}
    (h : FedBy m position inputs m' calls result) {call : Call} (hcall : call ∈ calls) :
    ∃ x ∈ inputs, ∃ position answered, call = .forward x.1 position answered := by
  induction h with
  | nil => cases hcall
  | failed forward =>
      obtain ⟨-, -, answered, rfl⟩ := forward_spec forward
      rw [List.mem_singleton] at hcall
      exact ⟨_, List.mem_cons_self, _, _, hcall⟩
  | fed forward later ih =>
      obtain ⟨-, -, answered, rfl⟩ := forward_spec forward
      rcases List.mem_cons.mp hcall with rfl | hcall
      · exact ⟨_, List.mem_cons_self, _, _, rfl⟩
      · obtain ⟨x, hx, hforward⟩ := ih hcall
        exact ⟨x, List.mem_cons_of_mem _ hx, hforward⟩

theorem length_of_fedBy (hkeeps : Backend.Keeps (Backend.vocabSize : β → Nat)) {logits : Logits}
    (h : FedBy m position inputs m' calls (.ok (some logits))) :
    logits.length = Backend.vocabSize m'.backend := by
  generalize hresult : Except.ok (some logits) = result at h
  induction h with
  | nil => cases hresult
  | failed forward => cases hresult
  | @fed _ _ _ _ _ _ _ _ _ answer result forward later ih =>
      rcases result with reason | _ | last
      · cases hresult
      · -- nothing was fed later, so these are the logits of this input
        cases hresult
        rw [hkeeps.of_fedBy later]
        exact (answer_of_forward forward).2.2
      · cases hresult
        exact ih rfl

omit [Backend β] in
theorem lt_length_of_sample {logits : Logits} {token : TokenId}
    (h : m.sample logits = (some token, m')) : token.toNat < logits.length := by
  have hfst := m.sample_fst logits
  rw [h] at hfst
  exact Chain.lt_length_of_sample hfst.symm

end Model

namespace Chat

variable {chat chat' : Chat β} {outcome : Outcome β Unit} {calls : List Call} {draft : Draft}

/-- The logits at hand are one for each token of the model. -/
def LogitsWhole (chat : Chat β) : Prop :=
  ∀ logits, chat.conversation.pending? = some logits →
    logits.length = Backend.vocabSize chat.model.backend

theorem stepInvariant_logitsWhole (hkeeps : Backend.Keeps (Backend.vocabSize : β → Nat)) :
    StepInvariant fun (chat : Chat β) (_ : List Call) _ => chat.LogitsWhole where
  fresh _ := nofun
  prefill {chat _ _ _ model calls logits} h hpart feed := by
    intro answer hanswer
    have hfed := Model.fedBy_of_feed feed
    rw [pending?_addPart] at hanswer
    rcases Option.or_eq_some_iff.mp hanswer with rfl | ⟨-, hold⟩
    · exact Model.length_of_fedBy hkeeps hfed
    · split at hold
      · rw [hkeeps.of_fedBy hfed]
        exact h answer hold
      · cases hold
  ended _ _ _ _ := nofun
  fed {_ chat' _ _ _ draft _ _ model' reply _ logits} h handed sample absorb forward := by
    intro answer hanswer
    rcases settle_cases model' chat'.conversation
      { reply, generated := addWord draft.generated 1, logits } with ⟨-, hsettle⟩ | ⟨-, hsettle⟩
    · simp only [hsettle] at hanswer
      cases hanswer
    · simp only [hsettle] at hanswer
      cases hanswer
      exact (Model.answer_of_forward forward).2.2
  evaluate {chat _ _} h := by
    intro answer hanswer
    exact (h answer hanswer).trans (hkeeps.evaluate chat.model.backend).symm

theorem HandedOver.length_logits (hkeeps : Backend.Keeps (Backend.vocabSize : β → Nat))
    (h : chat.HandedOver chat' calls draft) (hwhole : chat.LogitsWhole) :
    draft.logits.length = Backend.vocabSize chat.model.backend := by
  cases h with
  | going turn => exact hwhole draft.logits (by rw [Conversation.pending?, turn])
  | @bare parts logits turn empty => exact hwhole logits (by rw [Conversation.pending?, turn])
  | fed turn nonempty forward =>
      rw [← hkeeps.of_forward forward]
      exact (Model.answer_of_forward forward).2.2

/-- Every token that may come up has a logit. -/
structure Fits (chat : Chat β) : Prop where
  range : chat.model.tokenizer.InRange
  size : chat.model.tokenizer.vocabSize ≤ Backend.vocabSize chat.model.backend
  logits : chat.LogitsWhole

namespace Fits

variable (h : chat.Fits)

include h

theorem covers_encode (text : String) :
    chat.model.Covers (chat.model.tokenizer.encode text) := fun token htoken =>
  Nat.lt_of_lt_of_le (h.range.encode text token htoken) h.size

theorem covers_sealTokens : chat.model.Covers chat.model.sealTokens :=
  h.covers_encode _

theorem covers_promptTokens (text : String) : chat.model.Covers (chat.promptTokens text) := by
  refine Model.covers_append.mpr ⟨?_, h.covers_encode _⟩
  rw [openingTokens]
  split
  · exact fun token htoken => Nat.lt_of_lt_of_le (h.range.bos token htoken) h.size
  · exact Model.covers_nil _

theorem covers_feed {input : Prompt} {plan : Plan} {model : Model β} {position : Nat}
    {result : Except Backend.Error (Option Logits)} (planned : chat.Planned input plan)
    (feed : chat.model.feed position plan.inputs = ⟨model, calls, result⟩) :
    chat.model.Covers (calls.flatMap Call.fedTokens) := by
  have hplan : chat.model.Covers plan.tokens := by
    cases planned with
    | text nonempty => exact h.covers_promptTokens _
    | image form supported => exact h.covers_promptTokens _
  intro token htoken
  obtain ⟨call, hcall, htoken⟩ := List.mem_flatMap.mp htoken
  obtain ⟨x, hx, position, answered, rfl⟩ :=
    Model.exists_input_of_fedBy (Model.fedBy_of_feed feed) hcall
  rw [Plan.inputs, List.mem_append] at hx
  rcases hx with hx | hx
  · split at hx
    · cases hx
    · rw [List.mem_singleton] at hx
      subst hx
      exact hplan token htoken
  · obtain ⟨image, -, rfl⟩ := List.mem_map.mp hx
    cases htoken

theorem covers_prefilled {input : Prompt} (prefilled : chat.Prefilled input outcome) :
    chat.model.Covers (outcome.calls.flatMap Call.fedTokens) := by
  cases prefilled with
  | refused => exact Model.covers_nil _
  | failed planned feed =>
      have hfed := h.covers_feed (plan_eq_ok planned).1 feed
      simpa [recover, Call.fedTokens] using hfed
  | fed planned feed => exact h.covers_feed (plan_eq_ok planned).1 feed

theorem covers_handedOver (handed : chat.HandedOver chat' calls draft) :
    chat.model.Covers (calls.flatMap Call.fedTokens) := by
  cases handed with
  | going turn => exact Model.covers_nil _
  | bare turn empty => exact Model.covers_nil _
  | fed turn nonempty forward =>
      obtain ⟨-, -, answered, rfl⟩ := Model.forward_spec forward
      simpa [Call.fedTokens] using h.covers_sealTokens

theorem covers_decoded (hkeeps : Backend.Keeps (Backend.vocabSize : β → Nat))
    (decoded : chat.Decoded outcome) :
    chat.model.Covers (outcome.calls.flatMap Call.fedTokens) := by
  cases decoded with
  | refused => exact Model.covers_nil _
  | failed turn nonempty forward =>
      obtain ⟨-, -, answered, rfl⟩ := Model.forward_spec forward
      simpa [recover, Call.fedTokens] using h.covers_sealTokens
  | @sampled chat' calls draft _ handed extended =>
      have hhanded := h.covers_handedOver handed
      have hlength := handed.length_logits hkeeps h.logits
      have hsampled : ∀ {token : TokenId} {model : Model β},
          chat'.model.sample draft.logits = (some token, model) → chat.model.Covers [token] := by
        intro token model sample
        have hlt := Model.lt_length_of_sample sample
        rw [hlength] at hlt
        simpa [Model.Covers] using hlt
      cases extended with
      | unsampled sample => simpa [recover, Call.fedTokens] using hhanded
      | ended sample absorb => simpa [Call.fedTokens] using hhanded
      | failed sample absorb forward =>
          obtain ⟨-, -, answered, rfl⟩ := Model.forward_spec forward
          have hfed := Model.covers_append.mpr ⟨hhanded, hsampled sample⟩
          simpa [recover, Call.fedTokens] using hfed
      | fed sample absorb forward =>
          obtain ⟨-, -, answered, rfl⟩ := Model.forward_spec forward
          have hfed := Model.covers_append.mpr ⟨hhanded, hsampled sample⟩
          simpa [Call.fedTokens] using hfed

theorem covers_asks (hkeeps : Backend.Keeps (Backend.vocabSize : β → Nat)) {request : Request}
    (asks : Session.Asks chat request calls chat') :
    chat.model.Covers (calls.flatMap Call.fedTokens) := by
  cases asks with
  | resetChat | evaluate => exact Model.covers_nil _
  | prefill prefilled => exact h.covers_prefilled prefilled
  | decode decoded => exact h.covers_decoded hkeeps decoded

end Fits

theorem fits_of_run (hkeeps : Backend.Keeps (Backend.vocabSize : β → Nat))
    {registry : Registry (Loader β)} {entropy : Nat → Nat → UInt32} {requests : List Request}
    (hchat : ((Session.new registry entropy).run requests).1.chat = some chat)
    (hrange : chat.model.tokenizer.InRange) : chat.Fits := by
  refine ⟨hrange, ?_, (stepInvariant_logitsWhole hkeeps).invariant.run hchat⟩
  obtain ⟨name, directory, calls, -, horigin⟩ := Session.origin_of_run hchat
  obtain ⟨found, configured, ran, fits, named, tokenizer, backend, chain⟩ := horigin
  rw [tokenizer, backend, hkeeps.replay]
  exact fits.sizes.2.2

end Chat

/-- With a tokenizer whose tokens with a role are among its tokens, every token that a call feeds to
the model has a logit, also where there are more logits than tokens. -/
theorem fed_tokens_lt (hkeeps : Backend.Keeps (Backend.vocabSize : β → Nat))
    {registry : Registry (Loader β)} {entropy : Nat → Nat → UInt32} {requests : List Request}
    {chat : Chat β} (hchat : ((Session.new registry entropy).run requests).1.chat = some chat)
    {tokens merges : List String} {bos unknown : Option TokenId} {eos : List TokenId}
    {v : Vocabulary} {b : BytePair} (hvocabulary : Vocabulary.new tokens bos eos unknown = .ok v)
    (hmerges : BytePair.new v merges = .ok b) (htokenizer : chat.model.tokenizer = b.tokenizer)
    (request : Request) :
    let response := ((Session.new registry entropy).run requests).1.perform request
    ∀ token ∈ response.events.flatMap Event.fedTokens,
      token.toNat < Backend.vocabSize chat.model.backend := by
  intro response token htoken
  have hrange : chat.model.tokenizer.InRange := by
    rw [htokenizer]
    apply BytePair.inRange_tokenizer
    rw [BytePair.new_eq_ok hmerges]
    exact Vocabulary.inRange_new hvocabulary
  have hfits := Chat.fits_of_run hkeeps hchat hrange
  obtain ⟨event, hevent, hfed⟩ := List.mem_flatMap.mp htoken
  cases event with
  | load | release | lose => cases hfed
  | call serial told =>
      obtain ⟨old, calls, chat', hold, hasks, hevents⟩ := Session.exists_asks_of_call_mem hevent
      cases hchat.symm.trans hold
      rw [hevents, flatMap_fedTokens_call] at htoken
      exact hfits.covers_asks hkeeps hasks token htoken

/-- The third logit belongs to no token and is the greatest. -/
theorem fed_tokens_lt_steady :
    let v : Vocabulary :=
      { tokens := #["a", "b"], index := Vocabulary.indexOf ["a", "b"], bos := some 1, eos := []
        unknown := some 0 }
    let b : BytePair := { vocabulary := v, ranks := ∅ }
    let backend : Steady := { logits := [0, 0, 1] }
    let registry := (Registry.register {} "steady" fun _ _ _ => .ok ⟨backend, b.tokenizer⟩).2
    let configFile :=
      File.ofText "\x7b\"temperature\":0,\"conv_template\":\x7b\"system\":\"\"\x7d\x7d"
    let s := ((Session.new registry fun _ _ => 0).run
      [Steady.load configFile, .prefill (.text "ab")]).1
    let fed := (s.perform .decode).events.flatMap Event.fedTokens
    Vocabulary.new ["a", "b"] (some 1) [] (some 0) = .ok v ∧ BytePair.new v [] = .ok b ∧
      b.tokenizer.vocabSize = 2 ∧ 2 ∈ fed ∧ ∀ token ∈ fed, token.toNat < 3 := by
  intro v b backend registry configFile s fed
  have hkeeps : Backend.Keeps (Backend.vocabSize : Steady → Nat) :=
    ⟨fun _ _ _ => rfl, fun _ => rfl, fun _ => rfl⟩
  have hvocabulary : Vocabulary.new ["a", "b"] (some 1) [] (some 0) = .ok v := rfl
  have hmerges : BytePair.new v [] = .ok b := rfl
  have hsampled : 2 ∈ fed := by decide +kernel
  have hsome : s.chat.isSome = true := by decide +kernel
  obtain ⟨chat, hchat⟩ := Option.isSome_iff_exists.mp hsome
  obtain ⟨name, directory, calls, -, horigin⟩ := Session.origin_of_run hchat
  obtain ⟨found, configured, ran, fits, named, tokenizer, hbackend, chain⟩ := horigin
  cases Registry.eq_of_resolve found
  cases ran
  rw [Steady.replay_fst] at hbackend
  have hfed := fed_tokens_lt hkeeps hchat hvocabulary hmerges tokenizer .decode
  rw [hbackend] at hfed
  exact ⟨hvocabulary, hmerges, rfl, hsampled, hfed⟩

end Dialogue
