import Mathlib.Algebra.GroupWithZero.Nat
import Dialogue.Session.Chat

/-!
What the calls on a chat can do. Each call has one lemma that names its outcomes, with what has to
hold for each of them; invariants are proved case by case from these and do not open the calls.
-/

namespace Dialogue

variable {β : Type} [Backend β]

/-- Something that can be read of a backend and stays the same as it works. -/
structure Backend.Keeps {α : Type} (f : β → α) : Prop where
  forward : ∀ b input position, f (Backend.forward b input position).2 = f b
  resetCache : ∀ b, f (Backend.resetCache b) = f b
  evaluate : ∀ b, f (Backend.evaluate b).2 = f b

variable {α : Type} {f : β → α}

namespace Model

/-- Two states of one model: they differ by what it was fed and what was sampled. -/
structure Alike (m m' : Model β) : Prop where
  name : m'.name = m.name
  path : m'.path = m.path
  config : m'.config = m.config
  tokenizer : m'.tokenizer = m.tokenizer
  serial : m'.serial = m.serial
  released : m'.released = m.released

omit [Backend β] in
theorem Alike.refl (m : Model β) : m.Alike m :=
  ⟨rfl, rfl, rfl, rfl, rfl, rfl⟩

omit [Backend β] in
theorem Alike.trans {m m' m'' : Model β} (h : m.Alike m') (h' : m'.Alike m'') : m.Alike m'' where
  name := h'.name.trans h.name
  path := h'.path.trans h.path
  config := h'.config.trans h.config
  tokenizer := h'.tokenizer.trans h.tokenizer
  serial := h'.serial.trans h.serial
  released := h'.released.trans h.released

omit [Backend β] in
theorem Alike.sealTokens {m m' : Model β} (h : m.Alike m') : m'.sealTokens = m.sealTokens := by
  rw [Model.sealTokens, Model.sealTokens, h.tokenizer, h.config]

theorem forward_spec {m m' : Model β} {input : Input} {position : Nat} {call : Call}
    {result : Except Backend.Error Logits}
    (h : m.forward input position = (m', call, result)) :
    m.Alike m' ∧ m'.backend = (Backend.forward m.backend input position).2 ∧
      ∃ answered, call = .forward input position answered := by
  rw [forward] at h
  rcases hforward : Backend.forward m.backend input position with ⟨reason | logits, backend⟩
  all_goals
    simp only [hforward, Prod.mk.injEq] at h
    obtain ⟨rfl, rfl, -⟩ := h
    exact ⟨⟨rfl, rfl, rfl, rfl, rfl, rfl⟩, rfl, _, rfl⟩

theorem Alike.of_forward {m m' : Model β} {input : Input} {position : Nat} {call : Call}
    {result : Except Backend.Error Logits}
    (h : m.forward input position = (m', call, result)) : m.Alike m' :=
  (forward_spec h).1

omit [Backend β] in
theorem sample_spec {m m' : Model β} {logits : Logits} {token : Option TokenId}
    (h : m.sample logits = (token, m')) : m.Alike m' ∧ m'.backend = m.backend := by
  rw [sample] at h
  rcases hsample : m.chain.sample logits with ⟨token | token, chain⟩
  all_goals
    simp only [hsample, Prod.mk.injEq] at h
    obtain ⟨-, rfl⟩ := h
    exact ⟨⟨rfl, rfl, rfl, rfl, rfl, rfl⟩, rfl⟩

theorem Alike.reset (m : Model β) : m.Alike m.reset :=
  ⟨rfl, rfl, rfl, rfl, rfl, rfl⟩

def Feeding (calls : List Call) : Prop :=
  ∀ call ∈ calls, ∃ input position answered, call = .forward input position answered

theorem feeding_nil : Feeding [] := by
  simp [Feeding]

theorem feeding_cons (input : Input) (position : Nat) (answered : Bool) {calls : List Call}
    (h : Feeding calls) : Feeding (.forward input position answered :: calls) := by
  intro call hcall
  rcases List.mem_cons.mp hcall with rfl | hcall
  · exact ⟨input, position, answered, rfl⟩
  · exact h call hcall

theorem Feeding.resetCache_not_mem {calls : List Call} (h : Feeding calls) :
    .resetCache ∉ calls := by
  intro hmem
  obtain ⟨input, position, answered, heq⟩ := h _ hmem
  cases heq

theorem forward_feeding {m m' : Model β} {input : Input} {position : Nat} {call : Call}
    {result : Except Backend.Error Logits}
    (h : m.forward input position = (m', call, result)) : Feeding [call] := by
  obtain ⟨-, -, answered, rfl⟩ := forward_spec h
  exact feeding_cons input position answered feeding_nil

/-- How inputs are fed one after another, each where the one before it ended. -/
inductive FedBy : Model β → Nat → List (Input × Nat) → Model β → List Call →
    Except Backend.Error (Option Logits) → Prop
  | nil (m : Model β) (position : Nat) : FedBy m position [] m [] (.ok none)
  | failed {m m' : Model β} {position length : Nat} {input : Input} {rest : List (Input × Nat)}
      {call : Call} {reason : Backend.Error}
      (forward : m.forward input position = (m', call, .error reason)) :
      FedBy m position ((input, length) :: rest) m' [call] (.error reason)
  | fed {m m₁ m' : Model β} {position length : Nat} {input : Input} {rest : List (Input × Nat)}
      {call : Call} {calls : List Call} {logits : Logits}
      {result : Except Backend.Error (Option Logits)}
      (forward : m.forward input position = (m₁, call, .ok logits))
      (later : FedBy m₁ (addWord position length) rest m' calls result) :
      FedBy m position ((input, length) :: rest) m' (call :: calls)
        (result.map fun last => last.or (some logits))

theorem fedBy_feed (m : Model β) (position : Nat) (inputs : List (Input × Nat)) :
    FedBy m position inputs (m.feed position inputs).model (m.feed position inputs).calls
      (m.feed position inputs).result := by
  induction inputs generalizing m position with
  | nil => exact .nil m position
  | cons first rest ih =>
      obtain ⟨input, length⟩ := first
      rw [feed]
      rcases hforward : m.forward input position with ⟨m₁, call, reason | logits⟩
      · exact .failed hforward
      · exact .fed hforward (ih m₁ (addWord position length))

theorem fedBy_of_feed {m m' : Model β} {position : Nat} {inputs : List (Input × Nat)}
    {calls : List Call} {result : Except Backend.Error (Option Logits)}
    (h : m.feed position inputs = ⟨m', calls, result⟩) :
    FedBy m position inputs m' calls result := by
  have hfed := fedBy_feed m position inputs
  rwa [h] at hfed

theorem feed_spec {m m' : Model β} {position : Nat} {inputs : List (Input × Nat)}
    {calls : List Call} {result : Except Backend.Error (Option Logits)}
    (h : m.feed position inputs = ⟨m', calls, result⟩) :
    m.Alike m' ∧ Feeding calls := by
  have hfed := fedBy_of_feed h
  clear h
  induction hfed with
  | nil m => exact ⟨Alike.refl m, feeding_nil⟩
  | failed forward => exact ⟨(forward_spec forward).1, forward_feeding forward⟩
  | fed forward later ih =>
      obtain ⟨halike, -, answered, rfl⟩ := forward_spec forward
      exact ⟨halike.trans ih.1, feeding_cons _ _ answered ih.2⟩

theorem Alike.of_feed {m m' : Model β} {position : Nat} {inputs : List (Input × Nat)}
    {calls : List Call} {result : Except Backend.Error (Option Logits)}
    (h : m.feed position inputs = ⟨m', calls, result⟩) : m.Alike m' :=
  (feed_spec h).1

end Model

namespace Backend.Keeps

theorem of_forward (h : Keeps f) {m m' : Model β} {input : Input} {position : Nat} {call : Call}
    {result : Except Error Logits} (hforward : m.forward input position = (m', call, result)) :
    f m'.backend = f m.backend := by
  rw [(Model.forward_spec hforward).2.1]
  exact h.forward m.backend input position

theorem of_fedBy (h : Keeps f) {m m' : Model β} {position : Nat} {inputs : List (Input × Nat)}
    {calls : List Call} {result : Except Error (Option Logits)}
    (hfed : Model.FedBy m position inputs m' calls result) : f m'.backend = f m.backend := by
  induction hfed with
  | nil => rfl
  | failed forward => exact h.of_forward forward
  | fed forward later ih => exact ih.trans (h.of_forward forward)

theorem of_feed (h : Keeps f) {m m' : Model β} {position : Nat} {inputs : List (Input × Nat)}
    {calls : List Call} {result : Except Error (Option Logits)}
    (hfeed : m.feed position inputs = ⟨m', calls, result⟩) : f m'.backend = f m.backend :=
  h.of_fedBy (Model.fedBy_of_feed hfeed)

end Backend.Keeps

namespace Chat

theorem Plan.positions_eq (p : Plan) :
    p.positions = (p.inputs.map Prod.snd).sum % UInt64.size := by
  rw [inputs, positions, addWord_eq]
  by_cases hempty : p.tokens = [] <;> cases p.image <;> simp [hempty]

inductive Planned (chat : Chat β) : Prompt → Plan → Prop
  | text {s : String} (nonempty : s ≠ "") :
      Planned chat (.text s) { tokens := chat.promptTokens s, image := none, part := .text s }
  | image {image normal : Tensor} {positions : Nat} (form : Image.normalize image = .ok normal)
      (supported : Backend.imageEmbedLen chat.model.backend = some positions) :
      Planned chat (.image image)
        { tokens := chat.promptTokens "", image := some (normal, positions), part := .image }

theorem planOf_eq_ok {chat : Chat β} {input : Prompt} {plan : Plan}
    (h : chat.planOf input = .ok plan) : chat.Planned input plan := by
  cases input with
  | text s =>
      rw [planOf] at h
      split at h
      · cases h
      · rename_i hs
        cases h
        exact .text hs
  | image image =>
      rw [planOf] at h
      split at h
      · cases h
      · rename_i positions hsupported
        cases hform : Image.normalize image with
        | error reason => simp [hform, bind, Except.bind] at h
        | ok normal =>
            simp only [hform, bind, Except.bind, Except.ok.injEq] at h
            cases h
            exact .image hform hsupported

theorem plan_eq_ok {chat : Chat β} {input : Prompt} {plan : Plan}
    (h : chat.plan input = .ok plan) :
    chat.Planned input plan ∧
      addWord chat.conversation.position
          (addWord plan.positions chat.model.sealTokens.length) ≤
        chat.model.config.contextWindow := by
  rw [Chat.plan] at h
  cases hplan : chat.planOf input with
  | error reason => simp [hplan, bind, Except.bind] at h
  | ok plan' =>
      simp only [hplan, bind, Except.bind, checkRoom] at h
      split at h
      · cases h
      · rename_i hroom
        cases h
        exact ⟨planOf_eq_ok hplan, Nat.le_of_not_lt hroom⟩

inductive Prefilled (chat : Chat β) (input : Prompt) : Outcome β Unit → Prop
  | refused {reason : Rejection} (refusal : chat.plan input = .error reason) :
      Prefilled chat input ⟨chat, [], .error (.invalidInput reason)⟩
  | failed {plan : Plan} {model : Model β} {calls : List Call} {reason : Backend.Error}
      (planned : chat.plan input = .ok plan)
      (feed : chat.model.feed chat.conversation.position plan.inputs =
        ⟨model, calls, .error reason⟩) :
      Prefilled chat input (recover model calls .prefill reason)
  | fed {plan : Plan} {model : Model β} {calls : List Call} {logits : Option Logits}
      (planned : chat.plan input = .ok plan)
      (feed : chat.model.feed chat.conversation.position plan.inputs =
        ⟨model, calls, .ok logits⟩) :
      Prefilled chat input
        ⟨{ model
           conversation := chat.conversation.addPart plan.part plan.positions logits
           usage := chat.usage.addPrefill plan.positions }, calls, .ok ()⟩

theorem prefilled_prefill (chat : Chat β) (input : Prompt) :
    chat.Prefilled input (chat.prefill input) := by
  rw [prefill]
  cases hplan : chat.plan input with
  | error reason => exact .refused hplan
  | ok plan =>
      rcases hfeed : chat.model.feed chat.conversation.position plan.inputs with
        ⟨model, calls, reason | logits⟩
      · simp only [hfeed]
        exact .failed hplan hfeed
      · simp only [hfeed]
        exact .fed hplan hfeed

theorem Prefilled.alike {chat : Chat β} {input : Prompt} {outcome : Outcome β Unit}
    (h : chat.Prefilled input outcome) : chat.model.Alike outcome.chat.model := by
  cases h with
  | refused => exact .refl chat.model
  | failed planned feed => exact (Model.Alike.of_feed feed).trans (.reset _)
  | fed planned feed => exact .of_feed feed

theorem Prefilled.keeps (h : Backend.Keeps f) {chat : Chat β} {input : Prompt}
    {outcome : Outcome β Unit} (ho : chat.Prefilled input outcome) :
    f outcome.chat.model.backend = f chat.model.backend := by
  cases ho with
  | refused => rfl
  | failed planned feed => exact (h.resetCache _).trans (h.of_feed feed)
  | fed planned feed => exact h.of_feed feed

/-- How a decode comes to sample: the reply goes on, or the user's turn ends and a reply begins. -/
inductive HandedOver (chat : Chat β) : Chat β → List Call → Draft → Prop
  | going {draft : Draft} (turn : chat.conversation.progress = .decoding draft) :
      HandedOver chat chat [] draft
  | bare {parts : List Part} {logits : Logits}
      (turn : chat.conversation.progress = .prefilling parts (some logits))
      (empty : chat.model.sealTokens = []) :
      HandedOver chat
        { chat with
          conversation := chat.conversation.beginReply parts chat.conversation.position }
        [] (chat.freshDraft logits)
  | fed {parts : List Part} {old : Option Logits} {model : Model β} {call : Call}
      {logits : Logits} (turn : chat.conversation.progress = .prefilling parts old)
      (nonempty : chat.model.sealTokens ≠ [])
      (forward : chat.model.forward (.tokens chat.model.sealTokens) chat.conversation.position =
        (model, call, .ok logits)) :
      HandedOver chat
        { model
          conversation := chat.conversation.beginReply parts
            (addWord chat.conversation.position chat.model.sealTokens.length)
          usage := chat.usage.addPrefill chat.model.sealTokens.length }
        [call]
        { reply := .ofStops model.config.template.stopStrings, generated := 0, logits }

theorem HandedOver.alike {chat chat' : Chat β} {calls : List Call} {draft : Draft}
    (h : chat.HandedOver chat' calls draft) : chat.model.Alike chat'.model := by
  cases h with
  | going => exact .refl chat.model
  | bare => exact .refl chat.model
  | fed turn nonempty forward => exact .of_forward forward

theorem HandedOver.keeps (h : Backend.Keeps f) {chat chat' : Chat β} {calls : List Call}
    {draft : Draft} (ho : chat.HandedOver chat' calls draft) :
    f chat'.model.backend = f chat.model.backend := by
  cases ho with
  | going => rfl
  | bare => rfl
  | fed turn nonempty forward => exact h.of_forward forward

theorem HandedOver.feeding {chat chat' : Chat β} {calls : List Call} {draft : Draft}
    (h : chat.HandedOver chat' calls draft) : Model.Feeding calls := by
  cases h with
  | going => exact Model.feeding_nil
  | bare => exact Model.feeding_nil
  | fed turn nonempty forward => exact Model.forward_feeding forward

/-- What becomes of a reply by a token that is not fed yet, and why the reply ends, if it does. -/
inductive Absorbed (model : Model β) (position : Nat) (reply : Reply) (token : TokenId) :
    Reply → Option StopReason → Prop
  | endOfSequence (eos : model.tokenizer.isEos token = true) :
      Absorbed model position reply token reply (some .endOfSequence)
  | stopString (eos : model.tokenizer.isEos token = false)
      (stop : (reply.push (model.tokenizer.tokenBytes token)).1 = true) :
      Absorbed model position reply token (reply.push (model.tokenizer.tokenBytes token)).2
        (some .stopString)
  | contextWindow (eos : model.tokenizer.isEos token = false)
      (stop : (reply.push (model.tokenizer.tokenBytes token)).1 = false)
      (full : model.config.contextWindow ≤ position) :
      Absorbed model position reply token (reply.push (model.tokenizer.tokenBytes token)).2
        (some .contextWindow)
  | goesOn (eos : model.tokenizer.isEos token = false)
      (stop : (reply.push (model.tokenizer.tokenBytes token)).1 = false)
      (room : position < model.config.contextWindow) :
      Absorbed model position reply token (reply.push (model.tokenizer.tokenBytes token)).2 none

omit [Backend β] in
theorem absorbed_of_absorb {model : Model β} {position : Nat} {reply reply' : Reply}
    {token : TokenId} {reason : Option StopReason}
    (h : absorb model position reply token = (reply', reason)) :
    Absorbed model position reply token reply' reason := by
  rw [absorb] at h
  by_cases heos : model.tokenizer.isEos token = true
  · rw [if_pos heos] at h
    cases h
    exact .endOfSequence heos
  · rw [if_neg heos] at h
    rw [Bool.not_eq_true] at heos
    rcases hpush : reply.push (model.tokenizer.tokenBytes token) with ⟨stop | stop, pushed⟩
    all_goals
      have hreply : pushed = (reply.push (model.tokenizer.tokenBytes token)).2 := by rw [hpush]
      rw [hpush] at h
      dsimp only at h
    · by_cases hfull : model.config.contextWindow ≤ position
      · rw [if_pos hfull] at h
        cases h
        exact hreply ▸ .contextWindow heos (by rw [hpush]) hfull
      · rw [if_neg hfull] at h
        cases h
        exact hreply ▸ .goesOn heos (by rw [hpush]) (Nat.lt_of_not_le hfull)
    · cases h
      exact hreply ▸ .stopString heos (by rw [hpush])

omit [Backend β] in
theorem settle_cases (model : Model β) (c : Conversation) (draft : Draft) :
    (model.config.maxGenLength ≤ draft.generated ∧
      settle model c draft =
        Conversation.stop { c with position := addWord c.position 1 } draft.reply
          .maxGenLength) ∨
    (draft.generated < model.config.maxGenLength ∧
      settle model c draft =
        { c with position := addWord c.position 1, progress := .decoding draft }) := by
  by_cases h : model.config.maxGenLength ≤ draft.generated
  · exact .inl ⟨h, by simp [settle, h]⟩
  · exact .inr ⟨Nat.lt_of_not_le h, by simp [settle, h]⟩

theorem addPart_position (c : Conversation) (part : Part) (positions : Nat)
    (logits : Option Logits) :
    (c.addPart part positions logits).position = addWord c.position positions := by
  rw [Conversation.addPart]
  cases c.progress <;> rfl

theorem addPart_isPrefilling (c : Conversation) (part : Part) (positions : Nat)
    (logits : Option Logits) : (c.addPart part positions logits).isPrefilling = true := by
  rw [Conversation.addPart]
  cases c.progress <;> rfl

theorem addPart_progress_ne_idle (c : Conversation) (part : Part) (positions : Nat)
    (logits : Option Logits) : (c.addPart part positions logits).progress ≠ .idle := by
  rw [Conversation.addPart]
  cases c.progress <;> nofun

omit [Backend β] in
theorem settle_position (model : Model β) (c : Conversation) (draft : Draft) :
    (settle model c draft).position = addWord c.position 1 := by
  rcases settle_cases model c draft with ⟨-, h⟩ | ⟨-, h⟩ <;> exact h ▸ rfl

omit [Backend β] in
theorem settle_isPrefilling (model : Model β) (c : Conversation) (draft : Draft) :
    (settle model c draft).isPrefilling = false := by
  rcases settle_cases model c draft with ⟨-, h⟩ | ⟨-, h⟩ <;> exact h ▸ rfl

omit [Backend β] in
theorem settle_progress_ne_idle (model : Model β) (c : Conversation) (draft : Draft) :
    (settle model c draft).progress ≠ .idle := by
  rcases settle_cases model c draft with ⟨-, h⟩ | ⟨-, h⟩ <;> rw [h] <;> nofun

inductive Extended (chat : Chat β) (calls : List Call) (draft : Draft) : Outcome β Unit → Prop
  | unsampled {model : Model β} (sample : chat.model.sample draft.logits = (none, model)) :
      Extended chat calls draft (recover model calls .decode (.forward .noLogits))
  | ended {token : TokenId} {model : Model β} {reply : Reply} {reason : StopReason}
      (sample : chat.model.sample draft.logits = (some token, model))
      (absorb : absorb model chat.conversation.position draft.reply token = (reply, some reason)) :
      Extended chat calls draft
        ⟨{ model, conversation := chat.conversation.stop reply reason
           usage := chat.usage.addDecode }, calls ++ [.sample token], .ok ()⟩
  | failed {token : TokenId} {model model' : Model β} {reply : Reply} {call : Call}
      {reason : Backend.Error}
      (sample : chat.model.sample draft.logits = (some token, model))
      (absorb : absorb model chat.conversation.position draft.reply token = (reply, none))
      (forward : model.forward (.tokens [token]) chat.conversation.position =
        (model', call, .error reason)) :
      Extended chat calls draft
        (recover model' (calls ++ [.sample token] ++ [call]) .decode reason)
  | fed {token : TokenId} {model model' : Model β} {reply : Reply} {call : Call} {logits : Logits}
      (sample : chat.model.sample draft.logits = (some token, model))
      (absorb : absorb model chat.conversation.position draft.reply token = (reply, none))
      (forward : model.forward (.tokens [token]) chat.conversation.position =
        (model', call, .ok logits)) :
      Extended chat calls draft
        ⟨{ model := model'
           conversation := settle model' chat.conversation
             { reply, generated := addWord draft.generated 1, logits }
           usage := chat.usage.addDecode }, calls ++ [.sample token] ++ [call], .ok ()⟩

theorem extended_extend (chat : Chat β) (calls : List Call) (draft : Draft) :
    chat.Extended calls draft (chat.extend calls draft) := by
  rw [extend]
  rcases hsample : chat.model.sample draft.logits with ⟨token | token, model⟩
  · exact .unsampled hsample
  · dsimp only
    rcases habsorb : absorb model chat.conversation.position draft.reply token with
      ⟨reply, reason | reason⟩
    · dsimp only
      rcases hforward : model.forward (.tokens [token]) chat.conversation.position with
        ⟨model', call, reason | logits⟩
      · exact .failed hsample habsorb hforward
      · exact .fed hsample habsorb hforward
    · exact .ended hsample habsorb

theorem Extended.alike {chat : Chat β} {calls : List Call} {draft : Draft}
    {outcome : Outcome β Unit} (h : chat.Extended calls draft outcome) :
    chat.model.Alike outcome.chat.model := by
  cases h with
  | unsampled sample => exact (Model.sample_spec sample).1.trans (.reset _)
  | ended sample absorb => exact (Model.sample_spec sample).1
  | failed sample absorb forward =>
      exact ((Model.sample_spec sample).1.trans (.of_forward forward)).trans (.reset _)
  | fed sample absorb forward => exact (Model.sample_spec sample).1.trans (.of_forward forward)

theorem Extended.keeps (h : Backend.Keeps f) {chat : Chat β} {calls : List Call} {draft : Draft}
    {outcome : Outcome β Unit} (ho : chat.Extended calls draft outcome) :
    f outcome.chat.model.backend = f chat.model.backend := by
  cases ho with
  | unsampled sample =>
      exact (h.resetCache _).trans (congrArg f (Model.sample_spec sample).2)
  | ended sample absorb => exact congrArg f (Model.sample_spec sample).2
  | failed sample absorb forward =>
      exact (h.resetCache _).trans
        ((h.of_forward forward).trans (congrArg f (Model.sample_spec sample).2))
  | fed sample absorb forward =>
      exact (h.of_forward forward).trans (congrArg f (Model.sample_spec sample).2)

inductive Decoded (chat : Chat β) : Outcome β Unit → Prop
  | refused {reason : Session.Error}
      (refusal : reason = .nothingToDecode ∨ reason = .alreadyStopped) :
      Decoded chat ⟨chat, [], .error reason⟩
  | failed {parts : List Part} {old : Option Logits} {model : Model β} {call : Call}
      {reason : Backend.Error} (turn : chat.conversation.progress = .prefilling parts old)
      (nonempty : chat.model.sealTokens ≠ [])
      (forward : chat.model.forward (.tokens chat.model.sealTokens) chat.conversation.position =
        (model, call, .error reason)) :
      Decoded chat (recover model [call] .prefill reason)
  | sampled {chat' : Chat β} {calls : List Call} {draft : Draft} {outcome : Outcome β Unit}
      (handed : chat.HandedOver chat' calls draft) (extended : chat'.Extended calls draft outcome) :
      Decoded chat outcome

theorem Decoded.keeps (h : Backend.Keeps f) {chat : Chat β} {outcome : Outcome β Unit}
    (ho : chat.Decoded outcome) : f outcome.chat.model.backend = f chat.model.backend := by
  cases ho with
  | refused => rfl
  | failed turn nonempty forward => exact (h.resetCache _).trans (h.of_forward forward)
  | sampled handed extended => exact (extended.keeps h).trans (handed.keeps h)

theorem decoded_begin {chat : Chat β} {parts : List Part} {logits : Option Logits}
    (turn : chat.conversation.progress = .prefilling parts logits) :
    chat.Decoded (chat.begin parts logits) := by
  unfold begin
  split
  · exact .refused (.inl rfl)
  · rename_i hseal
    exact .sampled (.bare turn hseal) (extended_extend _ _ _)
  · rename_i logits _ _ hnone hsome
    have hne : chat.model.sealTokens ≠ [] := by
      intro hseal
      rcases hlogits : logits with _ | logits'
      · exact hnone hseal hlogits
      · exact hsome logits' hseal hlogits
    rcases hforward : chat.model.forward (.tokens chat.model.sealTokens)
      chat.conversation.position with ⟨model, call, reason | logits'⟩
    · exact .failed turn hne hforward
    · exact .sampled (.fed turn hne hforward) (extended_extend _ _ _)

theorem decoded_decode (chat : Chat β) : chat.Decoded chat.decode := by
  rw [decode]
  cases hprogress : chat.conversation.progress with
  | idle => exact .refused (.inl rfl)
  | prefilling parts logits => exact decoded_begin hprogress
  | decoding draft => exact .sampled (.going hprogress) (extended_extend chat [] draft)
  | stopped reply reason => exact .refused (.inr rfl)

theorem Decoded.alike {chat : Chat β} {outcome : Outcome β Unit} (h : chat.Decoded outcome) :
    chat.model.Alike outcome.chat.model := by
  cases h with
  | refused => exact .refl chat.model
  | failed turn nonempty forward => exact (Model.Alike.of_forward forward).trans (.reset _)
  | sampled handed extended => exact handed.alike.trans extended.alike

end Chat

end Dialogue
