import Dialogue.Proofs.Sampling.Selection
import Dialogue.Proofs.Session.Course
import Dialogue.Proofs.Session.Origin
import Dialogue.Proofs.Session.Turns

namespace Dialogue

open Backend (replay)

variable {β : Type} [Backend β]

namespace Backend

/-- Every input is answered, with one logit for each token of the vocabulary. -/
def Answers (β : Type) [Backend β] : Prop :=
  ∀ (b : β) (input : Input) (position : Nat), ∃ logits,
    (forward b input position).1 = .ok logits ∧ logits.length = vocabSize b

theorem Keeps.replay {α : Type} {f : β → α} (h : Keeps f) (b : β) (calls : List Call) :
    f (replay b calls).1 = f b := by
  induction calls using List.reverseRecOn with
  | nil => rfl
  | append_singleton calls call ih =>
      rw [replay_append_fst]
      cases call with
      | forward input position answered => exact (h.forward _ input position).trans ih
      | sample token => exact ih
      | resetCache => exact (h.resetCache _).trans ih
      | evaluate => exact (h.evaluate _).trans ih

theorem Answers.replay_snd (h : Answers β) (hkeeps : Keeps (vocabSize : β → Nat)) (b : β)
    (calls : List Call) :
    ((replay b calls).2.isSome = true ↔ calls.filterMap Call.input? ≠ []) ∧
      ∀ logits, (replay b calls).2 = some logits → logits.length = vocabSize b := by
  induction calls using List.reverseRecOn with
  | nil => exact ⟨by simp [replay], nofun⟩
  | append_singleton calls call ih =>
      rw [replay_append, List.filterMap_append]
      cases call with
      | forward input position answered =>
          obtain ⟨logits, hanswer, hlength⟩ := h (replay b calls).1 input position
          rw [hkeeps.replay] at hlength
          have hheard : ([Call.forward input position answered].foldl hear (replay b calls)).2 =
              some logits := by
            simp only [List.foldl_cons, List.foldl_nil, hear, hanswer]
            rfl
          rw [hheard]
          refine ⟨by simp [Call.input?], fun other hother => ?_⟩
          cases hother
          exact hlength
      | sample token | resetCache | evaluate =>
          rw [List.filterMap_cons_none rfl, List.filterMap_nil, List.append_nil]
          exact ih

end Backend

namespace Model

theorem exists_forward (hanswers : Backend.Answers β)
    (hkeeps : Backend.Keeps (Backend.vocabSize : β → Nat)) (m : Model β) (input : Input)
    (position : Nat) : ∃ m' call logits, m.forward input position = (m', call, .ok logits) := by
  obtain ⟨logits, hanswer, hlength⟩ := hanswers m.backend input position
  have hsize := hkeeps.forward m.backend input position
  rw [forward]
  rcases hforward : Backend.forward m.backend input position with ⟨answer, backend⟩
  rw [hforward] at hanswer hsize
  dsimp only at hanswer hsize
  subst hanswer
  refine ⟨{ m with backend }, .forward input position true, logits, ?_⟩
  dsimp only
  rw [checkLogits, if_pos (hlength.trans hsize.symm)]

omit [Backend β] in
theorem sample_fst (m : Model β) (logits : Logits) :
    (m.sample logits).1 = (m.chain.sample logits).1 := by
  rw [sample]
  rcases m.chain.sample logits with ⟨token | token, chain⟩ <;> rfl

end Model

namespace Chat

/-- The logits at hand were answered last, to a call of the current turn. -/
inductive Primed (chat : Chat β) (x : Course β) : Prop
  | idle (turn : chat.conversation.progress = .idle)
  | stopped {reply : Reply} {reason : StopReason}
      (turn : chat.conversation.progress = .stopped reply reason)
  | primed {b : β} (opening : x.opening = some b)
      (replayed : replay b x.calls = (chat.model.backend, chat.conversation.pending?))

variable {chat chat' : Chat β} {calls : List Call} {draft : Draft} {x : Course β}

theorem HandedOver.replayed (h : chat.HandedOver chat' calls draft) (hprimed : chat.Primed x) :
    ∃ b, x.opening = some b ∧
      replay b (x.calls ++ calls) = (chat'.model.backend, some draft.logits) := by
  cases hprimed with
  | idle turn' => cases h with | going turn | bare turn | fed turn => cases turn.symm.trans turn'
  | stopped turn' =>
      cases h with | going turn | bare turn | fed turn => cases turn.symm.trans turn'
  | @primed b opening replayed =>
      refine ⟨b, opening, ?_⟩
      rw [Backend.replay_append, replayed, Conversation.pending?]
      cases h with
      | going turn =>
          rw [turn]
          rfl
      | bare turn empty =>
          rw [turn]
          rfl
      | fed turn nonempty forward => exact Model.hear_of_forward_ok forward

theorem pending?_addPart (c : Conversation) (part : Part) (positions : Nat)
    (logits : Option Logits) :
    (c.addPart part positions logits).pending? =
      logits.or (if c.isPrefilling then c.pending? else none) := by
  rw [Conversation.addPart, Conversation.isPrefilling]
  cases hprogress : c.progress with
  | prefilling parts old => simp [Conversation.pending?, hprogress]
  | idle | decoding | stopped => simp [Conversation.pending?]

theorem courseInvariant_primed :
    CourseInvariant fun (chat : Chat β) (_ : Transcript) x => chat.Primed x where
  fresh _ := .idle rfl
  prefill {chat t x piece model calls logits} h hpart hroom feed := by
    by_cases hopen : chat.conversation.isPrefilling = true
    · rw [if_pos hopen]
      cases h with
      | idle turn | stopped turn => simp [Conversation.isPrefilling, turn] at hopen
      | primed opening replayed =>
          refine .primed opening ?_
          rw [pending?_addPart, if_pos hopen, Course.hear, Backend.replay_append, replayed]
          exact Model.hear_of_feed_ok feed
    · rw [if_neg hopen]
      refine .primed rfl ?_
      rw [pending?_addPart, if_neg hopen]
      exact Model.hear_of_feed_ok feed
  ended _ _ _ _ := .stopped rfl
  fed {chat chat' t x calls draft token model model' reply call logits} h handed sample absorb
      forward := by
    rcases settle_cases model' chat'.conversation
      { reply, generated := addWord draft.generated 1, logits } with ⟨-, hsettle⟩ | ⟨-, hsettle⟩
    · rw [hsettle]
      exact .stopped rfl
    · obtain ⟨b, hopening, hreplayed⟩ := handed.replayed h
      have hheard : Backend.hear (model.backend, some draft.logits) call =
          (model'.backend, some logits) := Model.hear_of_forward_ok forward
      rw [(Model.sample_spec sample).2] at hheard
      rw [hsettle]
      refine .primed hopening ?_
      rw [Course.hear, ← List.append_assoc, ← List.append_assoc, Backend.replay_append,
        Backend.replay_append, hreplayed]
      exact hheard
  evaluate h := by
    cases h with
    | idle turn => exact .idle turn
    | stopped turn => exact .stopped turn
    | primed opening replayed =>
        refine .primed opening ?_
        rw [Course.hear, Backend.replay_append, replayed]
        rfl

variable (hanswers : Backend.Answers β) (hkeeps : Backend.Keeps (Backend.vocabSize : β → Nat))

include hanswers hkeeps

theorem extend_ok (chat : Chat β) (calls : List Call) (h : draft.logits ≠ []) :
    ∃ token later, (chat.model.chain.sample draft.logits).1 = some token ∧
      (chat.extend calls draft).result = .ok () ∧
      (chat.extend calls draft).calls = calls ++ .sample token :: later := by
  have hextended := chat.extended_extend calls draft
  have hsome := Chain.sample_isSome h chat.model.chain
  have hfst := chat.model.sample_fst draft.logits
  generalize chat.extend calls draft = outcome at hextended
  cases hextended with
  | unsampled sample =>
      rw [← hfst, sample] at hsome
      cases hsome
  | failed sample absorb forward =>
      obtain ⟨_, _, _, hforward⟩ := Model.exists_forward hanswers hkeeps _ _ _
      cases forward.symm.trans hforward
  | @ended token model reply reason sample absorb =>
      rw [sample] at hfst
      exact ⟨token, [], hfst.symm, rfl, rfl⟩
  | @fed token model model' reply call logits sample absorb forward =>
      rw [sample] at hfst
      exact ⟨token, [call], hfst.symm, rfl, by simp⟩

theorem exists_handedOver {parts : List Part} {logits : Option Logits}
    (turn : chat.conversation.progress = .prefilling parts logits)
    (h : logits.isSome = true ∨ chat.model.sealTokens ≠ []) :
    ∃ chat' calls draft, chat.HandedOver chat' calls draft ∧
      chat.decode = chat'.extend calls draft := by
  rw [decode, turn]
  dsimp only
  by_cases hseal : chat.model.sealTokens = []
  · have hsome : logits.isSome = true := h.resolve_right fun hne => hne hseal
    obtain ⟨logits, rfl⟩ := Option.isSome_iff_exists.mp hsome
    refine ⟨_, [], _, .bare turn hseal, ?_⟩
    simp only [begin, hseal]
    rfl
  · obtain ⟨model, call, answer, hforward⟩ := Model.exists_forward hanswers hkeeps chat.model
      (.tokens chat.model.sealTokens) chat.conversation.position
    refine ⟨_, [call], _, .fed turn hseal hforward, ?_⟩
    unfold begin
    split
    · contradiction
    · contradiction
    · rw [hforward]
      rfl

theorem decode_ok (hprimed : chat.Primed x)
    (hvocabulary : Backend.vocabSize chat.model.backend ≠ 0)
    (handed : chat.HandedOver chat' calls draft)
    (hdecode : chat.decode = chat'.extend calls draft) :
    chat.decode.result = .ok () ∧
      ∃ b logits token later, x.opening = some b ∧
        (replay b (x.calls ++ calls)).2 = some logits ∧
        (chat.model.chain.sample logits).1 = some token ∧
        chat.decode.calls = calls ++ .sample token :: later := by
  obtain ⟨b, hopening, hreplayed⟩ := handed.replayed hprimed
  have hlast : (replay b (x.calls ++ calls)).2 = some draft.logits := by rw [hreplayed]
  have hlength := (hanswers.replay_snd hkeeps b (x.calls ++ calls)).2 _ hlast
  have hsize := hkeeps.replay b (x.calls ++ calls)
  rw [hreplayed, handed.keeps hkeeps] at hsize
  have hne : draft.logits ≠ [] := by
    rw [← List.length_pos_iff, hlength, ← hsize]
    exact Nat.pos_of_ne_zero hvocabulary
  obtain ⟨token, later, htoken, hresult, hcalls⟩ := extend_ok hanswers hkeeps chat' calls hne
  rw [handed.chain_eq] at htoken
  rw [hdecode]
  exact ⟨hresult, b, draft.logits, token, later, hopening, hlast, htoken, hcalls⟩

end Chat

/-- What happens to a model when a token is sampled from the logits that it answered last since the
user's turn was opened, the tokens that hand over included. -/
def Chat.SamplesLatest (chat : Chat β) (x : Course β) (events : List Event) : Prop :=
  ∃ b handed logits token later, x.opening = some b ∧ Model.Feeding handed ∧
    (replay b (x.calls ++ handed)).2 = some logits ∧
    (chat.model.chain.sample logits).1 = some token ∧
    events = (handed ++ Call.sample token :: later).map (.call chat.model.serial)

/-- With a model that answers, a decode gives a token exactly in a reply that goes on, or in a turn
for which something was fed or is fed to hand over; the token is sampled from what the model
answered last in the turn. Else there is nothing to decode, or the reply stopped; a decode never
meets a fault. -/
theorem decode_progress (hkeeps : Backend.Keeps (Backend.vocabSize : β → Nat))
    (hanswers : Backend.Answers β) {registry : Registry (Loader β)} {entropy : Nat → Nat → UInt32}
    {requests : List Request} {chat : Chat β}
    (hchat : ((Session.new registry entropy).run requests).1.chat = some chat) :
    let s := ((Session.new registry entropy).run requests).1
    let x := Course.ofLog ((Session.new registry entropy).log requests)
    let response := s.perform .decode
    let prompted := x.calls.filterMap Call.input? ≠ [] ∨ chat.model.sealTokens ≠ []
    (response.result = .ok none ↔ s.state = .decoding ∨ s.state = .prefilling ∧ prompted) ∧
    (response.result = .error .nothingToDecode ↔
      s.state = .loaded ∨ s.state = .prefilling ∧ ¬ prompted) ∧
    (response.result = .error .alreadyStopped ↔ s.state = .stopped) ∧
    (∀ stage reason, response.result ≠ .error (.inference stage reason)) ∧
    (response.result = .ok none → chat.SamplesLatest x response.events) := by
  intro s x response prompted
  have hprimed : chat.Primed x := Chat.courseInvariant_primed.run hchat
  obtain ⟨name, directory, calls, -, horigin⟩ := Session.origin_of_run hchat
  -- no model of an empty vocabulary is loaded, so the logits are never empty either
  have hvocabulary : Backend.vocabSize chat.model.backend ≠ 0 := by
    obtain ⟨found, configured, ran, fits, named, tokenizer, backend, -⟩ := horigin
    rw [backend, hkeeps.replay]
    exact fits.sizes.1
  have hresponse : response = _ := Session.perform_decode hchat
  have hsamples : ∀ {chat' : Chat β} {calls : List Call} {draft : Draft},
      chat.HandedOver chat' calls draft → chat.decode = chat'.extend calls draft →
      response.result = .ok none ∧ chat.SamplesLatest x response.events := by
    intro chat' calls draft handed hdecode
    obtain ⟨hok, b, logits, token, later, hopening, hlast, htoken, hcalls⟩ :=
      Chat.decode_ok hanswers hkeeps hprimed hvocabulary handed hdecode
    rw [hresponse, hok, hcalls]
    exact ⟨rfl, b, calls, logits, token, later, hopening, handed.feeding, hlast, htoken, rfl⟩
  have hprogress := Session.progress_of_state (s := s) hchat
  cases hstate : s.state with
  | unloaded =>
      rw [hstate] at hprogress
      exact hprogress.elim
  | loaded =>
      rw [hstate] at hprogress
      have hresult : response.result = .error .nothingToDecode := by
        rw [hresponse, Chat.decode, hprogress]
        rfl
      simp [hresult]
  | stopped =>
      rw [hstate] at hprogress
      obtain ⟨reply, reason, hprogress⟩ := hprogress
      have hresult : response.result = .error .alreadyStopped := by
        rw [hresponse, Chat.decode, hprogress]
        rfl
      simp [hresult]
  | decoding =>
      rw [hstate] at hprogress
      obtain ⟨draft, hprogress⟩ := hprogress
      obtain ⟨hresult, hlatest⟩ := hsamples (.going hprogress) (by rw [Chat.decode, hprogress])
      simp [hresult, hlatest]
  | prefilling =>
      rw [hstate] at hprogress
      obtain ⟨parts, logits, hprogress⟩ := hprogress
      have hlogits : logits.isSome = true ↔ x.calls.filterMap Call.input? ≠ [] := by
        cases hprimed with
        | idle turn | stopped turn => cases hprogress.symm.trans turn
        | @primed b opening replayed =>
            have hsome := (hanswers.replay_snd hkeeps b x.calls).1
            rwa [replayed, Conversation.pending?, hprogress] at hsome
      by_cases hprompted : prompted
      · obtain ⟨chat', calls, draft, handed, hdecode⟩ :=
          Chat.exists_handedOver hanswers hkeeps hprogress (hprompted.imp_left hlogits.mpr)
        obtain ⟨hresult, hlatest⟩ := hsamples handed hdecode
        simp [hresult, hlatest, hprompted]
      · have hresult : response.result = .error .nothingToDecode := by
          simp only [prompted, ← hlogits, not_or, not_not, Bool.not_eq_true,
            Option.isSome_eq_false_iff, Option.isNone_iff_eq_none] at hprompted
          obtain ⟨rfl, hseal⟩ := hprompted
          rw [hresponse, Chat.decode, hprogress]
          simp only [Chat.begin, hseal]
          rfl
        simp [hresult, hprompted]

theorem decode_progress_steady :
    let tokenizer : Tokenizer :=
      { encode := fun _ => [0], tokenBytes := fun _ => [0x61], vocabSize := 1, bos := none
        eos := [] }
    let requests := [Steady.load none, .prefill (.text "Hi")]
    let s := ((Session.new (Steady.registry tokenizer) fun _ _ => 0).run requests).1
    let x := Course.ofLog ((Session.new (Steady.registry tokenizer) fun _ _ => 0).log requests)
    Backend.Keeps (Backend.vocabSize : Steady → Nat) ∧ Backend.Answers Steady ∧
      s.state = .prefilling ∧ (s.perform .decode).result = .ok none ∧
      ∃ chat, s.chat = some chat ∧ chat.SamplesLatest x (s.perform .decode).events := by
  intro tokenizer requests s x
  have hkeeps : Backend.Keeps (Backend.vocabSize : Steady → Nat) :=
    ⟨fun _ _ _ => rfl, fun _ => rfl, fun _ => rfl⟩
  have hanswers : Backend.Answers Steady := fun b _ _ => ⟨b.logits, rfl, rfl⟩
  have hstate : s.state = .prefilling := by decide +kernel
  have hsome : s.chat.isSome = true := by decide +kernel
  obtain ⟨chat, hchat⟩ := Option.isSome_iff_exists.mp hsome
  obtain ⟨hok, -, -, -, hlatest⟩ := decode_progress hkeeps hanswers hchat
  have hfed : x.calls.filterMap Call.input? ≠ [] := by
    have hlength : (x.calls.filterMap Call.input?).length = 1 := by decide +kernel
    exact List.ne_nil_of_length_eq_add_one hlength
  have hresult := hok.mpr (.inr ⟨hstate, .inl hfed⟩)
  exact ⟨hkeeps, hanswers, hstate, hresult, chat, hchat, hlatest hresult⟩

end Dialogue
