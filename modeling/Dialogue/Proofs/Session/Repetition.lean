import Dialogue.Proofs.Sampling.Window
import Dialogue.Proofs.Session.Restart

namespace Dialogue

variable {β : Type} [Backend β]

/-- The tokens sampled since a session last started over, in whatever turn. -/
def Session.sampled (log : List (Session.Entry β)) : List TokenId :=
  log.foldl (fun tokens entry =>
    if entry.restarts then [] else tokens ++ entry.response.events.filterMap Event.sampled?) []

omit [Backend β] in
theorem Session.sampled_concat (log : List (Session.Entry β)) (entry : Session.Entry β) :
    sampled (log ++ [entry]) =
      if entry.restarts then []
      else sampled log ++ entry.response.events.filterMap Event.sampled? :=
  List.foldl_append

variable {p : SamplingParams} {tokens : List TokenId}

omit [Backend β] in
theorem Model.remembers_of_sample {m m' : Model β} {logits : Logits} {token : TokenId}
    (h : m.chain.Remembers p tokens) (hsample : m.sample logits = (some token, m')) :
    m'.chain.Remembers p (tokens ++ [token]) := by
  rw [sample] at hsample
  rcases hchain : m.chain.sample logits with ⟨token' | token', chain⟩
  all_goals
    simp only [hchain, Prod.mk.injEq, reduceCtorEq, false_and, Option.some.injEq] at hsample
  obtain ⟨rfl, rfl⟩ := hsample
  have hstages : chain.stages = m.chain.stages := by
    rw [← show (m.chain.sample logits).2 = chain by rw [hchain]]
    rfl
  exact Chain.Remembers.accept (hstages.trans h) token'

namespace Chat

variable {chat chat' : Chat β} {outcome : Outcome β Unit}

theorem Prefilled.remembers {input : Prompt} (h : chat.Prefilled input outcome)
    (hfault : Session.faults outcome.result = false) (hchat : chat.model.chain.Remembers p tokens) :
    outcome.chat.model.chain.Remembers p (tokens ++ outcome.calls.filterMap Call.sampled?) := by
  cases h with
  | failed planned feed => cases hfault
  | refused refusal => rwa [List.filterMap_nil, List.append_nil]
  | fed planned feed =>
      rw [filterMap_sampled_of_feeding (Model.feed_spec feed).2, List.append_nil]
      exact Model.feed_chain feed ▸ hchat

theorem Extended.remembers {calls : List Call} {draft : Draft}
    (h : chat.Extended calls draft outcome) (hcalls : Model.Feeding calls)
    (hfault : Session.faults outcome.result = false) (hchat : chat.model.chain.Remembers p tokens) :
    outcome.chat.model.chain.Remembers p (tokens ++ outcome.calls.filterMap Call.sampled?) := by
  cases h with
  | unsampled sample => cases hfault
  | failed sample absorb forward => cases hfault
  | ended sample absorb =>
      rw [List.filterMap_append, filterMap_sampled_of_feeding hcalls]
      exact Model.remembers_of_sample hchat sample
  | fed sample absorb forward =>
      rw [List.filterMap_append, filterMap_sampled_of_feeding (Model.forward_feeding forward),
        List.append_nil, List.filterMap_append, filterMap_sampled_of_feeding hcalls]
      exact Model.forward_chain forward ▸ Model.remembers_of_sample hchat sample

theorem Decoded.remembers (h : chat.Decoded outcome)
    (hfault : Session.faults outcome.result = false) (hchat : chat.model.chain.Remembers p tokens) :
    outcome.chat.model.chain.Remembers p (tokens ++ outcome.calls.filterMap Call.sampled?) := by
  cases h with
  | refused refusal => rwa [List.filterMap_nil, List.append_nil]
  | failed turn nonempty forward => cases hfault
  | sampled handed extended =>
      exact extended.remembers handed.feeding hfault (handed.chain_eq ▸ hchat)

/-- A chain was made from the parameters of its model and took note of these tokens. -/
structure Remembers (chat : Chat β) (tokens : List TokenId) : Prop where
  stems : chat.model.chain.Stems chat.model.config.sampling
  remembers : chat.model.chain.Remembers chat.model.config.sampling tokens

theorem Remembers.after (h : chat.Remembers tokens) (halike : chat.model.Alike outcome.chat.model)
    (hstems : outcome.chat.model.chain.Stems chat.model.config.sampling)
    (hfaulty : Session.faults outcome.result = true → chat.Restarted outcome)
    (hkept : Session.faults outcome.result = false →
      outcome.chat.model.chain.Remembers chat.model.config.sampling
        (tokens ++ outcome.calls.filterMap Call.sampled?)) :
    outcome.chat.Remembers
      (if Session.faults outcome.result then []
        else tokens ++ outcome.calls.filterMap Call.sampled?) := by
  rw [← halike.config] at hstems hkept
  refine ⟨hstems, ?_⟩
  cases hfault : Session.faults outcome.result
  · exact hkept hfault
  · exact halike.config ▸ ((hfaulty hfault).chain _ h.stems).remembers

theorem logInvariant_remembers (registry : Registry (Loader β)) :
    LogInvariant registry fun chat _ log => chat.Remembers (Session.sampled log) := by
  refine ⟨?_, ?_, ?_, ?_, ?_⟩
  all_goals simp only [Session.sampled_concat]
  · intro s past log name directory model hregistry hloads
    have hrestarts : Session.Entry.restarts ⟨s, .reload name directory,
        s.perform (.reload name directory)⟩ = true := by
      rw [Session.Entry.restarts, Session.perform, hloads.reload_eq]
      rfl
    have hanew := (Model.restored_of_loads hregistry hloads).chain
    rw [if_pos hrestarts]
    exact ⟨hanew.stems, hanew.remembers⟩
  · intro s chat past log hchat hremembers
    rw [Session.perform_resetChat hchat]
    have hanew := hremembers.stems.anew_reset
    exact ⟨hanew.stems, hanew.remembers⟩
  · intro s chat past log input hchat hremembers
    have houtcome := chat.prefilled_prefill input
    rw [Session.perform_prefill hchat, Session.Entry.restarts, Session.faults_map,
      filterMap_sampled_call]
    exact hremembers.after houtcome.alike (houtcome.stems hremembers.stems) houtcome.restarted
      fun hfault => houtcome.remembers hfault hremembers.remembers
  · intro s chat past log hchat hremembers
    have houtcome := chat.decoded_decode
    rw [Session.perform_decode hchat, Session.Entry.restarts, Session.faults_map,
      filterMap_sampled_call]
    exact hremembers.after houtcome.alike (houtcome.stems hremembers.stems) houtcome.restarted
      fun hfault => houtcome.remembers hfault hremembers.remembers
  · intro s chat past log hchat hremembers
    rw [Session.perform_evaluate hchat, Session.Entry.restarts, if_neg Bool.false_ne_true]
    change chat.evaluate.chat.Remembers (Session.sampled log ++ [])
    rw [List.append_nil]
    exact ⟨hremembers.stems, hremembers.remembers⟩

end Chat

theorem Session.remembers_of_run {registry : Registry (Loader β)} {entropy : Nat → Nat → UInt32}
    {requests : List Request} {chat : Chat β}
    (hchat : ((Session.new registry entropy).run requests).1.chat = some chat) :
    chat.Remembers (sampled ((Session.new registry entropy).log requests)) :=
  (Chat.logInvariant_remembers registry).run hchat

/-- A penalty divides or multiplies the logit of each token in its window, once, and leaves
everything else. Its window holds the last of the tokens accepted since the last reset, and in a
session the last of the tokens sampled since the session last started over. -/
theorem penalty_looks_back :
    (∀ (penalty : Binary32) (window : Nat) (recent : List TokenId) (cs : List Candidate),
      List.Forall₂ (Candidate.Penalized penalty recent) cs
        (Stage.apply cs (.repetitionPenalty penalty window recent))) ∧
    (∀ (c : Chain) (acts : List Chain.Act) (i : Nat) (penalty : Binary32) (window : Nat),
      c.stages[i]? = some (.ofPenalty penalty window) →
      ∃ recent, Stage.Window window (Chain.accepted acts) recent ∧
        (c.run acts).2.stages[i]? = some (.repetitionPenalty penalty window recent)) ∧
    ∀ {registry : Registry (Loader β)} {entropy : Nat → Nat → UInt32} {requests : List Request}
      {chat : Chat β},
      ((Session.new registry entropy).run requests).1.chat = some chat →
      let p := chat.model.config.sampling
      1 < p.repetitionPenalty →
      ∃ recent filters,
        Stage.Window p.penaltyWindow
          (Session.sampled ((Session.new registry entropy).log requests)) recent ∧
        chat.model.chain.stages =
          .repetitionPenalty p.repetitionPenalty p.penaltyWindow recent :: filters ∧
        ∀ penalty window tokens, .repetitionPenalty penalty window tokens ∉ filters := by
  refine ⟨Candidate.forall₂_penalized, ?_, ?_⟩
  · intro c acts i penalty window hstage
    refine ⟨_, Stage.window_rtake window (Chain.accepted acts), ?_⟩
    rw [Chain.run_stages, List.getElem?_map, hstage, Option.map_some,
      Stage.hearAll_eq_acceptAll rfl, Stage.acceptAll_ofPenalty]
  · intro registry entropy requests chat hchat p hpenalty
    have hstages := (Session.remembers_of_run hchat).remembers.trans
      (SamplingParams.map_acceptAll_stages hpenalty _)
    refine ⟨_, _, Stage.window_rtake p.penaltyWindow _, hstages, ?_⟩
    intro penalty window tokens hmem
    split at hmem
    · cases hmem
    · exact p.not_mem_filterStages penalty window tokens hmem

/-- A window of two, in a chain that was reset once and over three turns that end at once. -/
theorem penalty_looks_back_steady :
    let c := ({ repetitionPenalty := 2, penaltyWindow := 2 } : SamplingParams).chain fun _ => 0
    let tokenizer : Tokenizer :=
      { encode := fun _ => [0], tokenBytes := fun _ => [0x61], vocabSize := 1, bos := none
        eos := [0] }
    let configFile := File.ofText
      "\x7b\"temperature\":0,\"repetition_penalty\":2,\"penalty_window\":2\x7d"
    let turn := [.prefill (.text "Hi"), .decode]
    let requests := Steady.load configFile :: (turn ++ turn ++ turn)
    (c.run [.accept 1, .reset, .accept 2, .accept 3, .accept 3]).2.stages[0]? =
        some (.repetitionPenalty 2 2 [3, 3]) ∧
      ∃ chat filters,
        ((Session.new (Steady.registry tokenizer) fun _ _ => 0).run requests).1.chat = some chat ∧
        Session.sampled ((Session.new (Steady.registry tokenizer) fun _ _ => 0).log requests) =
          [0, 0, 0] ∧
        chat.model.chain.stages = .repetitionPenalty 2 2 [0, 0] :: filters := by
  intro c tokenizer configFile turn requests
  obtain ⟨-, hchain, hsession⟩ := @penalty_looks_back Steady _
  refine ⟨?_, ?_⟩
  · obtain ⟨recent, hwindow, hstage⟩ :=
      hchain c [.accept 1, .reset, .accept 2, .accept 3, .accept 3] 0 2 2 rfl
    have hrecent : recent = [3, 3] := hwindow.eq
    exact hrecent ▸ hstage
  · have hparams : ((Session.new (Steady.registry tokenizer) fun _ _ => 0).run
        requests).1.chat.map (fun chat => chat.model.config.sampling) =
          some { temperature := 0, repetitionPenalty := 2, penaltyWindow := 2 } := by
      decide +kernel
    have hsampled : Session.sampled ((Session.new (Steady.registry tokenizer) fun _ _ => 0).log
        requests) = [0, 0, 0] := by decide +kernel
    obtain ⟨chat, hchat, hparams⟩ := Option.map_eq_some_iff.mp hparams
    have hlooks := hsession hchat
    rw [hparams, hsampled] at hlooks
    obtain ⟨recent, filters, hwindow, hstages, -⟩ := hlooks (by decide +kernel)
    have hrecent : recent = [0, 0] := hwindow.eq
    exact ⟨chat, filters, hchat, hsampled, hrecent ▸ hstages⟩

end Dialogue
