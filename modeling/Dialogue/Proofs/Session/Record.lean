import Dialogue.Session.Record
import Dialogue.Proofs.Session.Workspace

namespace Dialogue

variable {β : Type} [Backend β]

namespace SessionRecord

variable {s : SessionRecord β} {v : Session β} {spent : Nat}

/-- What the fields of a session hold, with and without a model. -/
inductive Holds (spent : Nat) : SessionRecord β → Session β → Prop
  | vacant {registry : Registry (Loader β)} {entropy : Nat → Nat → UInt32} {loads : Nat} :
      Holds spent { registry, entropy, loads } { registry, entropy, loads }
  | loaded {registry : Registry (Loader β)} {entropy : Nat → Nat → UInt32} {loads : Nat}
      {w : Workspace β} {chat : Chat β} (holds : w.Holds chat w.calls spent) :
      Holds spent
        { registry, entropy, loads
          model := some w.model
          conversation := w.conversation
          throughput := w.throughput }
        { registry, entropy, loads, chat := some chat }

omit [Backend β] in
theorem Holds.mono {budget : Nat} (h : Holds spent s v) (hle : spent ≤ budget) :
    Holds budget s v := by
  cases h with
  | vacant => exact .vacant
  | loaded holds => exact .loaded { holds with spent := holds.spent.trans hle }

/-- What a call leaves follows that of a session, or it breaks off, having taken too long. -/
inductive Follows (spent : Nat) (response : Session.Response β (Option String)) :
    Except Breach (Response β) → Prop
  | done {s : SessionRecord β} (holds : Holds spent s response.session) :
      Follows spent response (.ok ⟨s, response.events, response.result⟩)
  | late {reason : Duration.Error} (limit : Duration.limit ≤ spent) :
      Follows spent response (.error (.time reason))

omit [Backend β] in
theorem released_eq (h : Holds spent s v) : s.released = v.close.2 := by
  cases h with
  | vacant => rfl
  | loaded holds =>
      rw [released, Session.close, holds.model]
      rfl

omit [Backend β] in
theorem Follows.of_eq {budget : Nat} {response : Session.Response β (Option String)}
    {left : Response β} (holds : Holds budget left.session response.session)
    (events : left.events = response.events) (result : left.result = response.result) :
    Follows budget response (.ok left) := by
  obtain ⟨s, _, _⟩ := left
  cases events
  cases result
  exact .done holds

omit [Backend β] in
theorem Follows.mono {budget budget' : Nat} {response : Session.Response β (Option String)}
    {left : Except Breach (Response β)} (h : Follows budget response left)
    (hle : budget ≤ budget') : Follows budget' response left := by
  cases h with
  | done holds => exact .done (holds.mono hle)
  | late limit => exact .late (limit.trans hle)

theorem Holds.converse (h : Holds spent s v) {budget : Nat}
    {call : Workspace β → Except Breach (Workspace.Left β Unit)}
    {call' : Chat β → Chat.Outcome β Unit}
    (hcall : ∀ {w : Workspace β} {chat : Chat β}, w.Holds chat [] spent →
      Workspace.Yields budget (call w) (call' chat)) :
    Follows budget (v.onChat call').discard (s.converse call) := by
  cases h with
  | vacant => exact .done .vacant
  | @loaded registry entropy loads w chat holds =>
      have hyields := hcall (w := { w with calls := [] }) { holds with calls := rfl }
      rw [SessionRecord.converse]
      rcases hleft : call { w with calls := [] } with breach | ⟨left, result⟩
      · rw [hleft] at hyields
        dsimp only at hleft ⊢
        rw [hleft]
        cases hyields with
        | late limit => exact .late limit
      · rw [hleft] at hyields
        dsimp only at hleft ⊢
        rw [hleft]
        obtain ⟨hholds, rfl⟩ := hyields.recover
        refine .of_eq (.loaded { hholds with calls := rfl }) ?_ rfl
        dsimp only
        rw [hholds.calls, holds.model]
        rfl

theorem Holds.resetChat (h : Holds spent s v) (budget : Nat) :
    Follows budget v.resetChat.discard s.resetChat :=
  h.converse fun {w chat} hw => by
    have hholds := Workspace.holds_fresh chat.model.reset [.resetCache] budget
    rw [Workspace.reset, hw.calls, hw.model]
    exact .done (o := chat.reset) hholds rfl

omit [Backend β] in
theorem Holds.vacant_eq (h : Holds spent s v) (budget : Nat) : Holds budget s.vacant v.close.1 := by
  cases h with
  | vacant => exact .vacant
  | loaded holds => exact .vacant

theorem Holds.evaluate (h : Holds spent s v) :
    Follows spent (v.perform .evaluate) (.ok s.evaluate) := by
  cases h with
  | vacant => exact .done .vacant
  | @loaded registry entropy loads w chat holds =>
      obtain ⟨model, c, throughput, calls⟩ := w
      obtain ⟨rfl, hconversation, hposition, husage, hidle, -, hspent⟩ := holds
      rw [Session.perform_evaluate rfl]
      let evaluated : Workspace β := ⟨chat.evaluate.chat.model, c, throughput, calls⟩
      have hholds : evaluated.Holds chat.evaluate.chat calls spent :=
        ⟨rfl, hconversation, hposition, husage, hidle, rfl, hspent⟩
      exact .of_eq (.loaded hholds) rfl rfl

theorem reload_close (v : Session β) (name : String) (directory : ModelDirectory) :
    let response := v.close.1.reload name directory
    v.reload name directory =
      ⟨response.session, v.close.2 ++ response.events, response.result⟩ := by
  intro response
  have hclose : v.close.1.close = (v.close.1, []) := rfl
  simp only [response, Session.reload, hclose]
  cases v.close.1.registry.resolve name with
  | error reason => simp
  | ok loader => cases Config.load directory.configFile <;> simp

theorem Holds.reload (h : Holds spent s v) (budget : Nat) (name : String)
    (directory : ModelDirectory) :
    Follows budget (v.reload name directory).discard (.ok (s.reload name directory)) := by
  have hblank : ({ registry := s.registry, entropy := s.entropy, loads := s.loads } : Session β) =
      v.close.1 := by
    cases h <;> rfl
  have hvacant : s.vacant =
      { registry := v.close.1.registry
        entropy := v.close.1.entropy
        loads := v.close.1.loads } := by
    cases h <;> rfl
  have hreloaded := v.close.1.reloaded_reload name directory
  rw [reload_close, SessionRecord.reload, hblank, hvacant, released_eq h]
  refine .of_eq ?_ rfl rfl
  dsimp only [Session.Response.discard]
  generalize v.close.1.reload name directory = response at hreloaded
  cases hreloaded with
  | failed | brokeOff => exact .vacant
  | @loaded model given => exact .loaded (Workspace.holds_fresh model [] budget)

theorem Holds.perform (h : Holds spent s v) (request : Request) (elapsed : Elapsed) :
    Follows (spent + elapsed.total) (v.perform request) (s.perform elapsed request) := by
  cases request with
  | reload name directory => exact h.reload _ name directory
  | unload => exact .of_eq (h.vacant_eq _) (released_eq h) rfl
  | resetChat => exact h.resetChat _
  | prefill input =>
      have hwithin : spent + elapsed.prompt.total ≤ spent + elapsed.total := by
        rw [Elapsed.total]
        omega
      exact (h.converse fun hw => hw.prefill input elapsed.prompt).mono hwithin
  | decode => exact h.converse fun hw => hw.decode elapsed
  | evaluate => exact (h.mono (Nat.le_add_right ..)).evaluate

theorem Holds.run (h : Holds spent s v) (calls : List (Request × Elapsed)) :
    let budget := spent + (calls.map fun call => call.2.total).sum
    let requests := calls.map Prod.fst
    (∃ last, Holds budget last (v.run requests).1 ∧
      s.run calls = .ok (last, (v.log requests).map fun entry =>
        (entry.response.events, entry.response.result))) ∨
    ∃ reason, s.run calls = .error (.time reason) ∧ Duration.limit ≤ budget := by
  induction calls generalizing s v spent with
  | nil => exact .inl ⟨s, h, rfl⟩
  | cons call rest ih =>
      obtain ⟨request, elapsed⟩ := call
      have hfollows := h.perform request elapsed
      rw [List.map_cons, List.sum_cons, ← Nat.add_assoc]
      dsimp only
      generalize hleft : s.perform elapsed request = left at hfollows
      cases hfollows with
      | @late reason limit =>
          refine .inr ⟨reason, ?_, limit.trans (Nat.le_add_right ..)⟩
          rw [SessionRecord.run, hleft]
          rfl
      | @done next holds =>
          rcases ih holds with ⟨last, hlast, hrun⟩ | ⟨reason, hrun, hlimit⟩
          · refine .inl ⟨last, hlast, ?_⟩
            rw [SessionRecord.run, hleft]
            dsimp only [bind, Except.bind]
            rw [hrun]
            rfl
          · refine .inr ⟨reason, ?_, hlimit⟩
            rw [SessionRecord.run, hleft]
            dsimp only [bind, Except.bind]
            rw [hrun]

/-- A session in memory looks like another from outside; and what the phase does not tell is gone
from its fields. -/
structure Shows (s : SessionRecord β) (v : Session β) : Prop where
  model : s.model = v.chat.map Chat.model
  state : s.state = v.state
  message : s.message = some v.conversation.message
  stopReason : s.conversation.stopReason = v.conversation.stopReason
  history : s.conversation.history = v.conversation.history
  position : s.conversation.position = v.conversation.position
  usage : s.throughput.usage = v.usage
  openTurn : s.conversation.openTurn.isSome = true ↔ v.state = .prefilling
  logits : v.state = .decoding → s.conversation.logits.isSome = true
  idle : v.state = .unloaded ∨ v.state = .loaded → s.conversation = {} ∧ s.throughput = {}

theorem readText_ofStops (stops : List String) :
    (ReplyBuffer.ofStops stops).readText = some "" := by
  rw [ReplyBuffer.ofStops_eq_layout, ReplyBuffer.readText_layout]
  rfl

omit [Backend β] in
theorem Holds.shows (h : Holds spent s v) : s.Shows v := by
  have hempty : ({} : ReplyBuffer).readText = some "" := readText_ofStops []
  cases h with
  | vacant =>
      exact ⟨rfl, rfl, hempty, rfl, rfl, rfl, rfl, by simp [Session.state],
        by simp [Session.state],
        fun _ => ⟨rfl, rfl⟩⟩
  | @loaded registry entropy loads w chat holds =>
      obtain ⟨model, c, throughput, calls⟩ := w
      obtain ⟨_, v, usage⟩ := chat
      obtain ⟨rfl, hholds, -, rfl, hidle, -, -⟩ := holds
      dsimp only at hholds hidle
      cases hholds with
      | idle =>
          exact ⟨rfl, rfl, hempty, rfl, rfl, rfl, rfl, by simp [Session.state],
        by simp [Session.state],
            fun _ => ⟨rfl, hidle rfl⟩⟩
      | prefilling =>
          exact ⟨rfl, rfl, readText_ofStops _, rfl, rfl, rfl, rfl, by simp [Session.state],
        by simp [Session.state],
            by simp [Session.state]⟩
      | decoding sound =>
          exact ⟨rfl, rfl, ReplyBuffer.readText_layout _, rfl, rfl, rfl, rfl,
            by simp [Session.state, ConversationRecord.drafting], fun _ => rfl,
            by simp [Session.state]⟩
      | stopped =>
          exact ⟨rfl, rfl, ReplyBuffer.readText_layout _, rfl, rfl, rfl, rfl,
            by simp [Session.state],
        by simp [Session.state], by simp [Session.state]⟩

/-- A run in memory has the answers of the run of a session, and shows what that shows; it breaks
off only if its calls take as long as cannot be counted. -/
theorem run_shows (registry : Registry (Loader β)) (entropy : Nat → Nat → UInt32)
    (calls : List (Request × Elapsed)) :
    let requests := calls.map Prod.fst
    let fresh := Session.new registry entropy
    let run := (SessionRecord.new registry entropy).run calls
    (∀ s answers, run = .ok (s, answers) →
      s.Shows (fresh.run requests).1 ∧
        answers = (fresh.log requests).map fun entry =>
          (entry.response.events, entry.response.result)) ∧
    (∀ breach, run = .error breach →
      (∃ reason, breach = .time reason) ∧
        Duration.limit ≤ (calls.map fun call => call.2.total).sum) := by
  intro requests fresh run
  have hfresh : Holds 0 (SessionRecord.new registry entropy) fresh := .vacant
  rcases hfresh.run calls with ⟨last, hlast, hrun⟩ | ⟨reason, hrun, hlimit⟩
  · refine ⟨?_, ?_⟩
    · intro s answers heq
      cases hrun.symm.trans heq
      exact ⟨hlast.shows, rfl⟩
    · intro breach heq
      cases hrun.symm.trans heq
  · refine ⟨?_, ?_⟩
    · intro s answers heq
      cases hrun.symm.trans heq
    · intro breach heq
      cases hrun.symm.trans heq
      exact ⟨⟨reason, rfl⟩, by simpa using hlimit⟩

end SessionRecord

end Dialogue
