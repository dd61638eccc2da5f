import Dialogue.Session.Workspace
import Dialogue.Proofs.Reply.Buffer
import Dialogue.Proofs.Session.Restart

namespace Dialogue

variable {β : Type} [Backend β]

namespace Duration

def total (d : Duration) : Nat :=
  d.seconds * nanosPerSecond + d.nanos

/-- The least number of nanoseconds that is not counted. -/
def limit : Nat :=
  UInt64.size * nanosPerSecond

theorem total_ofParts (seconds nanos : Nat) :
    (ofParts seconds nanos).total = seconds * nanosPerSecond + nanos := by
  have hnanos := Nat.div_add_mod nanos nanosPerSecond
  rw [total, ofParts, Nat.add_mul, Nat.add_assoc, Nat.mul_comm (nanos / nanosPerSecond), hnanos]

theorem add_cases (d e : Duration) :
    (∃ sum, d.add e = .ok sum ∧ sum.total = d.total + e.total) ∨
      d.add e = .error .overflow ∧ limit ≤ d.total + e.total := by
  have htotal : (ofParts (d.seconds + e.seconds) (d.nanos + e.nanos)).total =
      d.total + e.total := by
    rw [total_ofParts, total, total, Nat.add_mul]
    omega
  simp only [add]
  split
  · exact .inl ⟨_, rfl, htotal⟩
  · rename_i hlarge
    refine .inr ⟨rfl, ?_⟩
    rw [← htotal]
    simp only [total, limit, nanosPerSecond, UInt64.size] at hlarge ⊢
    omega

end Duration

def Elapsed.total (e : Elapsed) : Nat :=
  e.prompt.total + e.token.total

namespace Throughput

def spent (t : Throughput) : Nat :=
  t.prefillTime.total + t.decodeTime.total

theorem spent_empty : spent {} = 0 := by
  simp [spent, Duration.total]

theorem addPrefill_cases (t : Throughput) (positions : Nat) (elapsed : Duration) :
    (∃ next, t.addPrefill positions elapsed = .ok next ∧
      next.usage = t.usage.addPrefill positions ∧ next.spent = t.spent + elapsed.total) ∨
    ∃ reason, t.addPrefill positions elapsed = .error reason ∧
      Duration.limit ≤ t.spent + elapsed.total := by
  rcases t.prefillTime.add_cases elapsed with ⟨sum, hsum, htotal⟩ | ⟨hsum, hlimit⟩
  · refine .inl ⟨_, by rw [addPrefill, hsum]; rfl, rfl, ?_⟩
    simp only [spent, htotal]
    omega
  · refine .inr ⟨_, by rw [addPrefill, hsum]; rfl, ?_⟩
    rw [spent]
    omega

theorem addDecode_cases (t : Throughput) (elapsed : Duration) :
    (∃ next, t.addDecode elapsed = .ok next ∧ next.usage = t.usage.addDecode ∧
      next.spent = t.spent + elapsed.total) ∨
    ∃ reason, t.addDecode elapsed = .error reason ∧
      Duration.limit ≤ t.spent + elapsed.total := by
  rcases t.decodeTime.add_cases elapsed with ⟨sum, hsum, htotal⟩ | ⟨hsum, hlimit⟩
  · refine .inl ⟨_, by rw [addDecode, hsum]; rfl, rfl, ?_⟩
    simp only [spent, htotal]
    omega
  · refine .inr ⟨_, by rw [addDecode, hsum]; rfl, ?_⟩
    rw [spent]
    omega

end Throughput

/-- A reply that can be laid out: it ends at the stop strings, and at most one character is not
complete. -/
structure Reply.Sound (stops : List String) (r : Reply) : Prop where
  stops : r.stops = (ofStops stops).stops
  waiting : Text.Utf8.Unfinished r.waiting

namespace Reply.Sound

variable {stops : List String} {r : Reply}

theorem ofStops (stops : List String) : (Reply.ofStops stops).Sound stops :=
  ⟨rfl, Text.Utf8.unfinished_nil⟩

theorem perform (h : r.Sound stops) (act : Act) : (r.perform act).2.Sound stops :=
  ⟨(stops_perform r act).trans h.stops, unfinished_perform h.waiting act⟩

theorem push_layout (h : r.Sound stops) (octets : List UInt8) :
    (ReplyBuffer.layout r).push octets =
      some ((r.push octets).1, ReplyBuffer.layout (r.push octets).2) :=
  ReplyBuffer.push_layout h.stops h.waiting octets

end Reply.Sound

theorem ReplyBuffer.readText_layout (r : Reply) : (layout r).readText = some r.text := by
  rw [readText, read_layout, Option.map_some, Text.Utf8.lossy_encode]
  rfl

theorem Conversation.progress_addPart_ne_idle (c : Conversation) (part : Part) (positions : Nat)
    (logits : Option Logits) : (c.addPart part positions logits).progress ≠ .idle := by
  rw [addPart]
  cases c.progress <;> simp

namespace ConversationRecord

variable {stops : List String} {c : ConversationRecord} {v : Conversation}

def drafting (v : Conversation) (draft : Draft) : ConversationRecord where
  history := v.history
  message := .layout draft.reply
  phase := .decoding
  generated := draft.generated
  position := v.position
  logits := some draft.logits

/-- What the fields of a conversation hold in each phase. -/
inductive Holds (stops : List String) : ConversationRecord → Conversation → Prop
  | idle : Holds stops {} {}
  | prefilling {history : List Turn} {parts : List Part} {logits : Option Logits}
      {position : Nat} :
      Holds stops
        { history, position, logits
          openTurn := some (.user parts)
          message := .ofStops stops
          phase := .prefilling }
        { history, position, progress := .prefilling parts logits }
  | decoding {v : Conversation} {draft : Draft} (sound : draft.reply.Sound stops) :
      Holds stops (drafting v draft) { v with progress := .decoding draft }
  | stopped {history : List Turn} {reply : Reply} {reason : StopReason}
      {generated position : Nat} :
      Holds stops
        { history, generated, position
          message := .layout reply
          phase := .stopped
          stopReason := some reason }
        { history, position, progress := .stopped reply reason }

theorem Holds.position (h : Holds stops c v) : c.position = v.position := by
  cases h <;> rfl

theorem commit_layout {reply : Reply} (hmessage : c.message = .layout reply)
    (sound : reply.Sound stops) :
    c.commit = some { c with
      message := .layout reply.flush
      logits := none
      history := c.history ++ [.assistant reply.flush.text] } := by
  rw [commit, hmessage, ReplyBuffer.flush_layout sound.waiting, ReplyBuffer.readText_layout]
  rfl

theorem stop_holds {reply : Reply} (sound : reply.Sound stops)
    (hmessage : c.message = .layout reply) (hhistory : c.history = v.history)
    (hposition : c.position = v.position) (hclosed : c.openTurn = none) (reason : StopReason) :
    ∃ stopped, c.stop reason = some stopped ∧ Holds stops stopped (v.stop reply reason) := by
  rw [stop, commit_layout hmessage sound]
  refine ⟨_, rfl, ?_⟩
  simp only [hhistory, hposition, hclosed]
  exact .stopped

theorem Holds.openUser (h : Holds stops c v) :
    ∃ opened, c.openUser stops = some opened ∧ opened.position = v.position ∧
      ∀ (part : Part) (positions : Nat) (logits : Option Logits),
        Holds stops
          ({ opened with position := addWord v.position positions }.addPart part logits)
          (v.addPart part positions logits) := by
  have hbegun : ∀ {begun : ConversationRecord}, begun.logits = none →
      ∀ part position logits, Holds stops
        ({ begun.beginUser stops with position }.addPart part logits)
        { history := begun.history, position, progress := .prefilling [part] logits } := by
    intro begun hlogits part position logits
    simp only [addPart, beginUser, hlogits, Option.or_none]
    exact .prefilling
  cases h with
  | idle => exact ⟨_, rfl, rfl, fun part _ logits => hbegun rfl part _ logits⟩
  | prefilling => exact ⟨_, rfl, rfl, fun _ _ _ => .prefilling⟩
  | @decoding v draft sound =>
      have hcommit := commit_layout (c := drafting v draft) rfl sound
      rw [ConversationRecord.openUser, hcommit]
      exact ⟨_, rfl, rfl, fun part _ logits => hbegun rfl part _ logits⟩
  | stopped => exact ⟨_, rfl, rfl, fun part _ logits => hbegun rfl part _ logits⟩

end ConversationRecord

def Content.plan (content : Content) (tokens : List TokenId) : Chat.Plan where
  tokens := tokens
  part := content.part
  image :=
    match content with
    | .text _ => none
    | .image tensor positions => some (tensor, positions)

/-- What is fed for a content after its tokens. -/
def Content.inputs : Content → List (Input × Nat)
  | .text _ => []
  | .image tensor positions => [(.image tensor, positions)]

theorem Content.inputs_plan (content : Content) (tokens : List TokenId) :
    (content.plan tokens).inputs =
      (if tokens = [] then [] else [(.tokens tokens, tokens.length)]) ++ content.inputs := by
  cases content <;> rfl

theorem Content.positions_plan (content : Content) (tokens : List TokenId) :
    (content.plan tokens).positions = addWord tokens.length content.imagePositions := by
  cases content <;> rfl

namespace Workspace

/-- A workspace holds a chat and the calls of its model, and no more time than was spent. -/
structure Holds (w : Workspace β) (chat : Chat β) (calls : List Call) (spent : Nat) : Prop where
  model : w.model = chat.model
  conversation : w.conversation.Holds chat.model.config.template.stopStrings chat.conversation
  position : chat.conversation.position < UInt64.size
  usage : w.throughput.usage = chat.usage
  idle : chat.conversation.progress = .idle → w.throughput = {}
  calls : w.calls = calls
  spent : w.throughput.spent ≤ spent

/-- What a call leaves yields an outcome on the chat, before the conversation is given up after a
fault; or it breaks off, having taken too long. -/
inductive Yields (spent : Nat) : Except Breach (Left β Unit) → Chat.Outcome β Unit → Prop
  | done {w : Workspace β} {o : Chat.Outcome β Unit} (holds : w.Holds o.chat o.calls spent)
      (faultless : Session.faults o.result = false) : Yields spent (.ok (w, o.result)) o
  | fault (w : Workspace β) (stage : InferenceStage) (reason : Backend.Error) :
      Yields spent (.ok (w, .error (.inference stage reason)))
        (Chat.recover w.model w.calls stage reason)
  | late {reason : Duration.Error} {o : Chat.Outcome β Unit}
      (limit : Duration.limit ≤ spent) : Yields spent (.error (.time reason)) o

variable {w : Workspace β} {chat : Chat β} {calls : List Call} {spent : Nat}

omit [Backend β] in
theorem recordPrefill_cases (w : Workspace β) (positions : Nat) (elapsed : Duration) :
    (∃ throughput, w.recordPrefill positions elapsed = .ok { w with throughput } ∧
      throughput.usage = w.throughput.usage.addPrefill positions ∧
      throughput.spent = w.throughput.spent + elapsed.total) ∨
    ∃ reason, w.recordPrefill positions elapsed = .error (.time reason) ∧
      Duration.limit ≤ w.throughput.spent + elapsed.total := by
  rcases w.throughput.addPrefill_cases positions elapsed with
    ⟨next, hadd, hnext⟩ | ⟨reason, hadd, hlimit⟩
  · exact .inl ⟨next, by rw [recordPrefill, hadd]; rfl, hnext⟩
  · exact .inr ⟨reason, by rw [recordPrefill, hadd]; rfl, hlimit⟩

omit [Backend β] in
theorem recordDecode_cases (w : Workspace β) (elapsed : Duration) :
    (∃ throughput, w.recordDecode elapsed = .ok { w with throughput } ∧
      throughput.usage = w.throughput.usage.addDecode ∧
      throughput.spent = w.throughput.spent + elapsed.total) ∨
    ∃ reason, w.recordDecode elapsed = .error (.time reason) ∧
      Duration.limit ≤ w.throughput.spent + elapsed.total := by
  rcases w.throughput.addDecode_cases elapsed with
    ⟨next, hadd, hnext⟩ | ⟨reason, hadd, hlimit⟩
  · exact .inl ⟨next, by rw [recordDecode, hadd]; rfl, hnext⟩
  · exact .inr ⟨reason, by rw [recordDecode, hadd]; rfl, hlimit⟩

theorem Yields.of_recordPrefill {positions : Nat} {elapsed : Duration}
    {next : Workspace β → Except Breach (Left β Unit)} {o : Chat.Outcome β Unit}
    (hbudget : w.throughput.spent + elapsed.total ≤ spent)
    (h : ∀ throughput : Throughput, throughput.usage = w.throughput.usage.addPrefill positions →
      throughput.spent = w.throughput.spent + elapsed.total →
      Yields spent (next { w with throughput }) o) :
    Yields spent (w.recordPrefill positions elapsed >>= next) o := by
  rcases w.recordPrefill_cases positions elapsed with
    ⟨throughput, hrecord, husage, hspent⟩ | ⟨reason, hrecord, hlimit⟩
  · rw [hrecord]
    exact h throughput husage hspent
  · rw [hrecord]
    exact .late (hlimit.trans hbudget)

theorem Yields.of_recordDecode {elapsed : Duration}
    {next : Workspace β → Except Breach (Left β Unit)} {o : Chat.Outcome β Unit}
    (hbudget : w.throughput.spent + elapsed.total ≤ spent)
    (h : ∀ throughput : Throughput, throughput.usage = w.throughput.usage.addDecode →
      throughput.spent = w.throughput.spent + elapsed.total →
      Yields spent (next { w with throughput }) o) :
    Yields spent (w.recordDecode elapsed >>= next) o := by
  rcases w.recordDecode_cases elapsed with
    ⟨throughput, hrecord, husage, hspent⟩ | ⟨reason, hrecord, hlimit⟩
  · rw [hrecord]
    exact h throughput husage hspent
  · rw [hrecord]
    exact .late (hlimit.trans hbudget)

theorem feed_cases (w : Workspace β) (stage : InferenceStage) (input : Input) (length : Nat) :
    (∃ model call reason,
      w.model.forward input w.conversation.position = (model, call, .error reason) ∧
      w.feed stage input length =
        ({ w with model, calls := w.calls ++ [call] }, .error (.inference stage reason))) ∨
    ∃ model call logits,
      w.model.forward input w.conversation.position = (model, call, .ok logits) ∧
      w.feed stage input length =
        ({ w with
            model
            conversation := { w.conversation with
              position := addWord w.conversation.position length }
            calls := w.calls ++ [call] }, .ok logits) := by
  rcases hforward : w.model.forward input w.conversation.position with
    ⟨model, call, reason | logits⟩
  · exact .inl ⟨model, call, reason, rfl, by rw [feed, hforward]⟩
  · exact .inr ⟨model, call, logits, rfl, by rw [feed, hforward]⟩

/-- Tokens are fed before all other inputs, unless there are none. -/
theorem feedTokens_cases (hposition : w.conversation.position < UInt64.size)
    (tokens : List TokenId) (rest : List (Input × Nat)) :
    let position := w.conversation.position
    let inputs := (if tokens = [] then [] else [(.tokens tokens, tokens.length)]) ++ rest
    (∃ model call reason, w.model.feed position inputs = ⟨model, [call], .error reason⟩ ∧
      w.feedTokens tokens =
        ({ w with model, calls := w.calls ++ [call] }, .error (.inference .prefill reason))) ∨
    ∃ model calls first,
      let later := model.feed (addWord position tokens.length) rest
      w.model.feed position inputs =
        ⟨later.model, calls ++ later.calls, later.result.map fun last => last.or first⟩ ∧
      w.feedTokens tokens =
        ({ w with
            model
            conversation := { w.conversation with position := addWord position tokens.length }
            calls := w.calls ++ calls }, .ok first) := by
  intro position inputs
  by_cases hempty : tokens = []
  · have hstays : addWord position tokens.length = position := by
      rw [hempty, List.length_nil, addWord_of_lt hposition, Nat.add_zero]
    refine .inr ⟨w.model, [], none, ?_⟩
    rw [hstays, feedTokens, if_pos hempty, List.append_nil]
    refine ⟨?_, rfl⟩
    simp only [inputs, if_pos hempty, List.nil_append]
    rcases w.model.feed position rest with ⟨model, calls, reason | last⟩
    · rfl
    · simp [Except.map]
  · rw [feedTokens, if_neg hempty]
    simp only [inputs, if_neg hempty, List.cons_append, List.nil_append, Model.feed]
    rcases w.feed_cases .prefill (.tokens tokens) tokens.length with
      ⟨model, call, reason, hforward, hfeed⟩ | ⟨model, call, logits, hforward, hfeed⟩
    · refine .inl ⟨model, call, reason, ?_, ?_⟩
      · rw [hforward]
      · rw [hfeed]
        rfl
    · refine .inr ⟨model, [call], some logits, ?_, ?_⟩
      · rw [hforward]
        rfl
      · rw [hfeed]
        rfl

theorem feedImage_cases (hposition : w.conversation.position < UInt64.size)
    (first : Option Logits) (content : Content) :
    let position := w.conversation.position
    (∃ model calls reason, w.model.feed position content.inputs = ⟨model, calls, .error reason⟩ ∧
      w.feedImage first content =
        ({ w with model, calls := w.calls ++ calls }, .error (.inference .prefill reason))) ∨
    ∃ model calls last, w.model.feed position content.inputs = ⟨model, calls, .ok last⟩ ∧
      w.feedImage first content =
        ({ w with
            model
            conversation := { w.conversation with
              position := addWord position content.imagePositions }
            calls := w.calls ++ calls }, .ok (last.or first)) := by
  intro position
  cases content with
  | text s =>
      refine .inr ⟨w.model, [], none, rfl, ?_⟩
      rw [Content.imagePositions, addWord_of_lt hposition, List.append_nil]
      rfl
  | image tensor positions =>
      rw [feedImage, Content.inputs, Model.feed]
      rcases w.feed_cases .prefill (.image tensor) positions with
        ⟨model, call, reason, hforward, hfeed⟩ | ⟨model, call, logits, hforward, hfeed⟩
      · rw [hforward, hfeed]
        exact .inl ⟨model, [call], reason, rfl, rfl⟩
      · rw [hforward, hfeed]
        exact .inr ⟨model, [call], some logits, rfl, rfl⟩

/-- Feeding what a content asks for is feeding its inputs one after another. -/
theorem feedInputs_cases (hposition : w.conversation.position < UInt64.size)
    (tokens : List TokenId) (content : Content) :
    (∃ model calls reason fed,
      w.model.feed w.conversation.position (content.plan tokens).inputs =
        ⟨model, calls, .error reason⟩ ∧
      w.feedInputs tokens content = (fed, .error (.inference .prefill reason)) ∧
      fed.model = model ∧ fed.calls = w.calls ++ calls) ∨
    ∃ model calls logits,
      w.model.feed w.conversation.position (content.plan tokens).inputs =
        ⟨model, calls, .ok logits⟩ ∧
      w.feedInputs tokens content =
        ({ w with
            model
            conversation := { w.conversation with
              position := addWord w.conversation.position (content.plan tokens).positions }
            calls := w.calls ++ calls }, .ok logits) := by
  rw [Content.positions_plan, Content.inputs_plan, ← addWord_assoc]
  rcases feedTokens_cases hposition tokens content.inputs with
    ⟨model, call, reason, hfeed, htokens⟩ | ⟨model, calls, first, hfeed, htokens⟩
  · exact .inl ⟨model, [call], reason, _, hfeed, by rw [feedInputs, htokens], rfl, rfl⟩
  · let begun : Workspace β := { w with
      model
      conversation := { w.conversation with
        position := addWord w.conversation.position tokens.length }
      calls := w.calls ++ calls }
    rcases feedImage_cases (w := begun) (addWord_lt _ _) first content with
      ⟨model', later, reason, hlater, himage⟩ | ⟨model', later, last, hlater, himage⟩
    · rw [hlater] at hfeed
      let fed : Workspace β := { begun with model := model', calls := begun.calls ++ later }
      refine .inl ⟨model', calls ++ later, reason, fed, hfeed, ?_, rfl, List.append_assoc ..⟩
      rw [feedInputs, htokens]
      exact himage
    · rw [hlater] at hfeed
      refine .inr ⟨model', calls ++ later, last.or first, hfeed, ?_⟩
      rw [feedInputs, htokens, ← List.append_assoc]
      exact himage

namespace Holds

variable (h : w.Holds chat calls spent)

include h

omit [Backend β] in
theorem promptTokens (content : Content) :
    w.promptTokens content = chat.promptTokens content.said := by
  have hconversation := h.conversation
  rw [Workspace.promptTokens, Chat.promptTokens, Chat.openingTokens, Chat.openingText, h.model,
    Conversation.isPrefilling, Conversation.isFirst]
  generalize w.conversation = c at hconversation
  generalize chat.conversation = v at hconversation
  cases hconversation <;> simp [ConversationRecord.drafting]

theorem prepare (input : Prompt) :
    chat.planOf input =
      (w.prepare input).map fun content => content.plan (w.promptTokens content) := by
  cases input with
  | text s =>
      by_cases hempty : s = ""
      · simp [Workspace.prepare, Chat.planOf, hempty, Except.map]
      · simp [Workspace.prepare, Chat.planOf, hempty, Except.map, Content.plan, h.promptTokens,
          Content.said, Content.part]
  | image tensor =>
      rw [Workspace.prepare, Chat.planOf, h.model]
      cases Backend.imageEmbedLen chat.model.backend with
      | none => rfl
      | some positions =>
          cases Image.normalize tensor with
          | error reason => rfl
          | ok normal =>
              simp [Except.map, Content.plan, h.promptTokens, Content.said, Content.part, bind,
                Except.bind]

theorem accept (input : Prompt) :
    chat.plan input =
      (w.accept input).map fun content => content.plan (w.promptTokens content) := by
  rw [Chat.plan, h.prepare, Workspace.accept]
  cases w.prepare input with
  | error reason => rfl
  | ok content =>
      simp only [Except.map, bind, Except.bind, Chat.checkRoom, Workspace.needed,
        Content.positions_plan, h.model, h.conversation.position, addWord_assoc]
      split <;> rfl

omit [Backend β] in
theorem later (elapsed : Nat) : w.Holds chat calls (spent + elapsed) :=
  { h with spent := Nat.le_add_right_of_le h.spent }

omit h in
theorem prefill (h : w.Holds chat [] spent) (input : Prompt) (elapsed : Duration) :
    Yields (spent + elapsed.total) (w.prefill input elapsed) (chat.prefill input) := by
  rw [Workspace.prefill, Chat.prefill, h.accept]
  cases w.accept input with
  | error reason =>
      exact .done (o := ⟨chat, [], .error (.invalidInput reason)⟩) (h.later _) rfl
  | ok content =>
      obtain ⟨opened, hopen, hposition, hpart⟩ := h.conversation.openUser
      have hword : opened.position < UInt64.size := hposition ▸ h.position
      have hfed := feedInputs_cases (w := { w with conversation := opened }) hword
        (w.promptTokens content) content
      simp only [h.model, h.calls, hposition, List.nil_append] at hfed
      simp only [Except.map, feedContent, h.model, h.calls, hopen]
      rcases hfed with
        ⟨model, calls, reason, fed, hfeed, hfed, rfl, rfl⟩ | ⟨model, calls, logits, hfeed, hfed⟩
      · rw [hfeed, hfed]
        exact .fault fed .prefill reason
      · rw [hfeed, hfed]
        dsimp only
        have halike := Model.Alike.of_feed hfeed
        have hbudget := Nat.add_le_add_right h.spent elapsed.total
        refine .of_recordPrefill hbudget fun throughput husage hspent => ?_
        refine .done (o := ⟨_, calls, .ok ()⟩) ⟨rfl, ?_, ?_, ?_, ?_, rfl, ?_⟩ rfl
        · exact halike.config ▸ hpart content.part _ logits
        · rw [Chat.addPart_position]
          exact addWord_lt _ _
        · rw [husage, h.usage, Content.positions_plan]
          rfl
        · exact fun hidle => (Conversation.progress_addPart_ne_idle _ _ _ _ hidle).elim
        · exact hspent.trans_le hbudget

end Holds

theorem advance_cases {stops : List String} {reply : Reply} (sound : reply.Sound stops)
    (hmessage : w.conversation.message = .layout reply) (token : TokenId) :
    ∃ next, next.Sound stops ∧
      let absorbed : Workspace β :=
        { w with conversation := { w.conversation with message := .layout next } }
      ((∃ reason, Chat.absorb w.model w.conversation.position reply token = (next, some reason) ∧
        w.advance token = .ok (absorbed, .ok (some reason))) ∨
      Chat.absorb w.model w.conversation.position reply token = (next, none) ∧
        w.advance token = .ok (absorbed.feedBack token)) := by
  rw [advance, Chat.absorb]
  by_cases heos : w.model.tokenizer.isEos token = true
  · refine ⟨reply, sound, .inl ⟨.endOfSequence, ?_⟩⟩
    rw [if_pos heos, if_pos heos, ← hmessage]
    exact ⟨rfl, rfl⟩
  · have hpush := sound.push_layout (w.model.tokenizer.tokenBytes token)
    have hsound := sound.perform (.push (w.model.tokenizer.tokenBytes token))
    rw [Reply.perform] at hsound
    rw [if_neg heos, if_neg heos, hmessage, hpush]
    generalize reply.push (w.model.tokenizer.tokenBytes token) = pushed at hsound
    obtain ⟨completed, next⟩ := pushed
    refine ⟨next, hsound, ?_⟩
    cases completed with
    | true => exact .inl ⟨.stopString, rfl, rfl⟩
    | false =>
        dsimp only
        by_cases hroom : w.model.config.contextWindow ≤ w.conversation.position
        · exact .inl ⟨.contextWindow, by rw [if_pos hroom], by rw [if_pos hroom]; rfl⟩
        · exact .inr ⟨by rw [if_neg hroom], by rw [if_neg hroom]; rfl⟩

/-- A workspace in which a reply goes on. -/
structure Drafts (w : Workspace β) (chat : Chat β) (draft : Draft) (calls : List Call)
    (spent : Nat) : Prop where
  model : w.model = chat.model
  conversation : w.conversation = .drafting chat.conversation draft
  sound : draft.reply.Sound chat.model.config.template.stopStrings
  position : chat.conversation.position < UInt64.size
  usage : w.throughput.usage = chat.usage
  calls : w.calls = calls
  spent : w.throughput.spent ≤ spent

theorem settle_stop {v : Conversation} {reply : Reply}
    (sound : reply.Sound w.model.config.template.stopStrings)
    (hmessage : w.conversation.message = .layout reply)
    (hhistory : w.conversation.history = v.history) (hclosed : w.conversation.openTurn = none)
    (hposition : w.conversation.position = v.position) (hword : v.position < UInt64.size)
    (hspent : w.throughput.spent ≤ spent) (reason : StopReason) :
    Yields spent (w.settle (.ok (some reason)))
      ⟨⟨w.model, v.stop reply reason, w.throughput.usage⟩, w.calls, .ok ()⟩ := by
  obtain ⟨stopped, hstop, hholds⟩ :=
    ConversationRecord.stop_holds sound hmessage hhistory hposition hclosed reason
  rw [settle, hstop]
  exact .done (o := ⟨⟨w.model, v.stop reply reason, w.throughput.usage⟩, w.calls, .ok ()⟩)
    ⟨rfl, hholds, hword, rfl, nofun, rfl, hspent⟩ rfl

theorem feedBack_yields {v : Conversation} {reply : Reply} {generated : Nat}
    (sound : reply.Sound w.model.config.template.stopStrings)
    (hconversation : w.conversation =
      { history := v.history, message := .layout reply, phase := .decoding, generated
        position := v.position })
    (hspent : w.throughput.spent ≤ spent) (token : TokenId) (elapsed : Duration) :
    Yields (spent + elapsed.total)
      (do
        let (w, outcome) := w.feedBack token
        let w ← w.recordDecode elapsed
        w.settle outcome)
      (match w.model.forward (.tokens [token]) v.position with
      | (model, call, .error reason) => Chat.recover model (w.calls ++ [call]) .decode reason
      | (model, call, .ok logits) =>
        ⟨⟨model, Chat.settle model v { reply, generated, logits }, w.throughput.usage.addDecode⟩,
          w.calls ++ [call], .ok ()⟩) := by
  have hbudget := Nat.add_le_add_right hspent elapsed.total
  have hposition : w.conversation.position = v.position := by rw [hconversation]
  rw [feedBack]
  rcases w.feed_cases .decode (.tokens [token]) 1 with
    ⟨model, call, reason, hforward, hfeed⟩ | ⟨model, call, logits, hforward, hfeed⟩
  · rw [hfeed, ← hposition, hforward]
    -- The time is counted although the model had a fault, and may be too much even then.
    exact .of_recordDecode hbudget fun _ _ _ => .fault _ .decode reason
  · rw [hfeed, ← hposition, hforward]
    have halike := Model.Alike.of_forward hforward
    have hsound : reply.Sound model.config.template.stopStrings := halike.config ▸ sound
    let draft : Draft := { reply, generated, logits }
    let fed : Conversation := { v with position := addWord v.position 1 }
    refine .of_recordDecode hbudget fun throughput husage hspent' => ?_
    have hwithin : throughput.spent ≤ spent + elapsed.total := hspent'.trans_le hbudget
    rw [← husage]
    simp only [hconversation]
    rcases Chat.settle_cases model v draft with ⟨hlong, hsettle⟩ | ⟨hshort, hsettle⟩
    · rw [if_pos hlong, hsettle]
      exact settle_stop (w := ⟨model, _, throughput, w.calls ++ [call]⟩) (v := fed) hsound rfl rfl
        rfl rfl (addWord_lt _ _) hwithin .maxGenLength
    · rw [if_neg (Nat.not_le.mpr hshort), hsettle]
      have hholds : ConversationRecord.Holds model.config.template.stopStrings
          (.drafting fed draft) { fed with progress := .decoding draft } := .decoding hsound
      exact .done (o := ⟨⟨model, _, throughput.usage⟩, w.calls ++ [call], .ok ()⟩)
        ⟨rfl, hholds, addWord_lt _ _, rfl, nofun, rfl, hwithin⟩ rfl

omit [Backend β] in
theorem Drafts.later {draft : Draft} (h : w.Drafts chat draft calls spent) (elapsed : Nat) :
    w.Drafts chat draft calls (spent + elapsed) :=
  { h with spent := Nat.le_add_right_of_le h.spent }

theorem Drafts.extend {draft : Draft} (h : w.Drafts chat draft calls spent) (elapsed : Duration) :
    Yields (spent + elapsed.total) (w.extend elapsed) (chat.extend calls draft) := by
  rw [Workspace.extend, Chat.extend, h.conversation, h.model, h.calls]
  simp only [ConversationRecord.drafting]
  rcases hsample : chat.model.sample draft.logits with ⟨token | token, model⟩
  · exact .fault _ .decode _
  let sampled : Workspace β := { w with
    model
    conversation := { ConversationRecord.drafting chat.conversation draft with
      logits := none, generated := addWord draft.generated 1 }
    calls := calls ++ [.sample token] }
  have halike := (Model.sample_spec hsample).1
  obtain ⟨next, hsound, hadvance⟩ := advance_cases (w := sampled) h.sound rfl token
  rw [← halike.config] at hsound
  let absorbed : Workspace β :=
    { sampled with conversation := { sampled.conversation with message := .layout next } }
  simp only [sampled, ConversationRecord.drafting] at hadvance
  dsimp only
  rcases hadvance with ⟨reason, habsorb, hadvance⟩ | ⟨habsorb, hadvance⟩
  · rw [habsorb, hadvance]
    have hbudget : absorbed.throughput.spent + elapsed.total ≤ spent + elapsed.total :=
      Nat.add_le_add_right h.spent elapsed.total
    refine .of_recordDecode (w := absorbed) hbudget fun throughput husage hspent => ?_
    rw [← h.usage, ← husage]
    exact settle_stop (w := { absorbed with throughput }) (v := chat.conversation) hsound rfl rfl
      rfl rfl h.position (hspent.trans_le hbudget) reason
  · rw [habsorb, hadvance, ← h.usage]
    exact feedBack_yields (w := absorbed) (v := chat.conversation) hsound rfl h.spent token elapsed

omit [Backend β] in
theorem Drafts.fresh {logits : Logits} (hmodel : w.model = chat.model)
    (hconversation : w.conversation =
      { history := chat.conversation.history
        message := .ofStops chat.model.config.template.stopStrings
        phase := .decoding
        position := chat.conversation.position
        logits := some logits })
    (hposition : chat.conversation.position < UInt64.size)
    (husage : w.throughput.usage = chat.usage) (hspent : w.throughput.spent ≤ spent) :
    w.Drafts chat (chat.freshDraft logits) w.calls spent := by
  refine ⟨hmodel, ?_, .ofStops _, hposition, husage, rfl, hspent⟩
  rw [hconversation, ReplyBuffer.ofStops_eq_layout]
  rfl

theorem begin_yields {model : Model β} {history : List Turn} {parts : List Part}
    {logits : Option Logits} {position : Nat} {throughput : Throughput}
    (hposition : position < UInt64.size) (hspent : throughput.spent ≤ spent) (elapsed : Elapsed) :
    let stops := model.config.template.stopStrings
    let w : Workspace β :=
      { model, throughput
        conversation :=
          { history, position, logits
            openTurn := some (.user parts)
            message := .ofStops stops
            phase := .prefilling } }
    let chat : Chat β :=
      { model
        conversation := { history, position, progress := .prefilling parts logits }
        usage := throughput.usage }
    Yields (spent + elapsed.prompt.total + elapsed.token.total) (w.decode elapsed)
      (chat.begin parts logits) := by
  intro stops w chat
  have hlater : spent ≤ spent + elapsed.prompt.total + elapsed.token.total := by omega
  have hbudget : w.throughput.spent + elapsed.prompt.total ≤ spent + elapsed.prompt.total :=
    Nat.add_le_add_right hspent _
  simp only [Workspace.decode, w, sealPrompt, Chat.begin, chat]
  cases hseal : model.sealTokens with
  | nil =>
      rw [if_pos rfl]
      cases logits with
      | none =>
          exact .done (o := ⟨chat, [], .error .nothingToDecode⟩)
            ⟨rfl, .prefilling, hposition, rfl, nofun, rfl, hspent.trans hlater⟩ rfl
      | some logits =>
          -- No token hands over, and the reply begins with what the user's last input gave.
          let ended : Workspace β := { w with conversation := w.conversation.closeUser }
          let begun : Chat β :=
            { chat with conversation := chat.conversation.beginReply parts position }
          have hdrafts : ended.Drafts begun (begun.freshDraft logits) [] spent :=
            .fresh rfl rfl hposition rfl hspent
          exact (hdrafts.later _).extend elapsed.token
  | cons token rest =>
      rw [if_neg (List.cons_ne_nil token rest)]
      dsimp only
      rcases feed_cases (w := w) .prefill (.tokens (token :: rest)) (token :: rest).length with
        ⟨model', call, reason, hforward, hfeed⟩ | ⟨model', call, logits', hforward, hfeed⟩
      · simp only [w] at hforward hfeed
        rw [hfeed, hforward]
        exact .fault _ .prefill reason
      · simp only [w] at hforward hfeed
        rw [hfeed, hforward]
        dsimp only
        have halike := Model.Alike.of_forward hforward
        rw [bind_assoc]
        refine .of_recordPrefill (hbudget.trans (Nat.le_add_right ..))
          fun throughput' husage hspent' => ?_
        let fed := addWord position (token :: rest).length
        let ended : Workspace β :=
          { w with
            model := model'
            conversation := { w.conversation with
              position := fed, logits := some logits' }.closeUser
            throughput := throughput'
            calls := [call] }
        let begun : Chat β :=
          { model := model'
            conversation := chat.conversation.beginReply parts fed
            usage := throughput.usage.addPrefill (token :: rest).length }
        have hdrafts : ended.Drafts begun (begun.freshDraft logits') [call]
            (spent + elapsed.prompt.total) := by
          refine .fresh rfl ?_ (addWord_lt _ _) husage (hspent'.trans_le hbudget)
          simp only [ended, begun, halike.config]
          rfl
        exact hdrafts.extend elapsed.token

theorem Holds.decode (h : w.Holds chat [] spent) (elapsed : Elapsed) :
    Yields (spent + elapsed.total) (w.decode elapsed) chat.decode := by
  rw [Elapsed.total, ← Nat.add_assoc]
  have hlater := h.later (elapsed.prompt.total + elapsed.token.total)
  rw [← Nat.add_assoc] at hlater
  -- The relation of the fields can be split only once both records are.
  obtain ⟨model, c, throughput, calls⟩ := w
  obtain ⟨_, v, usage⟩ := chat
  obtain ⟨rfl, hholds, hposition, rfl, hidle, rfl, hspent⟩ := h
  dsimp only at hholds hposition hspent
  cases hholds with
  | idle => exact .done (o := ⟨_, [], .error .nothingToDecode⟩) hlater rfl
  | prefilling => exact begin_yields hposition hspent elapsed
  | @decoding v draft sound =>
      let w : Workspace β := { model, throughput, conversation := .drafting v draft }
      let chat : Chat β :=
        { model, usage := throughput.usage, conversation := { v with progress := .decoding draft } }
      have hdrafts : w.Drafts chat draft [] spent :=
        ⟨rfl, rfl, sound, hposition, rfl, rfl, hspent⟩
      exact (hdrafts.later elapsed.prompt.total).extend elapsed.token
  | stopped => exact .done (o := ⟨_, [], .error .alreadyStopped⟩) hlater rfl

omit [Backend β] in
theorem holds_fresh (model : Model β) (calls : List Call) (spent : Nat) :
    Holds ⟨model, {}, {}, calls⟩ { model } calls spent :=
  ⟨rfl, .idle, (by decide : 0 < UInt64.size), rfl, fun _ => rfl, rfl,
    Throughput.spent_empty.trans_le (Nat.zero_le _)⟩

theorem Yields.recover {result : Except Session.Error Unit} {o : Chat.Outcome β Unit}
    (h : Yields spent (.ok (w, result)) o) :
    (w.recover result).Holds o.chat o.calls spent ∧ result = o.result := by
  cases h with
  | done holds faultless =>
      refine ⟨?_, rfl⟩
      obtain ⟨chat, calls, result⟩ := o
      rcases result with reason | value
      · cases reason with
        | inference => cases faultless
        | _ => exact holds
      · exact holds
  | fault => exact ⟨holds_fresh w.model.reset _ spent, rfl⟩

end Workspace

end Dialogue
