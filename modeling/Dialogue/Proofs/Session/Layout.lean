import Dialogue.Proofs.Session.Following
import Dialogue.Tokenizer.BytePair

/-!
What a model is fed in the course of a conversation. The layout is made of the transcript alone,
turn by turn: what the user says after the opening of the turn, the tokens that hand over to the
assistant, and the sampled tokens one by one.
-/

namespace Dialogue

open Text.Utf8 (known)
open Reply (firstStop ofStops)

def fedTokens (tokens : List TokenId) : List (Input × Nat) :=
  if tokens = [] then [] else [(.tokens tokens, tokens.length)]

def fedToken (token : TokenId) : Input × Nat :=
  (.tokens [token], 1)

def lengthOf (inputs : List (Input × Nat)) : Nat :=
  (inputs.map Prod.snd).sum

section

variable (tokenizer : Tokenizer) (config : Config)

/-- The part that the user's turn begins with. -/
def Piece.opening (first : Bool) (piece : Piece) : List (Input × Nat) :=
  let bos := if first && config.template.addBos then tokenizer.bos.toList else []
  let opening := config.template.userPrefix first
  match piece with
  | .text s => fedTokens (bos ++ tokenizer.encode (opening ++ s))
  | .image tensor positions =>
    fedTokens (bos ++ tokenizer.encode opening) ++ [(.image tensor, positions)]

def Piece.later : Piece → List (Input × Nat)
  | .text s => fedTokens (tokenizer.encode s)
  | .image tensor positions => [(.image tensor, positions)]

namespace Exchange

def prompt (first : Bool) (e : Exchange) : List (Input × Nat) :=
  match e.pieces with
  | [] => []
  | piece :: rest =>
    piece.opening tokenizer config first ++ rest.flatMap (Piece.later tokenizer)

def handed (first : Bool) (e : Exchange) : List (Input × Nat) :=
  e.prompt tokenizer config first ++
    fedTokens (tokenizer.encode config.template.assistantPrefix)

def whole (first : Bool) (e : Exchange) : List (Input × Nat) :=
  e.handed tokenizer config first ++ e.sampled.map fedToken

/-- Whether the last token of the reply is not fed: it ended the reply, completed a stop string, or
no position was left for it when the others had been fed. -/
def leavesOut (position : Nat) (e : Exchange) : Bool :=
  e.sampled.getLast?.any tokenizer.isEos ||
    (firstStop config.template.stopStrings (known (tokenizer.bytes e.sampled))).isSome ||
    config.contextWindow ≤ position

/-- The turn of both sides, from a position on. -/
def layout (first : Bool) (start : Nat) (e : Exchange) : List (Input × Nat) :=
  if e.sampled = [] then e.prompt tokenizer config first
  else
    let handed := e.handed tokenizer config first
    -- positions are counted in 64 bits
    let position := (start + lengthOf handed + e.sampled.dropLast.length) % UInt64.size
    let tokens :=
      if e.leavesOut tokenizer config position then e.sampled.dropLast else e.sampled
    handed ++ tokens.map fedToken

end Exchange

/-- All that is fed in a conversation. -/
def Transcript.layout : Transcript → List (Input × Nat)
  | [] => []
  | e :: earlier =>
    layout earlier ++ e.layout tokenizer config earlier.isEmpty (lengthOf (layout earlier))

end

variable {tokenizer : Tokenizer} {config : Config}

@[simp] theorem lengthOf_append (first second : List (Input × Nat)) :
    lengthOf (first ++ second) = lengthOf first + lengthOf second := by
  simp [lengthOf]

@[simp] theorem lengthOf_map_fedToken (tokens : List TokenId) :
    lengthOf (tokens.map fedToken) = tokens.length := by
  induction tokens with
  | nil => rfl
  | cons token tokens ih =>
      simp only [lengthOf, List.map_cons, List.sum_cons, List.length_cons, fedToken] at ih ⊢
      omega

namespace Exchange

variable {e : Exchange} {first : Bool} {start : Nat}

theorem prompt_addPiece (h : e.Asked) (piece : Piece) :
    prompt tokenizer config first { e with pieces := e.pieces ++ [piece] } =
      e.prompt tokenizer config first ++ piece.later tokenizer := by
  obtain ⟨pieces, sampled, ending⟩ := e
  cases pieces with
  | nil => exact absurd rfl h.nonempty
  | cons head rest => simp [prompt]

theorem layout_of_unsampled (h : e.sampled = []) :
    e.layout tokenizer config first start = e.prompt tokenizer config first := by
  rw [layout, if_pos h]

theorem whole_addReply (token : TokenId) (ending : Option StopReason) :
    (e.addReply [token] ending).whole tokenizer config first =
      e.whole tokenizer config first ++ [fedToken token] := by
  rw [whole, addReply, List.map_append, ← List.append_assoc]
  rfl

theorem layout_addReply {token : TokenId} {ending : Option StopReason} {left : Bool}
    (hleft : (e.addReply [token] ending).leavesOut tokenizer config
      ((start + lengthOf (e.whole tokenizer config first)) % UInt64.size) = left) :
    (e.addReply [token] ending).layout tokenizer config first start =
      e.whole tokenizer config first ++ if left then [] else [fedToken token] := by
  have hlayout : (e.addReply [token] ending).layout tokenizer config first start =
      e.handed tokenizer config first ++
        (if (e.addReply [token] ending).leavesOut tokenizer config
            ((start + lengthOf (e.handed tokenizer config first) +
              (e.sampled ++ [token]).dropLast.length) % UInt64.size)
          then (e.sampled ++ [token]).dropLast else e.sampled ++ [token]).map fedToken := by
    rw [layout, if_neg (by simp [addReply])]
    rfl
  rw [whole, lengthOf_append, lengthOf_map_fedToken, ← Nat.add_assoc] at hleft
  rw [hlayout, List.dropLast_concat, hleft, whole, List.append_assoc]
  cases left <;> simp

end Exchange

theorem Replying.leavesOut_eq {β : Type} {model : Model β} {history : List Turn}
    {reply reply' : Reply} {e : Exchange} {earlier : Transcript} {token : TokenId} {position : Nat}
    {reason : Option StopReason}
    (h : Replying model.tokenizer model.config.template.stopStrings history reply e earlier)
    (habsorbed : Chat.Absorbed model position reply token reply' reason)
    (ending : Option StopReason) :
    (e.addReply [token] ending).leavesOut model.tokenizer model.config position =
      reason.isSome := by
  have hlast : (e.addReply [token] ending).sampled.getLast? = some token := by
    simp [Exchange.addReply]
  have hstop : (reply.push (model.tokenizer.tokenBytes token)).1 =
      (firstStop model.config.template.stopStrings
        (known (model.tokenizer.bytes (e.addReply [token] ending).sampled))).isSome := by
    rw [h.reading.push_fst, ← Tokenizer.bytes_concat, Reply.beforeStop_ofStops]
    exact Option.isSome_map
  rw [Exchange.leavesOut, hlast, Option.any_some, ← hstop]
  cases habsorbed with
  | endOfSequence eos => simp [eos]
  | stopString eos stop => simp [stop]
  | contextWindow eos stop full => simp [full]
  | goesOn eos stop room => simp [eos, stop, room]

variable {β : Type} [Backend β]

theorem Model.filterMap_input_of_fedBy {m m' : Model β} {position : Nat}
    {inputs : List (Input × Nat)} {calls : List Call}
    {result : Except Backend.Error (Option Logits)}
    (h : FedBy m position inputs m' calls result) (hresult : ∀ reason, result ≠ .error reason) :
    calls.filterMap Call.input? = inputs.map Prod.fst := by
  induction h with
  | nil => rfl
  | failed forward => exact absurd rfl (hresult _)
  | @fed _ _ _ _ _ input rest _ calls _ result forward later ih =>
      obtain ⟨-, -, answered, rfl⟩ := forward_spec forward
      have hlater : calls.filterMap Call.input? = rest.map Prod.fst := by
        apply ih
        rintro reason rfl
        exact hresult reason rfl
      rw [List.filterMap_cons_some (by rfl), hlater, List.map_cons]

namespace Chat

omit [Backend β] in
theorem planFor_inputs_of_opening {chat : Chat β} (h : chat.conversation.isPrefilling = false)
    (piece : Piece) :
    (chat.planFor piece).inputs =
      piece.opening chat.model.tokenizer chat.model.config chat.conversation.isFirst := by
  cases piece <;>
    simp [planFor, Plan.inputs, promptTokens, openingTokens, openingText, h, Piece.said,
      Piece.image?, Piece.opening, fedTokens]

omit [Backend β] in
theorem planFor_inputs_of_prefilling {chat : Chat β} (h : chat.conversation.isPrefilling = true)
    (hempty : chat.model.tokenizer.encode "" = []) (piece : Piece) :
    (chat.planFor piece).inputs = piece.later chat.model.tokenizer := by
  cases piece <;>
    simp [planFor, Plan.inputs, promptTokens, openingTokens, openingText, h, Piece.said,
      Piece.image?, Piece.later, fedTokens, hempty]

omit [Backend β] in
theorem Follows.layout_addPiece {chat : Chat β} {t : Transcript} (h : chat.Follows t)
    (hempty : chat.model.tokenizer.encode "" = []) (piece : Piece) :
    (t.addPiece piece).layout chat.model.tokenizer chat.model.config =
      t.layout chat.model.tokenizer chat.model.config ++ (chat.planFor piece).inputs := by
  cases h with
  | idle turn history position =>
      rw [planFor_inputs_of_opening (by rw [Conversation.isPrefilling, turn])]
      simp [Transcript.addPiece, Transcript.layout, Exchange.layout, Exchange.prompt,
        Conversation.isFirst, history]
  | @prefilling e earlier logits turn recorded asked unsampled going =>
      rw [planFor_inputs_of_prefilling (by rw [Conversation.isPrefilling, turn]) hempty,
        Transcript.addPiece, if_pos unsampled]
      simp only [Transcript.layout]
      rw [Exchange.layout_of_unsampled unsampled,
        Exchange.layout_of_unsampled (e := { e with pieces := e.pieces ++ [piece] }) unsampled,
        Exchange.prompt_addPiece asked, List.append_assoc]
  | decoding turn replying sampled going =>
      -- the reply is interrupted, so its turn is in the history once the part is added
      obtain ⟨turns, recorded, hhistory⟩ := replying.recorded
      have hfirst : chat.conversation.isFirst = false := by simp [Conversation.isFirst, hhistory]
      rw [planFor_inputs_of_opening (by rw [Conversation.isPrefilling, turn]), hfirst,
        Transcript.addPiece, if_neg sampled]
      simp [Transcript.layout, Exchange.layout, Exchange.prompt]
  | stopped turn recorded history asked replied ending =>
      have hfirst : chat.conversation.isFirst = false := by simp [Conversation.isFirst, history]
      rw [planFor_inputs_of_opening (by rw [Conversation.isPrefilling, turn]), hfirst,
        Transcript.addPiece, if_neg replied.sampled_ne_nil]
      simp [Transcript.layout, Exchange.layout, Exchange.prompt]

/-- What the model of a chat was fed is the layout of the transcript, and a reply that goes on was
fed as a whole. -/
structure LaidOut (chat : Chat β) (told : List Call) (t : Transcript) : Prop where
  fed : told.filterMap Call.input? =
    (t.layout chat.model.tokenizer chat.model.config).map Prod.fst
  position : chat.conversation.position =
    lengthOf (t.layout chat.model.tokenizer chat.model.config) % UInt64.size
  going : ∀ draft, chat.conversation.progress = .decoding draft →
    ∀ (e : Exchange) (earlier : Transcript), t = e :: earlier →
    e.layout chat.model.tokenizer chat.model.config earlier.isEmpty
        (lengthOf (earlier.layout chat.model.tokenizer chat.model.config)) =
      e.whole chat.model.tokenizer chat.model.config earlier.isEmpty

/-- Calls that fed a conversation up to the next token of its latest reply. -/
structure FedWhole (model : Model β) (position : Nat) (told : List Call) (e : Exchange)
    (earlier : Transcript) : Prop where
  fed : told.filterMap Call.input? =
    (Transcript.layout model.tokenizer model.config earlier ++
      e.whole model.tokenizer model.config earlier.isEmpty).map Prod.fst
  position : position = (lengthOf (Transcript.layout model.tokenizer model.config earlier) +
    lengthOf (e.whole model.tokenizer model.config earlier.isEmpty)) % UInt64.size

omit [Backend β] in
theorem FedWhole.alike {model model' : Model β} {position : Nat} {told : List Call} {e : Exchange}
    {earlier : Transcript} (h : FedWhole model position told e earlier)
    (halike : model.Alike model') : FedWhole model' position told e earlier := by
  constructor <;> rw [halike.tokenizer, halike.config]
  · exact h.fed
  · exact h.position

theorem HandedOver.fedWhole {chat chat' : Chat β} {calls told : List Call} {draft : Draft}
    {e : Exchange} {earlier : Transcript} (h : chat.HandedOver chat' calls draft)
    (hlaid : chat.LaidOut told (e :: earlier)) (hfollows : chat.Follows (e :: earlier)) :
    FedWhole chat'.model chat'.conversation.position (told ++ calls) e earlier := by
  have halike := h.alike
  have hfed := hlaid.fed
  have hposition := hlaid.position
  rw [Transcript.layout] at hfed hposition
  rw [lengthOf_append] at hposition
  suffices hwhole : FedWhole chat.model chat'.conversation.position (told ++ calls) e earlier from
    hwhole.alike halike
  cases h with
  | going turn =>
      rw [hlaid.going _ turn e earlier rfl] at hfed hposition
      rw [List.append_nil]
      exact ⟨hfed, hposition⟩
  | bare turn empty =>
      cases hfollows with
      | prefilling turn' recorded asked unsampled =>
          rw [Exchange.layout_of_unsampled unsampled] at hfed hposition
          rw [Model.sealTokens] at empty
          have hwhole : e.whole chat.model.tokenizer chat.model.config earlier.isEmpty =
              e.prompt chat.model.tokenizer chat.model.config earlier.isEmpty := by
            simp [Exchange.whole, Exchange.handed, unsampled, empty, fedTokens]
          rw [List.append_nil]
          exact ⟨hwhole ▸ hfed, hwhole ▸ hposition⟩
      | decoding turn' | stopped turn' => cases turn.symm.trans turn'
  | fed turn nonempty forward =>
      cases hfollows with
      | prefilling turn' recorded asked unsampled =>
          obtain ⟨-, -, answered, rfl⟩ := Model.forward_spec forward
          rw [Exchange.layout_of_unsampled unsampled] at hfed hposition
          have hwhole : e.whole chat.model.tokenizer chat.model.config earlier.isEmpty =
              e.prompt chat.model.tokenizer chat.model.config earlier.isEmpty ++
                [(.tokens chat.model.sealTokens, chat.model.sealTokens.length)] := by
            rw [Exchange.whole, Exchange.handed, unsampled, ← Model.sealTokens, fedTokens,
              if_neg nonempty]
            exact List.append_nil _
          constructor
          · rw [hwhole, ← List.append_assoc, List.map_append, List.filterMap_append, hfed]
            rfl
          · rw [hwhole, lengthOf_append, ← Nat.add_assoc, ← addWord_mod, ← hposition]
            rfl
      | decoding turn' | stopped turn' => cases turn.symm.trans turn'

omit [Backend β] in
theorem FedWhole.laidOut_stop {model : Model β} {c : Conversation} {usage : Usage}
    {told calls : List Call} {token : TokenId} {reply : Reply} {reason : StopReason}
    {e : Exchange} {earlier : Transcript} (h : FedWhole model c.position (told ++ calls) e earlier)
    (hleft : (e.addReply [token] (some reason)).leavesOut model.tokenizer model.config c.position =
      true) :
    LaidOut { model, conversation := c.stop reply reason, usage }
      (told ++ (calls ++ [.sample token])) (e.addReply [token] (some reason) :: earlier) := by
  rw [h.position] at hleft
  have hlayout := Exchange.layout_addReply hleft
  rw [if_pos rfl, List.append_nil] at hlayout
  refine ⟨?_, ?_, nofun⟩
  · rw [Transcript.layout, hlayout, ← h.fed, ← List.append_assoc, List.filterMap_append]
    exact List.append_nil _
  · rw [Transcript.layout, hlayout, lengthOf_append]
    exact h.position

omit [Backend β] in
theorem FedWhole.laidOut_settle {model : Model β} {c : Conversation} {usage : Usage}
    {told calls : List Call} {token : TokenId} {draft : Draft} {answered : Bool} {e : Exchange}
    {earlier : Transcript} (h : FedWhole model c.position (told ++ calls) e earlier)
    (hleft : ∀ ending, (e.addReply [token] ending).leavesOut model.tokenizer model.config
      c.position = false) :
    LaidOut { model, conversation := settle model c draft, usage }
      (told ++ (calls ++ [.sample token] ++ [.forward (.tokens [token]) c.position answered]))
      (e.addReply [token] (settle model c draft).stopReason :: earlier) := by
  have hlayout : ∀ ending, (e.addReply [token] ending).layout model.tokenizer model.config
      earlier.isEmpty (lengthOf (Transcript.layout model.tokenizer model.config earlier)) =
        e.whole model.tokenizer model.config earlier.isEmpty ++ [fedToken token] := by
    intro ending
    have hleft := hleft ending
    rw [h.position] at hleft
    exact Exchange.layout_addReply hleft
  constructor
  · have hfed := h.fed
    rw [List.filterMap_append, List.map_append] at hfed
    rw [Transcript.layout, hlayout]
    simp only [List.filterMap_append, List.map_append, ← List.append_assoc]
    rw [hfed]
    simp [Call.input?, fedToken]
  · rw [Transcript.layout, hlayout, settle_position, h.position, lengthOf_append, lengthOf_append,
      addWord_mod, Nat.add_assoc]
    rfl
  · intro draft' hturn e' earlier' ht
    cases ht
    rw [Exchange.whole_addReply]
    exact hlayout _

theorem stepInvariant_laidOut :
    StepInvariant fun (chat : Chat β) told t =>
      chat.Follows t ∧ (chat.model.tokenizer.encode "" = [] → chat.LaidOut told t) where
  fresh model :=
    ⟨stepInvariant_follows.fresh model, fun _ => ⟨rfl, (Nat.zero_mod _).symm, nofun⟩⟩
  prefill h hpart feed := by
    obtain ⟨hfollows, hlaid⟩ := h
    have halike := Model.Alike.of_feed feed
    refine ⟨hfollows.prefill hpart feed, fun hempty => ?_⟩
    rw [halike.tokenizer] at hempty
    have hlaid := hlaid hempty
    have hlayout := hfollows.layout_addPiece hempty
    constructor
    · rw [halike.tokenizer, halike.config, hlayout, List.map_append, List.filterMap_append,
        hlaid.fed, Model.filterMap_input_of_fedBy (Model.fedBy_of_feed feed) nofun]
    · rw [halike.tokenizer, halike.config, hlayout, lengthOf_append,
        addPart_position, Plan.positions_eq, hlaid.position, addWord_mod, lengthOf]
      exact Nat.add_mod_mod _ _ _
    · intro draft hturn
      rw [Conversation.addPart] at hturn
      split at hturn <;> cases hturn
  ended h handed sample absorb := by
    obtain ⟨hfollows, hlaid⟩ := h
    obtain ⟨e, earlier, rfl, replying⟩ := handed.replying hfollows
    have hsampled := (Model.sample_spec sample).1
    refine ⟨hfollows.ended handed sample absorb, fun hempty => ?_⟩
    rw [(handed.alike.trans hsampled).tokenizer] at hempty
    have hwhole := (handed.fedWhole (hlaid hempty) hfollows).alike hsampled
    rw [← hsampled.tokenizer, ← hsampled.config] at replying
    exact hwhole.laidOut_stop (replying.leavesOut_eq (absorbed_of_absorb absorb) _)
  fed h handed sample absorb forward := by
    obtain ⟨hfollows, hlaid⟩ := h
    obtain ⟨e, earlier, rfl, replying⟩ := handed.replying hfollows
    obtain ⟨hforward, -, answered, rfl⟩ := Model.forward_spec forward
    have hsampled := (Model.sample_spec sample).1
    refine ⟨hfollows.fed handed sample absorb forward, fun hempty => ?_⟩
    rw [(handed.alike.trans (hsampled.trans hforward)).tokenizer] at hempty
    have hwhole := ((handed.fedWhole (hlaid hempty) hfollows).alike hsampled).alike hforward
    rw [← hsampled.tokenizer, ← hsampled.config] at replying
    have hleft := replying.leavesOut_eq (absorbed_of_absorb absorb)
    rw [← hforward.tokenizer, ← hforward.config] at hleft
    exact hwhole.laidOut_settle hleft
  evaluate h := by
    refine ⟨h.1, fun hempty => ?_⟩
    obtain ⟨hfed, hposition, hgoing⟩ := h.2 hempty
    refine ⟨?_, hposition, hgoing⟩
    rw [List.filterMap_append, hfed]
    exact List.append_nil _

end Chat

theorem BytePair.encode_empty (b : BytePair) : b.encode "" = [] := by
  simp [encode, initialPieces, merge, mergeTimes]

/-- A model with a byte-pair tokenizer is fed exactly the layout of the conversation: of the inputs
accepted and the tokens sampled since it was loaded, forgot its context or had a fault. -/
theorem fed_layout {registry : Registry (Loader β)} {entropy : Nat → Nat → UInt32}
    {requests : List Request} {chat : Chat β} {b : BytePair}
    (hchat : ((Session.new registry entropy).run requests).1.chat = some chat)
    (htokenizer : chat.model.tokenizer = b.tokenizer) :
    (heard chat.model.serial ((Session.new registry entropy).run requests).2).filterMap
        Call.input? =
      (Transcript.layout b.tokenizer chat.model.config
        (Transcript.ofLog ((Session.new registry entropy).log requests))).map Prod.fst := by
  have hlaid := (Chat.stepInvariant_laidOut.invariant.run hchat).2
  rw [htokenizer] at hlaid
  rw [← htokenizer]
  exact (hlaid b.encode_empty).fed

theorem fed_layout_steady :
    let b : BytePair :=
      { vocabulary :=
          { tokens := #["a"], index := Vocabulary.indexOf ["a"], bos := some 0, eos := []
            unknown := none }
        ranks := ∅ }
    let configFile := File.ofText "\x7b\"conv_template\":\x7b\"system\":\"\"\x7d\x7d"
    ∃ chat,
      ((Session.new (Steady.registry b.tokenizer) fun _ _ => 0).run
        (Steady.requests configFile (.text "aa"))).1.chat = some chat ∧
      chat.model.tokenizer = b.tokenizer ∧
      ((heard 0 ((Session.new (Steady.registry b.tokenizer) fun _ _ => 0).run
        (Steady.requests configFile (.text "aa"))).2).filterMap Call.input?).length = 2 ∧
      (heard chat.model.serial ((Session.new (Steady.registry b.tokenizer) fun _ _ => 0).run
          (Steady.requests configFile (.text "aa"))).2).filterMap Call.input? =
        (Transcript.layout b.tokenizer chat.model.config (Transcript.ofLog
          ((Session.new (Steady.registry b.tokenizer) fun _ _ => 0).log
            (Steady.requests configFile (.text "aa"))))).map Prod.fst := by
  intro b configFile
  have hvocabulary : b.tokenizer.vocabSize = 1 := by decide
  have hconfig : (Config.load configFile).toOption.any
      (·.sampling.penaltyWindow < Stage.windowLimit) = true := by decide +kernel
  obtain ⟨chat, hchat, htokenizer⟩ :=
    Steady.exists_chat (fun _ _ => 0) hvocabulary configFile hconfig (.text "aa")
  have hlayout := fed_layout hchat htokenizer
  exact ⟨chat, hchat, htokenizer, by decide +kernel, hlayout⟩

end Dialogue
