import Dialogue.Session.Chat
import Dialogue.Session.ReplyBuffer
import Dialogue.Session.Throughput

/-!
A conversation as it lies in memory: fields that are changed one by one, of which the phase tells
what they mean, and times that are added up. A call that breaks off has no result.
-/

namespace Dialogue

inductive Phase where
  | idle
  | prefilling
  | decoding
  | stopped
deriving DecidableEq

structure ConversationRecord where
  history : List Turn := []
  openTurn : Option Turn := none
  message : ReplyBuffer := {}
  phase : Phase := .idle
  stopReason : Option StopReason := none
  generated : Nat := 0
  position : Nat := 0
  logits : Option Logits := none

/-- Why a call breaks off. -/
inductive Breach where
  | offset
  | time (reason : Duration.Error)
deriving DecidableEq

structure Elapsed where
  prompt : Duration := {}
  token : Duration := {}

namespace ConversationRecord

def commit (c : ConversationRecord) : Option ConversationRecord := do
  let message := c.message.flush
  let reply ← message.readText
  some { c with message, logits := none, history := c.history ++ [.assistant reply] }

def stop (c : ConversationRecord) (reason : StopReason) : Option ConversationRecord := do
  let c ← c.commit
  some { c with stopReason := some reason, phase := .stopped }

def beginUser (c : ConversationRecord) (stops : List String) : ConversationRecord :=
  { c with
    message := .ofStops stops
    generated := 0
    stopReason := none
    openTurn := some (.user []) }

/-- Begins a user's turn, unless one is open. A reply that was going on is over. -/
def openUser (c : ConversationRecord) (stops : List String) : Option ConversationRecord :=
  match c.phase with
  | .prefilling => some c
  | .decoding => c.commit.map (beginUser · stops)
  | .idle | .stopped => some (c.beginUser stops)

def addPart (c : ConversationRecord) (part : Part) (logits : Option Logits) : ConversationRecord :=
  { c with
    openTurn := c.openTurn.map fun turn => { turn with parts := turn.parts ++ [part] }
    logits := logits.or c.logits
    phase := .prefilling }

def closeUser (c : ConversationRecord) : ConversationRecord :=
  { c with history := c.history ++ c.openTurn.toList, openTurn := none, phase := .decoding }

end ConversationRecord

inductive Content where
  | text (s : String)
  | image (image : Tensor) (positions : Nat)

namespace Content

def said : Content → String
  | .text s => s
  | .image .. => ""

def imagePositions : Content → Nat
  | .text _ => 0
  | .image _ positions => positions

def part : Content → Part
  | .text s => .text s
  | .image .. => .image

end Content

structure Workspace (β : Type) where
  model : Model β
  conversation : ConversationRecord
  throughput : Throughput
  calls : List Call := []

abbrev Workspace.Left (β α : Type) :=
  Workspace β × Except Session.Error α

namespace Workspace

variable {β : Type} [Backend β]

def prepare (w : Workspace β) : Prompt → Except Rejection Content
  | .text s => if s = "" then .error .emptyText else .ok (.text s)
  | .image image =>
    match Backend.imageEmbedLen w.model.backend with
    | none => .error (.imagesUnsupported w.model.name)
    | some positions => do .ok (.image (← Image.normalize image) positions)

def promptTokens (w : Workspace β) (content : Content) : List TokenId :=
  let template := w.model.config.template
  let opens := w.conversation.phase ≠ .prefilling
  let first := w.conversation.history.isEmpty && w.conversation.openTurn.isNone
  let opening := if opens then template.userPrefix first else ""
  (if opens && first && template.addBos then w.model.tokenizer.bos.toList else []) ++
    w.model.tokenizer.encode (opening ++ content.said)

def needed (w : Workspace β) (content : Content) : Nat :=
  addWord (w.promptTokens content).length content.imagePositions

/-- A content is accepted if it leaves room for the tokens that hand over to the assistant. -/
def accept (w : Workspace β) (input : Prompt) : Except Rejection Content := do
  let content ← w.prepare input
  let handover := w.model.sealTokens.length
  let window := w.model.config.contextWindow
  let position := w.conversation.position
  if window < addWord (addWord position (w.needed content)) handover then
    .error (.promptTooLong (addWord (w.needed content) handover) (window - position) window)
  else .ok content

def feed (w : Workspace β) (stage : InferenceStage) (input : Input) (length : Nat) :
    Left β Logits :=
  match w.model.forward input w.conversation.position with
  | (model, call, .error reason) =>
    ({ w with model, calls := w.calls ++ [call] }, .error (.inference stage reason))
  | (model, call, .ok logits) =>
    let conversation :=
      { w.conversation with position := addWord w.conversation.position length }
    ({ w with model, conversation, calls := w.calls ++ [call] }, .ok logits)

def feedTokens (w : Workspace β) (tokens : List TokenId) :
    Left β (Option Logits) :=
  if tokens = [] then (w, .ok none)
  else
    let (w, result) := w.feed .prefill (.tokens tokens) tokens.length
    (w, result.map some)

def feedImage (w : Workspace β) (logits : Option Logits) :
    Content → Left β (Option Logits)
  | .text _ => (w, .ok logits)
  | .image image positions =>
    let (w, result) := w.feed .prefill (.image image) positions
    (w, result.map some)

/-- Feeds tokens, if there are any, and the image of a content; the last input gives the logits. -/
def feedInputs (w : Workspace β) (tokens : List TokenId) (content : Content) :
    Left β (Option Logits) :=
  match w.feedTokens tokens with
  | (w, .error e) => (w, .error e)
  | (w, .ok first) => w.feedImage first content

def recordPrefill (w : Workspace β) (positions : Nat) (elapsed : Duration) :
    Except Breach (Workspace β) := do
  .ok { w with
    throughput := ← (w.throughput.addPrefill positions elapsed).mapError .time }

def recordDecode (w : Workspace β) (elapsed : Duration) : Except Breach (Workspace β) := do
  .ok { w with throughput := ← (w.throughput.addDecode elapsed).mapError .time }

def feedContent (w : Workspace β) (content : Content) (elapsed : Duration) :
    Except Breach (Left β Unit) :=
  let needed := w.needed content
  let tokens := w.promptTokens content
  match w.conversation.openUser w.model.config.template.stopStrings with
  | none => .error .offset
  | some conversation =>
    match feedInputs { w with conversation } tokens content with
    | (w, .error e) => .ok (w, .error e)
    | (w, .ok logits) => do
      let w ← w.recordPrefill needed elapsed
      .ok ({ w with conversation := w.conversation.addPart content.part logits }, .ok ())

def prefill (w : Workspace β) (input : Prompt) (elapsed : Duration) : Except Breach (Left β Unit) :=
  match w.accept input with
  | .error reason => .ok (w, .error (.invalidInput reason))
  | .ok content => w.feedContent content elapsed

def sealPrompt (w : Workspace β) (elapsed : Duration) : Except Breach (Left β Unit) :=
  let tokens := w.model.sealTokens
  if tokens = [] then
    if w.conversation.logits.isNone then .ok (w, .error .nothingToDecode)
    else .ok ({ w with conversation := w.conversation.closeUser }, .ok ())
  else
    match w.feed .prefill (.tokens tokens) tokens.length with
    | (w, .error e) => .ok (w, .error e)
    | (w, .ok logits) => do
      let w ← w.recordPrefill tokens.length elapsed
      let conversation := { w.conversation with logits := some logits }
      .ok ({ w with conversation := conversation.closeUser }, .ok ())

def feedBack (w : Workspace β) (token : TokenId) : Left β (Option StopReason) :=
  match w.feed .decode (.tokens [token]) 1 with
  | (w, .error e) => (w, .error e)
  | (w, .ok logits) =>
    let w := { w with conversation := { w.conversation with logits := some logits } }
    let ends := w.model.config.maxGenLength ≤ w.conversation.generated
    (w, .ok (if ends then some .maxGenLength else none))

/-- Appends a token to the reply and feeds it, unless the reply ends before that. -/
def advance (w : Workspace β) (token : TokenId) : Except Breach (Left β (Option StopReason)) :=
  if w.model.tokenizer.isEos token then .ok (w, .ok (some .endOfSequence))
  else
    match w.conversation.message.push (w.model.tokenizer.tokenBytes token) with
    | none => .error .offset
    | some (completed, message) =>
      let w := { w with conversation := { w.conversation with message } }
      if completed then .ok (w, .ok (some .stopString))
      else if w.model.config.contextWindow ≤ w.conversation.position then
        .ok (w, .ok (some .contextWindow))
      else .ok (w.feedBack token)

def settle (w : Workspace β) :
    Except Session.Error (Option StopReason) → Except Breach (Left β Unit)
  | .error e => .ok (w, .error e)
  | .ok none => .ok (w, .ok ())
  | .ok (some reason) =>
    match w.conversation.stop reason with
    | none => .error .offset
    | some conversation => .ok ({ w with conversation }, .ok ())

def extend (w : Workspace β) (elapsed : Duration) : Except Breach (Left β Unit) :=
  match w.conversation.logits with
  | none => .ok (w, .error .nothingToDecode)
  | some logits =>
    let conversation := { w.conversation with logits := none }
    match w.model.sample logits with
    | (none, model) =>
      .ok ({ w with model, conversation }, .error (.inference .decode (.forward .noLogits)))
    | (some token, model) => do
      let conversation := { conversation with generated := addWord conversation.generated 1 }
      let calls := w.calls ++ [.sample token]
      let (w, outcome) ← advance { w with model, conversation, calls } token
      let w ← w.recordDecode elapsed
      w.settle outcome

def decode (w : Workspace β) (elapsed : Elapsed) : Except Breach (Left β Unit) :=
  match w.conversation.phase with
  | .idle => .ok (w, .error .nothingToDecode)
  | .stopped => .ok (w, .error .alreadyStopped)
  | .decoding => w.extend elapsed.token
  | .prefilling => do
    match ← w.sealPrompt elapsed.prompt with
    | (w, .error e) => .ok (w, .error e)
    | (w, .ok ()) => w.extend elapsed.token

def reset (w : Workspace β) : Workspace β where
  model := w.model.reset
  conversation := {}
  throughput := {}
  calls := w.calls ++ [.resetCache]

def recover (w : Workspace β) : Except Session.Error Unit → Workspace β
  | .error (.inference ..) => w.reset
  | _ => w

end Workspace

end Dialogue
