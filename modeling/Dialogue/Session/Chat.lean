import Dialogue.Session.Conversation
import Dialogue.Session.Image
import Dialogue.Session.Model
import Dialogue.Session.Usage

namespace Dialogue

inductive Prompt where
  | text (s : String)
  | image (image : Tensor)

structure Chat (β : Type) where
  model : Model β
  conversation : Conversation := {}
  usage : Usage := {}

structure Chat.Outcome (β α : Type) where
  chat : Chat β
  calls : List Call
  result : Except Session.Error α

namespace Chat

variable {β : Type} [Backend β]

structure Plan where
  tokens : List TokenId
  image : Option (Tensor × Nat)
  part : Part

namespace Plan

def positions (p : Plan) : Nat :=
  addWord p.tokens.length ((p.image.map Prod.snd).getD 0)

def inputs (p : Plan) : List (Input × Nat) :=
  (if p.tokens = [] then [] else [(.tokens p.tokens, p.tokens.length)]) ++
    p.image.toList.map fun (image, positions) => (.image image, positions)

end Plan

def openingTokens (chat : Chat β) : List TokenId :=
  let model := chat.model
  let opens := !chat.conversation.isPrefilling && chat.conversation.isFirst
  if opens && model.config.template.addBos then model.tokenizer.bos.toList else []

def openingText (chat : Chat β) : String :=
  if chat.conversation.isPrefilling then ""
  else chat.model.config.template.userPrefix chat.conversation.isFirst

def promptTokens (chat : Chat β) (text : String) : List TokenId :=
  chat.openingTokens ++ chat.model.tokenizer.encode (chat.openingText ++ text)

def planOf (chat : Chat β) : Prompt → Except Rejection Plan
  | .text s =>
    if s = "" then .error .emptyText
    else .ok { tokens := chat.promptTokens s, image := none, part := .text s }
  | .image image =>
    match Backend.imageEmbedLen chat.model.backend with
    | none => .error (.imagesUnsupported chat.model.name)
    | some positions => do
      .ok {
        image := some (← Image.normalize image, positions)
        tokens := chat.promptTokens ""
        part := .image }

/-- A plan fits if it leaves room for the tokens that hand over to the assistant. -/
def checkRoom (chat : Chat β) (plan : Plan) : Except Rejection Plan :=
  let needed := addWord plan.positions chat.model.sealTokens.length
  let window := chat.model.config.contextWindow
  let position := chat.conversation.position
  if window < addWord position needed then .error (.promptTooLong needed (window - position) window)
  else .ok plan

def plan (chat : Chat β) (input : Prompt) : Except Rejection Plan := do
  chat.checkRoom (← chat.planOf input)

/-- Starts over after a fault: the context can no longer be trusted. -/
def recover (model : Model β) (calls : List Call) (stage : InferenceStage)
    (reason : Backend.Error) : Outcome β Unit where
  chat := { model := model.reset }
  calls := calls ++ [.resetCache]
  result := .error (.inference stage reason)

def prefill (chat : Chat β) (input : Prompt) : Outcome β Unit :=
  match chat.plan input with
  | .error reason => ⟨chat, [], .error (.invalidInput reason)⟩
  | .ok plan =>
    match chat.model.feed chat.conversation.position plan.inputs with
    | ⟨model, calls, .error reason⟩ => recover model calls .prefill reason
    | ⟨model, calls, .ok logits⟩ =>
      { chat := {
          model
          conversation := chat.conversation.addPart plan.part plan.positions logits
          usage := chat.usage.addPrefill plan.positions }
        calls
        result := .ok () }

/-- The reply after a token that is not fed yet, and why the reply ends before that, if it does. -/
def absorb (model : Model β) (position : Nat) (reply : Reply) (token : TokenId) :
    Reply × Option StopReason :=
  if model.tokenizer.isEos token then (reply, some .endOfSequence)
  else
    match reply.push (model.tokenizer.tokenBytes token) with
    | (true, reply) => (reply, some .stopString)
    | (false, reply) =>
      (reply, if model.config.contextWindow ≤ position then some .contextWindow else none)

def settle (model : Model β) (conversation : Conversation) (draft : Draft) : Conversation :=
  let conversation := { conversation with position := addWord conversation.position 1 }
  if model.config.maxGenLength ≤ draft.generated then conversation.stop draft.reply .maxGenLength
  else { conversation with progress := .decoding draft }

/-- Samples a token for a reply and feeds it, unless the reply ends before. The calls are those that
the model received already. -/
def extend (chat : Chat β) (calls : List Call) (draft : Draft) : Outcome β Unit :=
  let conversation := chat.conversation
  let usage := chat.usage.addDecode
  match chat.model.sample draft.logits with
  | (none, model) => recover model calls .decode (.forward .noLogits)
  | (some token, model) =>
    let calls := calls ++ [.sample token]
    match absorb model conversation.position draft.reply token with
    | (reply, some reason) =>
      ⟨{ model, conversation := conversation.stop reply reason, usage }, calls, .ok ()⟩
    | (reply, none) =>
      match model.forward (.tokens [token]) conversation.position with
      | (model, call, .error reason) => recover model (calls ++ [call]) .decode reason
      | (model, call, .ok logits) =>
        let draft : Draft := { reply, generated := addWord draft.generated 1, logits }
        let conversation := settle model conversation draft
        ⟨{ model, conversation, usage }, calls ++ [call], .ok ()⟩

def freshDraft (chat : Chat β) (logits : Logits) : Draft :=
  { reply := .ofStops chat.model.config.template.stopStrings, generated := 0, logits }

def begin (chat : Chat β) (parts : List Part) (logits : Option Logits) : Outcome β Unit :=
  match chat.model.sealTokens, logits with
  | [], none => ⟨chat, [], .error .nothingToDecode⟩
  | [], some logits =>
    let conversation := chat.conversation
    let chat := { chat with conversation := conversation.beginReply parts conversation.position }
    chat.extend [] (chat.freshDraft logits)
  | tokens, _ =>
    match chat.model.forward (.tokens tokens) chat.conversation.position with
    | (model, call, .error reason) => recover model [call] .prefill reason
    | (model, call, .ok logits) =>
      let chat := {
        model
        conversation := chat.conversation.beginReply parts
          (addWord chat.conversation.position tokens.length)
        usage := chat.usage.addPrefill tokens.length }
      extend chat [call] (freshDraft chat logits)

def decode (chat : Chat β) : Outcome β Unit :=
  match chat.conversation.progress with
  | .idle => ⟨chat, [], .error .nothingToDecode⟩
  | .stopped .. => ⟨chat, [], .error .alreadyStopped⟩
  | .prefilling parts logits => chat.begin parts logits
  | .decoding draft => chat.extend [] draft

def reset (chat : Chat β) : Outcome β Unit where
  chat := { model := chat.model.reset }
  calls := [.resetCache]
  result := .ok ()

def evaluate (chat : Chat β) : Outcome β String :=
  let (report, backend) := Backend.evaluate chat.model.backend
  { chat := { chat with model := { chat.model with backend } }
    calls := [.evaluate]
    result := report.mapError (.inference .evaluate) }

end Chat

end Dialogue
