import Dialogue.Backend.Basic
import Dialogue.Config
import Dialogue.Sampling.Chain
import Dialogue.Word

namespace Dialogue

structure ModelDirectory where
  path : String
  configFile : Option File

structure Loaded (β : Type) where
  backend : β
  tokenizer : Tokenizer

/-- Loads a model from a directory, with the configuration found there. What it gives may differ
each time, so it is told how many loaders have run before. -/
abbrev Loader (β : Type) := Nat → ModelDirectory → Config → Except Backend.Error (Loaded β)

structure Model (β : Type) where
  name : String
  path : String
  config : Config
  backend : β
  tokenizer : Tokenizer
  chain : Chain
  serial : Nat
  released : Bool := false

inductive Call where
  /-- An input was fed at a position; the flag tells whether there were logits, of any number. -/
  | forward (input : Input) (position : Nat) (answered : Bool)
  | sample (token : TokenId)
  | resetCache
  | evaluate

namespace Model

variable {β : Type} [Backend β]

inductive Failure where
  | unfit (reason : Backend.Error)
  | chain (reason : Stage.Error)
deriving DecidableEq

def new (name path : String) (config : Config) (loaded : Loaded β) (entropy : Nat → UInt32)
    (serial : Nat) : Except Failure (Model β) :=
  let logits := Backend.vocabSize loaded.backend
  let tokens := loaded.tokenizer.vocabSize
  if logits = 0 ∨ tokens = 0 ∨ logits < tokens then
    .error (.unfit (.incompatible (.vocabularySizes tokens logits)))
  else
    match config.sampling.build entropy with
    | .error reason => .error (.chain reason)
    | .ok chain => .ok {
      name, path, config, serial, chain
      backend := loaded.backend
      tokenizer := loaded.tokenizer }

/-- Logits are usable if there is one for each token of the vocabulary. -/
def checkLogits (backend : β) (logits : Logits) : Except Backend.Error Logits :=
  if logits.length = Backend.vocabSize backend then .ok logits
  else .error (.forward (.logitCount logits.length (Backend.vocabSize backend)))

def forward (m : Model β) (input : Input) (position : Nat) :
    Model β × Call × Except Backend.Error Logits :=
  match Backend.forward m.backend input position with
  | (.ok logits, backend) =>
    ({ m with backend }, .forward input position true, checkLogits backend logits)
  | (.error e, backend) => ({ m with backend }, .forward input position false, .error e)

structure Fed (β : Type) where
  model : Model β
  calls : List Call
  result : Except Backend.Error (Option Logits)

def feed (m : Model β) (position : Nat) : List (Input × Nat) → Fed β
  | [] => ⟨m, [], .ok none⟩
  | (input, length) :: rest =>
    match m.forward input position with
    | (m, call, .error e) => ⟨m, [call], .error e⟩
    | (m, call, .ok logits) =>
      let later := feed m (addWord position length) rest
      ⟨later.model, call :: later.calls, later.result.map fun last => last.or (some logits)⟩

def sample (m : Model β) (logits : Logits) : Option TokenId × Model β :=
  match m.chain.sample logits with
  | (some token, chain) => (some token, { m with chain := chain.accept token })
  | (none, chain) => (none, { m with chain })

def reset (m : Model β) : Model β :=
  { m with backend := Backend.resetCache m.backend, chain := m.chain.reset }

def sealTokens (m : Model β) : List TokenId :=
  m.tokenizer.encode m.config.template.assistantPrefix

end Model

end Dialogue
