import Dialogue.Backend.Error
import Dialogue.Sampling.Stage

namespace Dialogue

inductive LoadStage where
  | resolve
  | config
  | backend
  | validate
deriving DecidableEq

def LoadStage.name : LoadStage → String
  | .resolve => "resolve"
  | .config => "config"
  | .backend => "backend"
  | .validate => "validate"

inductive InferenceStage where
  | prefill
  | decode
  | evaluate
deriving DecidableEq

def InferenceStage.name : InferenceStage → String
  | .prefill => "prefill"
  | .decode => "decode"
  | .evaluate => "evaluate"

inductive Rejection where
  | emptyText
  | imagesUnsupported (model : String)
  | imageTensor (reason : Tensor.Error)
  | imageShape (reason : Tensor.Error)
  | imageSize (expectedWidth expectedHeight width height : Nat)
  | pixelBytes (expected got : Nat)
  | promptTooLong (needed remaining window : Nat)
  | reported (detail : String)
deriving DecidableEq

def Rejection.message : Rejection → String
  | .emptyText => "empty text"
  | .imagesUnsupported model => "model '" ++ model ++ "' does not accept images"
  | .imageTensor reason => reason.message
  | .imageShape reason => "image " ++ reason.message
  | .imageSize expectedWidth expectedHeight width height =>
    "image must be " ++ Nat.repr expectedWidth ++ "x" ++ Nat.repr expectedHeight ++ ", got " ++
      Nat.repr width ++ "x" ++ Nat.repr height
  | .pixelBytes expected got =>
    "expected " ++ Nat.repr expected ++ " RGB bytes, got " ++ Nat.repr got
  | .promptTooLong needed remaining window =>
    "prompt needs " ++ Nat.repr needed ++ " positions but only " ++ Nat.repr remaining ++ " of " ++
      Nat.repr window ++ " remain"
  | .reported detail => detail

inductive Session.Error where
  | load (model : String) (stage : LoadStage) (reason : Backend.Error)
  | notLoaded
  | invalidInput (reason : Rejection)
  | alreadyStopped
  | nothingToDecode
  /-- The model stays; unless it was only evaluated, the conversation is gone. -/
  | inference (stage : InferenceStage) (reason : Backend.Error)
  /-- The call broke off and cleaned nothing up. -/
  | brokeOff (reason : Stage.Error)
deriving DecidableEq

def Session.Error.message? : Session.Error → Option String
  | .load model stage reason =>
    reason.message?.map fun text =>
      "failed to load model '" ++ model ++ "' (" ++ stage.name ++ " stage): " ++ text
  | .notLoaded => some "no model loaded"
  | .invalidInput reason => some ("invalid input: " ++ reason.message)
  | .alreadyStopped =>
    some "generation already stopped; prefill a new turn or reset the chat"
  | .nothingToDecode => some "nothing to decode; prefill a prompt first"
  | .inference stage reason =>
    reason.message?.map fun text => "inference failed during " ++ stage.name ++ ": " ++ text
  | .brokeOff reason => some reason.message

/-- Whether a call with this error was refused before it changed anything. -/
def Session.Error.isRefusal : Session.Error → Bool
  | .notLoaded | .invalidInput _ | .alreadyStopped | .nothingToDecode => true
  | .load .. | .inference .. | .brokeOff _ => false

end Dialogue
