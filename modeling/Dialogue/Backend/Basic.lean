import Dialogue.Backend.Error
import Dialogue.Tensor.Basic

namespace Dialogue

inductive Input where
  | tokens (ids : List TokenId)
  | image (image : Tensor)

def Input.positions (imageEmbedLen : Nat) : Input → Nat
  | .tokens ids => ids.length
  | .image _ => imageEmbedLen

/-- A loaded model, whose states hold its weights and the context it was fed. -/
class Backend (β : Type) where
  /-- Feeds an input whose first element lands at a position; logits are for the last one. -/
  forward : β → Input → Nat → Except Backend.Error Logits × β
  vocabSize : β → Nat
  imageEmbedLen : β → Option Nat := fun _ => none
  resetCache : β → β
  evaluate : β → Except Backend.Error String × β :=
    fun b => (.error (.unsupported "evaluate"), b)

end Dialogue
