import Dialogue.Binary.Arithmetic
import Dialogue.Tensor.Error

namespace Dialogue

open Tensor (Error)

inductive ElementType where
  | f32
  | f16
deriving DecidableEq

def ElementType.name : ElementType → String
  | .f32 => "f32"
  | .f16 => "f16"

/-- The elements of a tensor in row-major order. -/
inductive Storage where
  | f32 (data : Array Binary32)
  | f16 (data : Array Binary16)
deriving DecidableEq

namespace Storage

def size : Storage → Nat
  | .f32 data => data.size
  | .f16 data => data.size

def isEmpty (s : Storage) : Bool :=
  s.size = 0

def elementType : Storage → ElementType
  | .f32 _ => .f32
  | .f16 _ => .f16

def singles : Storage → Except Error (Array Binary32)
  | .f32 data => .ok data
  | .f16 _ => .error (.typeMismatch ElementType.f32.name ElementType.f16.name)

def widened : Storage → Array Binary32
  | .f32 data => data
  | .f16 data => data.map Binary.convert

def widen (s : Storage) : Storage :=
  .f32 s.widened

@[simp] theorem size_widen (s : Storage) : s.widen.size = s.size := by
  cases s <;> simp [widen, widened, size]

end Storage

end Dialogue
