import Dialogue.Tensor.Error

namespace Dialogue

open Tensor (Error)

/-- The sizes of the axes of a tensor, the slowest-varying first. -/
structure Shape where
  dims : List Nat
deriving DecidableEq

namespace Shape

def rank (s : Shape) : Nat :=
  s.dims.length

def count (s : Shape) : Nat :=
  s.dims.foldr (· * ·) 1

def toText (s : Shape) : String :=
  Text.numbers s.dims

def ensure (s : Shape) (expected : List Nat) : Except Error Unit :=
  if s.dims = expected then .ok () else .error (.shapeMismatch expected s.dims)

def squeezeLeading (s : Shape) : Except Error Shape :=
  match s.dims with
  | [] => .error (.notSqueezable 0 0)
  | size :: rest => if size = 1 then .ok ⟨rest⟩ else .error (.notSqueezable 0 size)

@[simp] theorem count_nil : count ⟨[]⟩ = 1 := rfl

@[simp] theorem count_cons (size : Nat) (rest : List Nat) :
    count ⟨size :: rest⟩ = size * count ⟨rest⟩ := rfl

theorem ensure_eq_ok_iff {s : Shape} {expected : List Nat} :
    s.ensure expected = .ok () ↔ s.dims = expected := by
  by_cases h : s.dims = expected <;> simp [ensure, h]

theorem squeezeLeading_eq_ok_iff {s t : Shape} :
    s.squeezeLeading = .ok t ↔ s.dims = 1 :: t.dims := by
  obtain ⟨dims⟩ := s
  obtain ⟨rest⟩ := t
  cases dims with
  | nil => simp [squeezeLeading]
  | cons size tail => by_cases h : size = 1 <;> simp [squeezeLeading, h]

end Shape

end Dialogue
