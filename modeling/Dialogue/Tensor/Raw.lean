import Dialogue.Tensor.Basic

/-!
Tensors as they lie in memory, and the ways to make them. Nothing ties the elements to the shape but
the checks that are made on the way, and these take the number of elements from a word, in which a
product of sizes may wrap around.
-/

namespace Dialogue

open Tensor (Error)

/-- The number of elements, in a word. -/
def Shape.countWord (s : Shape) : UInt64 :=
  s.dims.foldl (fun n size => n * UInt64.ofNat size) 1

structure RawTensor where
  storage : Storage
  shape : Shape

namespace RawTensor

def ofStorage (storage : Storage) (shape : Shape) : Except Error RawTensor :=
  if storage.size = shape.countWord.toNat then .ok ⟨storage, shape⟩
  else .error (.lengthMismatch storage.size shape.dims shape.countWord.toNat)

def zeros (shape : Shape) : RawTensor where
  storage := .f32 (Array.replicate shape.countWord.toNat 0)
  shape := shape

def widen (t : RawTensor) : RawTensor where
  storage := t.storage.widen
  shape := t.shape

def reshape (t : RawTensor) (shape : Shape) : Except Error RawTensor :=
  if t.shape.countWord = shape.countWord then .ok ⟨t.storage, shape⟩
  else .error (.shapeMismatch t.shape.dims shape.dims)

end RawTensor

namespace Tensor

def raw (t : Tensor) : RawTensor where
  storage := t.storage
  shape := t.shape

inductive Making where
  | ofSingles (data : Array Binary32) (shape : Shape)
  | ofHalves (data : Array Binary16) (shape : Shape)
  | ofStorage (storage : Storage) (shape : Shape)
  | zeros (shape : Shape)
  | widen (making : Making)
  | reshape (making : Making) (shape : Shape)

namespace Making

def shapes : Making → List Shape
  | .ofSingles _ shape | .ofHalves _ shape | .ofStorage _ shape | .zeros shape => [shape]
  | .widen making => making.shapes
  | .reshape making shape => shape :: making.shapes

def make : Making → Except Error Tensor
  | .ofSingles data shape => Tensor.ofSingles data shape
  | .ofHalves data shape => Tensor.ofHalves data shape
  | .ofStorage storage shape => Tensor.ofStorage storage shape
  | .zeros shape => .ok (.zeros shape)
  | .widen making => do
    .ok (← making.make).widen
  | .reshape making shape => do
    (← making.make).reshape shape

def makeRaw : Making → Except Error RawTensor
  | .ofSingles data shape => RawTensor.ofStorage (.f32 data) shape
  | .ofHalves data shape => RawTensor.ofStorage (.f16 data) shape
  | .ofStorage storage shape => RawTensor.ofStorage storage shape
  | .zeros shape => .ok (.zeros shape)
  | .widen making => do
    .ok (← making.makeRaw).widen
  | .reshape making shape => do
    (← making.makeRaw).reshape shape

end Making

end Tensor

end Dialogue
