import Dialogue.Tensor.Shape
import Dialogue.Tensor.Storage

namespace Dialogue

/-- Elements and a shape that holds as many. -/
structure Tensor where
  storage : Storage
  shape : Shape
  size_eq : storage.size = shape.count

namespace Tensor

def ofStorage (storage : Storage) (shape : Shape) : Except Error Tensor :=
  if h : storage.size = shape.count then .ok ⟨storage, shape, h⟩
  else .error (.lengthMismatch storage.size shape.dims shape.count)

def ofSingles (data : Array Binary32) (shape : Shape) : Except Error Tensor :=
  ofStorage (.f32 data) shape

def ofHalves (data : Array Binary16) (shape : Shape) : Except Error Tensor :=
  ofStorage (.f16 data) shape

def zeros (shape : Shape) : Tensor where
  storage := .f32 (Array.replicate shape.count 0)
  shape := shape
  size_eq := by simp [Storage.size]

def elementType (t : Tensor) : ElementType :=
  t.storage.elementType

def singles (t : Tensor) : Except Error (Array Binary32) :=
  t.storage.singles

def widen (t : Tensor) : Tensor where
  storage := t.storage.widen
  shape := t.shape
  size_eq := by simp [t.size_eq]

def reshape (t : Tensor) (shape : Shape) : Except Error Tensor :=
  if h : t.shape.count = shape.count then .ok ⟨t.storage, shape, t.size_eq.trans h⟩
  else .error (.shapeMismatch t.shape.dims shape.dims)

end Tensor

end Dialogue
