import Dialogue.Session.Error
import Dialogue.Tensor.Basic

namespace Dialogue.Image

def channels : Nat := 3

def height : Nat := 336

def width : Nat := 336

def dims : List Nat :=
  [channels, height, width]

def plane : Nat :=
  width * height

def unbatch (t : Tensor) : Except Tensor.Error Tensor := do
  if t.shape.rank = dims.length + 1 then t.reshape (← t.shape.squeezeLeading) else .ok t

/-- Brings a tensor into the form of an image: a leading axis of size one is dropped and halves are
widened. -/
def normalize (t : Tensor) : Except Rejection Tensor := do
  let t ← (unbatch t).mapError .imageTensor
  (t.shape.ensure dims).mapError .imageShape
  .ok t.widen

/-- The level of a channel, from `-1 / 2` to `1 / 2`. -/
def level (v : UInt8) : Binary32 :=
  .ofNat v.toNat / 255 - 0.5

def levels : Array Binary32 :=
  Array.ofFn fun v : Fin 256 => level (UInt8.ofFin v)

def levelOf (v : UInt8) : Binary32 :=
  have inBounds : v.toNat < levels.size := by simpa [levels] using v.toNat_lt
  levels[v.toNat]

def planar (pixels : Array UInt8) : Array Binary32 :=
  Array.ofFn fun j : Fin (plane * channels) =>
    levelOf (pixels.getD (j.val % plane * channels + j.val / plane) 0)

def ofRgb8 (w h : Nat) (pixels : Array UInt8) : Except Rejection Tensor :=
  if w = width ∧ h = height then
    if pixels.size = plane * channels then
      (Tensor.ofSingles (planar pixels) ⟨dims⟩).mapError .imageTensor
    else .error (.pixelBytes (plane * channels) pixels.size)
  else .error (.imageSize width height w h)

theorem levelOf_eq_level (v : UInt8) : levelOf v = level v := by
  simp [levelOf, levels]

end Dialogue.Image
