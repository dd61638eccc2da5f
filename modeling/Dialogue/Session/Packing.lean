import Dialogue.Session.Image

namespace Dialogue.Image

/-- The channels of each whole pixel; octets left over at the end are not read. -/
def wholePixels (pixels : Array UInt8) : List (Array UInt8) :=
  (List.range (pixels.size / channels)).map fun i =>
    pixels.extract (i * channels) (i * channels + channels)

def stores (pixels : Array UInt8) : List (Nat × UInt8) :=
  (wholePixels pixels).zipIdx.flatMap fun (rgb, i) =>
    rgb.toList.zipIdx.map fun (v, c) => (c * plane + i, v)

def store (buffer : Array Binary32) (place : Nat) (v : UInt8) : Option (Array Binary32) :=
  if h : place < buffer.size then some (buffer.set place (levelOf v)) else none

def storeAll (buffer : Array Binary32) : List (Nat × UInt8) → Option (Array Binary32)
  | [] => some buffer
  | (place, v) :: rest => do
    storeAll (← store buffer place v) rest

def pack (pixels : Array UInt8) : Option (Array Binary32) :=
  storeAll (Array.replicate (plane * channels) 0) (stores pixels)

end Dialogue.Image
