import Dialogue.Text.Utf8

/-!
The text of a reply as its octets arrive. Octets that begin a character wait for the rest of it,
and text that begins a stop string is held back until it is known not to become one, so what is
shown only grows.
-/

namespace Dialogue

structure Reply where
  stops : List (List Char) := []
  shown : List Char := []
  held : List Char := []
  waiting : List UInt8 := []
deriving DecidableEq

namespace Reply

def ofStops (stops : List String) : Reply :=
  { stops := (stops.map String.toList).filter fun s => !s.isEmpty }

def startsWithStop (stops : List (List Char)) (text : List Char) : Bool :=
  stops.any fun s => s.isPrefixOf text

def beforeStop (stops : List (List Char)) : List Char → Option (List Char)
  | [] => none
  | c :: text =>
    if startsWithStop stops (c :: text) then some []
    else (beforeStop stops text).map (c :: ·)

def beginsStop (stops : List (List Char)) (text : List Char) : Bool :=
  stops.any fun s => text.isPrefixOf s && text.length < s.length

/-- A text without its longest end that begins a longer stop string, and that end. -/
def release (stops : List (List Char)) : List Char → List Char × List Char
  | [] => ([], [])
  | c :: text =>
    if beginsStop stops (c :: text) then ([], c :: text)
    else (c :: (release stops text).1, (release stops text).2)

/-- Appends octets. When a stop string is complete the text ends before it, and what was held back
or waiting is dropped. -/
def push (r : Reply) (octets : List UInt8) : Bool × Reply :=
  let (known, waiting) := Text.Utf8.decode r.waiting octets
  match beforeStop r.stops (r.held ++ known) with
  | some text => (true, { r with shown := r.shown ++ text, held := [], waiting := [] })
  | none =>
    let (released, held) := release r.stops (r.held ++ known)
    (false, { r with shown := r.shown ++ released, held, waiting })

def flush (r : Reply) : Reply :=
  { r with
    shown := r.shown ++ r.held ++ Text.Utf8.finish r.waiting
    held := []
    waiting := [] }

def clear (r : Reply) : Reply :=
  { stops := r.stops }

def text (r : Reply) : String :=
  String.ofList r.shown

def isEmpty (r : Reply) : Bool :=
  r.shown.isEmpty && r.held.isEmpty && r.waiting.isEmpty

theorem release_append (stops : List (List Char)) (text : List Char) :
    (release stops text).1 ++ (release stops text).2 = text := by
  induction text with
  | nil => rfl
  | cons c text ih => by_cases h : beginsStop stops (c :: text) <;> simp [release, h, ih]

end Reply

end Dialogue
