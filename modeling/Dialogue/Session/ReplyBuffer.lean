import Dialogue.Session.Reply
import Dialogue.Text.Fault

/-!
A reply as it lies in memory: the octets of its text in one run, the offset up to which they are
shown, and octets that wait. What is cut, dropped or subtracted is given by offsets, so an operation
has a result only where no offset cuts a character or lies past an end.
-/

namespace Dialogue

structure ReplyBuffer where
  text : List UInt8 := []
  pending : List UInt8 := []
  shown : Nat := 0
  stops : List (List UInt8) := []
deriving DecidableEq

namespace ReplyBuffer

open Text.Utf8 (charOffsets encode fault? find? isBoundary lossy replacement sliceFrom? sliceTo?)

def ofStops (stops : List String) : ReplyBuffer :=
  { stops := (stops.map fun s => encode s.toList).filter fun s => !s.isEmpty }

def takeOctets? (octets : List UInt8) (n : Nat) : Option (List UInt8) :=
  if n ≤ octets.length then some (octets.take n) else none

def dropOctets? (octets : List UInt8) (n : Nat) : Option (List UInt8) :=
  if n ≤ octets.length then some (octets.drop n) else none

def subtract? (m n : Nat) : Option Nat :=
  if n ≤ m then some (m - n) else none

inductive Round where
  | done (b : ReplyBuffer)
  | again (b : ReplyBuffer)

/-- Moves the characters before the first fault of the pending octets to the text, and U+FFFD for
the fault unless it may still become a character. -/
def decodeRound (b : ReplyBuffer) : Option Round :=
  match fault? b.pending with
  | none => some (.done { b with text := b.text ++ b.pending, pending := [] })
  | some fault => do
    let valid ← takeOctets? b.pending fault.offset
    let text := if fault? valid = none then b.text ++ valid else b.text
    match fault.length with
    | none => some (.done { b with text, pending := ← dropOctets? b.pending fault.offset })
    | some bad =>
      some (.again { b with
        text := text ++ encode [replacement]
        pending := ← dropOctets? b.pending (fault.offset + bad) })

theorem length_of_decodeRound {b next : ReplyBuffer} (h : b.decodeRound = some (.again next)) :
    next.pending.length < b.pending.length := by
  rw [decodeRound] at h
  split at h
  · simp at h
  · rename_i fault hfault
    cases hbad : fault.length with
    | none => simp [hbad, Option.bind_eq_some_iff] at h
    | some bad =>
        have hpos : 0 < bad := by
          obtain ⟨offset, length⟩ := fault
          cases hbad
          exact Text.Utf8.length_pos_of_faultAfter hfault
        simp only [hbad, dropOctets?, Option.bind_eq_bind, Option.bind_eq_some_iff,
          Option.ite_none_right_eq_some, Option.some.injEq, Round.again.injEq] at h
        obtain ⟨-, -, rest, ⟨hle, rfl⟩, rfl⟩ := h
        simp only [List.length_drop]
        omega

def decodePending (b : ReplyBuffer) : Option ReplyBuffer :=
  match _h : b.decodeRound with
  | none => none
  | some (.done next) => some next
  | some (.again next) => next.decodePending
termination_by b.pending.length
decreasing_by exact length_of_decodeRound _h

def findStop (b : ReplyBuffer) : Option (Option Nat) := do
  let tail ← sliceFrom? b.text b.shown
  some ((b.stops.filterMap (find? tail)).min?.map (b.shown + ·))

/-- How many octets the longest end has, of what is not shown, that begins a longer stop string. -/
def heldLength (b : ReplyBuffer) : Option Nat := do
  let tail ← sliceFrom? b.text b.shown
  let ends ← (charOffsets tail).mapM (sliceFrom? tail)
  let held := ends.find? fun last =>
    b.stops.any fun s => last.length < s.length && last.isPrefixOf s
  some (held.elim 0 List.length)

def truncate? (text : List UInt8) (n : Nat) : Option (List UInt8) :=
  if n ≤ text.length then sliceTo? text n else some text

def push (b : ReplyBuffer) (octets : List UInt8) : Option (Bool × ReplyBuffer) := do
  let b ← { b with pending := b.pending ++ octets }.decodePending
  match ← b.findStop with
  | some i => some (true, { b with text := ← truncate? b.text i, pending := [], shown := i })
  | none =>
    let held ← b.heldLength
    some (false, { b with shown := ← subtract? b.text.length held })

def flush (b : ReplyBuffer) : ReplyBuffer :=
  let text := if b.pending = [] then b.text else b.text ++ encode (lossy b.pending)
  { b with text, pending := [], shown := text.length }

def clear (b : ReplyBuffer) : ReplyBuffer :=
  { stops := b.stops }

def read (b : ReplyBuffer) : Option (List UInt8) :=
  sliceTo? b.text b.shown

def readText (b : ReplyBuffer) : Option String :=
  b.read.map fun octets => String.ofList (lossy octets)

end ReplyBuffer

end Dialogue
