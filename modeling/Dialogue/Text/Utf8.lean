/-!
Reading UTF-8 octet by octet. Octets that begin a character wait until it is complete; a run that
no character begins with is replaced by U+FFFD, and the octet that ended it is read afresh. The
text read from a stream therefore does not depend on how the stream is cut.
-/

namespace Dialogue.Text.Utf8

def replacement : Char := '\uFFFD'

inductive Reading where
  | complete (c : Char)
  | incomplete
  | malformed
deriving DecidableEq

def isContinuation (b : UInt8) : Bool :=
  0x80 ≤ b && b ≤ 0xBF

/-- Least second octet after a first one; it rules out overlong forms. -/
def leastSecond (a : UInt8) : UInt8 :=
  if a = 0xE0 then 0xA0 else if a = 0xF0 then 0x90 else 0x80

/-- Greatest second octet after a first one; it rules out surrogates and what is above U+10FFFF. -/
def greatestSecond (a : UInt8) : UInt8 :=
  if a = 0xED then 0x9F else if a = 0xF4 then 0x8F else 0xBF

def read : List UInt8 → Reading
  | [a] =>
    if a < 0x80 then .complete (Char.ofNat a.toNat)
    else if 0xC2 ≤ a && a ≤ 0xF4 then .incomplete
    else .malformed
  | [a, b] =>
    if leastSecond a ≤ b && b ≤ greatestSecond a then
      if a < 0xE0 then .complete (Char.ofNat (a.toNat % 32 * 64 + b.toNat % 64))
      else .incomplete
    else .malformed
  | [a, b, c] =>
    if isContinuation c then
      if a < 0xF0 then
        .complete (Char.ofNat ((a.toNat % 16 * 64 + b.toNat % 64) * 64 + c.toNat % 64))
      else .incomplete
    else .malformed
  | [a, b, c, d] =>
    if isContinuation d then
      .complete (Char.ofNat
        (((a.toNat % 8 * 64 + b.toNat % 64) * 64 + c.toNat % 64) * 64 + d.toNat % 64))
    else .malformed
  | _ => .malformed

def start (b : UInt8) : List Char × List UInt8 :=
  match read [b] with
  | .complete c => ([c], [])
  | .incomplete => ([], [b])
  | .malformed => ([replacement], [])

def push (waiting : List UInt8) (b : UInt8) : List Char × List UInt8 :=
  if waiting = [] then start b
  else
    match read (waiting ++ [b]) with
    | .complete c => ([c], [])
    | .incomplete => ([], waiting ++ [b])
    | .malformed => (replacement :: (start b).1, (start b).2)

def decode (waiting : List UInt8) : List UInt8 → List Char × List UInt8
  | [] => ([], waiting)
  | b :: rest =>
    let (known, left) := push waiting b
    let (more, last) := decode left rest
    (known ++ more, last)

def finish (waiting : List UInt8) : List Char :=
  if waiting = [] then [] else [replacement]

/-- Reads a whole stream, replacing what is not UTF-8. -/
def lossy (octets : List UInt8) : List Char :=
  let (known, waiting) := decode [] octets
  known ++ finish waiting

def encode (text : List Char) : List UInt8 :=
  text.flatMap String.utf8EncodeChar

@[simp] theorem decode_nil (waiting : List UInt8) : decode waiting [] = ([], waiting) := rfl

theorem decode_append (waiting first second : List UInt8) :
    decode waiting (first ++ second) =
      ((decode waiting first).1 ++ (decode (decode waiting first).2 second).1,
        (decode (decode waiting first).2 second).2) := by
  induction first generalizing waiting with
  | nil => simp
  | cons b rest ih => simp [decode, ih]

end Dialogue.Text.Utf8
