import Dialogue.Json.Reader

namespace Dialogue.Json

def hexValue (c : Char) : Nat :=
  if c.isDigit then c.toNat - '0'.toNat
  else if 'a' ≤ c then c.toNat - 'a'.toNat + 10
  else c.toNat - 'A'.toNat + 10

def hexUnit (a b c d : Char) : Nat :=
  ((hexValue a * 16 + hexValue b) * 16 + hexValue c) * 16 + hexValue d

def isLeading (n : Nat) : Bool :=
  0xD800 ≤ n && n < 0xDC00

def isTrailing (n : Nat) : Bool :=
  0xDC00 ≤ n && n < 0xE000

def escapedChar (c : Char) : Char :=
  if c = 'b' then '\x08'
  else if c = 'f' then '\x0c'
  else if c = 'n' then '\n'
  else if c = 'r' then '\r'
  else if c = 't' then '\t'
  else c

/-- Resolves escapes. A leading surrogate must be followed by a trailing one, and no trailing one
stands alone. -/
def unescape : List Char → Option (List Char)
  | [] => some []
  | '\\' :: 'u' :: a :: b :: c :: d :: rest =>
    let unit := hexUnit a b c d
    if isTrailing unit then none
    else if isLeading unit then
      match rest with
      | '\\' :: 'u' :: a :: b :: c :: d :: rest =>
        let trail := hexUnit a b c d
        if isTrailing trail then
          (unescape rest).map
            (Char.ofNat (0x10000 + (unit - 0xD800) * 0x400 + (trail - 0xDC00)) :: ·)
        else none
      | _ => none
    else (unescape rest).map (Char.ofNat unit :: ·)
  | '\\' :: e :: rest => (unescape rest).map (escapedChar e :: ·)
  | c :: rest => (unescape rest).map (c :: ·)

def lowHex (n : Nat) : Char :=
  if n < 10 then Char.ofNat ('0'.toNat + n) else Char.ofNat ('a'.toNat + (n - 10))

def escapeChar (c : Char) : List Char :=
  if c = '"' then ['\\', '"']
  else if c = '\\' then ['\\', '\\']
  else if c = '\x08' then ['\\', 'b']
  else if c = '\x0c' then ['\\', 'f']
  else if c = '\n' then ['\\', 'n']
  else if c = '\r' then ['\\', 'r']
  else if c = '\t' then ['\\', 't']
  else if c.toNat < 0x20 then ['\\', 'u', '0', '0', lowHex (c.toNat / 16), lowHex (c.toNat % 16)]
  else [c]

def escape (s : List Char) : List Char :=
  s.flatMap escapeChar

end Dialogue.Json
