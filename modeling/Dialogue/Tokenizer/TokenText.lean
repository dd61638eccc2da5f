import Dialogue.Text.Fault
import Dialogue.Tokenizer.BytePair

namespace Dialogue.TokenText

open Text.Utf8 (encode slice?)

def parseDigits? (value : Nat) : List UInt8 → Option Nat
  | [] => some value
  | b :: rest => do
    let next := value * 16 + (← BytePair.hexDigit? (Char.ofNat b.toNat))
    if next < 256 then parseDigits? next rest else none

def parseOctet? (octets : List UInt8) : Option UInt8 :=
  let digits := if octets.head? = some 0x2B then octets.tail else octets
  if digits = [] then none else (parseDigits? 0 digits).map UInt8.ofNat

/-- Whether a text has the length and the ends of a token for an octet. -/
def isBracketed (octets : List UInt8) : Bool :=
  octets.length = 6 && (encode ['<', '0', 'x']).isPrefixOf octets &&
    (encode ['>']).isSuffixOf octets

def read? (text : List Char) : Option (List UInt8) :=
  let whole := encode (text.map BytePair.unmark)
  if isBracketed (encode text) then do
    match parseOctet? (← slice? (encode text) 3 5) with
    | some b => some [b]
    | none => some whole
  else some whole

end Dialogue.TokenText
