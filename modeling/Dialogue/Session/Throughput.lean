import Dialogue.Binary.Arithmetic
import Dialogue.Binary.Fixed
import Dialogue.Session.Usage

namespace Dialogue

/-- A span of time: seconds, of which 64 bits hold the number, and nanoseconds of a second. -/
structure Duration where
  seconds : Nat := 0
  nanos : Nat := 0
deriving DecidableEq

namespace Duration

def nanosPerSecond : Nat := 1000000000

inductive Error where
  | overflow
deriving DecidableEq

def Error.message : Error → String
  | .overflow => "overflow when adding durations"

def ofParts (seconds nanos : Nat) : Duration :=
  ⟨seconds + nanos / nanosPerSecond, nanos % nanosPerSecond⟩

def add (d e : Duration) : Except Error Duration :=
  let sum := ofParts (d.seconds + e.seconds) (d.nanos + e.nanos)
  if sum.seconds < 1 <<< 64 then .ok sum else .error .overflow

def inSeconds (d : Duration) : Binary64 :=
  .ofNat d.seconds + .ofNat d.nanos / .ofNat nanosPerSecond

end Duration

structure Throughput where
  usage : Usage := {}
  prefillTime : Duration := {}
  decodeTime : Duration := {}
deriving DecidableEq

namespace Throughput

def addPrefill (t : Throughput) (positions : Nat) (elapsed : Duration) :
    Except Duration.Error Throughput := do
  .ok { t with
    usage := t.usage.addPrefill positions
    prefillTime := ← t.prefillTime.add elapsed }

def addDecode (t : Throughput) (elapsed : Duration) : Except Duration.Error Throughput := do
  .ok { t with
    usage := t.usage.addDecode
    decodeTime := ← t.decodeTime.add elapsed }

def rate (tokens : Nat) (elapsed : Duration) : Binary64 :=
  if 0 < elapsed.inSeconds then .ofNat tokens / elapsed.inSeconds else 0

def prefillRate (t : Throughput) : Binary64 :=
  rate t.usage.prefillTokens t.prefillTime

def decodeRate (t : Throughput) : Binary64 :=
  rate t.usage.decodeTokens t.decodeTime

def text (t : Throughput) : String :=
  "prefill: " ++ t.prefillRate.toFixed 1 ++ " tok/s, decode: " ++ t.decodeRate.toFixed 1 ++
    " tok/s, " ++ t.usage.text

end Throughput

end Dialogue
