import TelemetryExport.Export.Transport

/-! # Counting units

An export counts the units of its batch that were lost, whether they could not
be encoded or their payload was rejected. It succeeds when none was lost.
-/

namespace TelemetryExport

/-- The units of one export. -/
structure Tally where
  total : Nat
  /-- The units lost so far. -/
  failed : Nat
  /-- The payloads rejected so far. -/
  rejections : Nat
  deriving DecidableEq, Repr

namespace Tally

def start (total : Nat) : Tally := ⟨total, 0, 0⟩

def outcome (tally : Tally) : Outcome :=
  if tally.failed = 0 then .ok () else .error (.partialFailure tally.failed tally.total)

variable {m : Type → Type} [Monad m]

/-- Counts and reports a unit that could not be encoded. -/
def drop (transport : Transport m) (kind : UnitKind) (cause : EncodeError) (tally : Tally) :
    m Tally := do
  transport.report (.dropped kind cause)
  return { tally with failed := tally.failed + 1 }

/-- Counts the units of a rejected payload. Only the first rejection of an
export is reported. -/
def reject (transport : Transport m) (units : Nat) (cause : TransportError) (tally : Tally) :
    m Tally := do
  if tally.rejections = 0 then
    transport.report (.rejected units cause)
  return { tally with failed := tally.failed + units, rejections := tally.rejections + 1 }

/-- Sends a payload of so many units and counts them if it is rejected. -/
def send (transport : Transport m) (units : Nat) (payload : ByteArray) (tally : Tally) :
    m Tally := do
  match ← transport.send payload with
  | .ok () => return tally
  | .error cause => tally.reject transport units cause

end Tally

end TelemetryExport
