/-! # Points in time

A time is a whole number of seconds from the Unix epoch and a fraction that is
always added, so that a time before the epoch has negative seconds and a
non-negative fraction. Records carry a time only inside the calendar range;
metrics carry any time, clamped to unsigned nanoseconds.
-/

namespace TelemetryExport

/-- A point in time: the epoch plus `seconds` plus `nanoseconds`. -/
structure Time where
  seconds : Int64
  nanoseconds : Fin 1000000000
  deriving DecidableEq, Repr

namespace Time

def epoch : Time := ⟨0, 0⟩

/-- The first and the last second of the calendar. This is an assumption about the calendar
library through which a record's time goes: it takes the times from the one to the other,
with any fraction, and no others. -/
def calendarSeconds : Int × Int := (-8334601228800, 8210266876799)

/-- Whether the time lies in the calendar, whose range a record's time must keep. -/
def inCalendar (time : Time) : Bool :=
  decide (calendarSeconds.1 ≤ time.seconds.toInt ∧ time.seconds.toInt ≤ calendarSeconds.2)

/-- Nanoseconds from the epoch to the time, without a bound. -/
def sinceEpoch (time : Time) : Int :=
  time.seconds.toInt * 1000000000 + time.nanoseconds.val

/-- Unix nanoseconds as metrics carry them: times before the epoch count as the
epoch, times past the last 64-bit value as that value. -/
def unixNanos (time : Time) : UInt64 :=
  UInt64.ofNat (min time.sinceEpoch.toNat (UInt64.size - 1))

end Time

end TelemetryExport
