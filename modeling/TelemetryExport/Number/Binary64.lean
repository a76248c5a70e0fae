/-! # Binary floating point

Double-precision numbers as their bit patterns. A pattern travels unchanged from
a record to a payload, so the type keeps every pattern apart, also those of NaN.
-/

namespace TelemetryExport

/-- A double-precision number: one sign bit, eleven exponent bits, 52 fraction bits. -/
structure Binary64 where
  bits : UInt64
  deriving DecidableEq, Repr

namespace Binary64

def zero : Binary64 := ⟨0⟩

/-- Whether the sign bit is set. -/
def isNegative (x : Binary64) : Bool := decide (0x8000000000000000 ≤ x.bits.toNat)

/-- The eleven exponent bits. -/
def exponentBits (x : Binary64) : Nat := x.bits.toNat / 0x10000000000000 % 0x800

/-- The 52 fraction bits. -/
def fractionBits (x : Binary64) : Nat := x.bits.toNat % 0x10000000000000

/-- Zero of either sign. -/
def isZero (x : Binary64) : Bool := x.bits.toNat % 0x8000000000000000 == 0

def isNaN (x : Binary64) : Bool := x.exponentBits == 2047 && x.fractionBits != 0

def isInfinite (x : Binary64) : Bool := x.exponentBits == 2047 && x.fractionBits == 0

/-- Puts a pattern together from its three parts. -/
def ofParts (sign exponent fraction : Nat) : Binary64 :=
  ⟨UInt64.ofNat (sign * 0x8000000000000000 + exponent * 0x10000000000000 + fraction)⟩

/-- The double with the value of a single-precision pattern. A NaN keeps its
sign and payload and becomes quiet. -/
def ofBinary32 (bits : UInt32) : Binary64 :=
  let sign := bits.toNat / 0x80000000
  let exponent := bits.toNat / 0x800000 % 0x100
  let fraction := bits.toNat % 0x800000
  if exponent = 255 then
    if fraction = 0 then ofParts sign 2047 0
    else ofParts sign 2047 (0x8000000000000 + fraction % 0x400000 * 0x20000000)
  else if exponent = 0 then
    if fraction = 0 then ofParts sign 0 0
    else
      let high := fraction.log2
      ofParts sign (high + 874) (fraction <<< (52 - high) - 0x10000000000000)
  else ofParts sign (exponent + 896) (fraction * 0x20000000)

end Binary64

end TelemetryExport
