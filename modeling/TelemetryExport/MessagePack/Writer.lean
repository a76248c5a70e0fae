import TelemetryExport.Attribute
import TelemetryExport.Buffer.Slot
import TelemetryExport.Time

/-! # MessagePack values

Appends scalars, times and the headers of containers. Texts, integers and
arrays take the smallest of their formats. A format byte and the number behind
it are two appends where the number has two bytes or more, so that a fault names
the first of the two that did not fit.
-/

namespace TelemetryExport.MessagePack

open Encode

def writeNil : Encode Unit := writeByte 0xC0

def writeBool (value : Bool) : Encode Unit :=
  writeByte (if value then 0xC3 else 0xC2)

/-- Appends the header of a text of `length` bytes. -/
def writeTextHeader (length : Nat) : Encode Unit := do
  if length < 32 then
    writeByte (UInt8.ofNat (0xA0 + length))
  else if length ≤ 0xFF then
    writeList [0xD9, UInt8.ofNat length]
  else if length ≤ 0xFFFF then
    writeByte 0xDA
    writeBigEndian 2 length
  else
    writeByte 0xDB
    writeBigEndian 4 length

/-- Appends a text, whose length counts bytes. -/
def writeText (text : String) : Encode Unit := do
  writeTextHeader text.utf8ByteSize
  Encode.writeText text

/-- Appends an unsigned integer in the fewest bytes. -/
def writeUInt (value : UInt64) : Encode Unit := do
  let n := value.toNat
  if n < 0x80 then
    writeByte (UInt8.ofNat n)
  else if n ≤ 0xFF then
    writeList [0xCC, UInt8.ofNat n]
  else if n ≤ 0xFFFF then
    writeByte 0xCD
    writeBigEndian 2 n
  else if n ≤ 0xFFFFFFFF then
    writeByte 0xCE
    writeBigEndian 4 n
  else
    writeByte 0xCF
    writeBigEndian 8 n

/-- Appends a signed integer in the fewest bytes. A negative one is written in
two's complement of its width; any other as an unsigned integer. -/
def writeInt (value : Int64) : Encode Unit := do
  let n := value.toInt
  let complement := value.toUInt64.toNat
  if 0 ≤ n then
    writeUInt value.toUInt64
  else if -32 ≤ n then
    writeByte (UInt8.ofNat complement)
  else if -128 ≤ n then
    writeList [0xD0, UInt8.ofNat complement]
  else if -32768 ≤ n then
    writeByte 0xD1
    writeBigEndian 2 complement
  else if -2147483648 ≤ n then
    writeByte 0xD2
    writeBigEndian 4 complement
  else
    writeByte 0xD3
    writeBigEndian 8 complement

/-- Appends a double by its bit pattern. -/
def writeDouble (value : Binary64) : Encode Unit := do
  writeByte 0xCB
  writeBigEndian 8 value.bits.toNat

/-- Appends a time as the 96-bit timestamp extension: nanoseconds, then seconds.
A time outside the calendar is refused before anything is written. -/
def writeTime (time : Time) : Encode Unit := do
  unless time.inCalendar do
    throw .timeOutOfRange
  writeList [0xC7, 12, 0xFF]
  writeBigEndian 4 time.nanoseconds.val
  writeBigEndian 8 time.seconds.toUInt64.toNat

/-- Appends the header of a map of fewer than 16 entries. -/
def writeSmallMapHeader (count : Nat) : Encode Unit :=
  writeByte (UInt8.ofNat (0x80 + count))

/-- Appends the header of an array of `count` elements. -/
def writeArrayHeader (count : Nat) : Encode Unit := do
  if count < 16 then
    writeByte (UInt8.ofNat (0x90 + count))
  else if count ≤ 0xFFFF then
    writeByte 0xDC
    writeBigEndian 2 count
  else
    writeByte 0xDD
    writeBigEndian 4 count

def writeScalar : Scalar → Encode Unit
  | .text value => writeText value
  | .bool value => writeBool value
  | .int value => writeInt value
  | .double value => writeDouble value
  | .null => writeNil

end TelemetryExport.MessagePack
