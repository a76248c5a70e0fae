import TelemetryExport.Buffer.Slot
import TelemetryExport.Number.Binary64

/-! # Protocol buffer fields

A field is a tag, which combines the field's number with the wire type of its
value, and the value. The tag and the value are appended one after the other, so
a fault names the first of them that did not fit. A message inside a message goes
through a reserved header instead; see `Encode.message`.
-/

namespace TelemetryExport

inductive WireType where
  | varint
  | fixed64
  | lengthDelimited
  deriving DecidableEq, Repr

def WireType.code : WireType → Nat
  | varint => 0
  | fixed64 => 1
  | lengthDelimited => 2

namespace Field

/-- The tag of a field, in 32 bits. -/
def tag (field : Nat) (wireType : WireType) : UInt64 :=
  UInt64.ofNat (field * 8 % UInt32.size + wireType.code)

def writeTag (field : Nat) (wireType : WireType) : Encode Unit :=
  Encode.writeVarint (tag field wireType)

def writeVarint (field : Nat) (value : UInt64) : Encode Unit := do
  writeTag field .varint
  Encode.writeVarint value

/-- A signed 64-bit integer, in two's complement and so in ten bytes when negative. -/
def writeInt64 (field : Nat) (value : Int64) : Encode Unit :=
  writeVarint field value.toUInt64

/-- A signed 32-bit integer, folded so that small magnitudes are short. -/
def writeSignedInt32 (field : Nat) (value : Int32) : Encode Unit :=
  writeVarint field (Varint.zigzag value.toInt64)

def writeBool (field : Nat) (value : Bool) : Encode Unit :=
  writeVarint field (if value then 1 else 0)

def writeFixed64 (field : Nat) (value : UInt64) : Encode Unit := do
  writeTag field .fixed64
  Encode.writeLittleEndian 8 value.toNat

/-- A signed 64-bit integer in eight bytes. -/
def writeSignedFixed64 (field : Nat) (value : Int64) : Encode Unit :=
  writeFixed64 field value.toUInt64

def writeDouble (field : Nat) (value : Binary64) : Encode Unit :=
  writeFixed64 field value.bits

def writeBytes (field : Nat) (value : ByteArray) : Encode Unit := do
  writeTag field .lengthDelimited
  Encode.writeVarint (UInt64.ofNat value.size)
  Encode.write value

def writeText (field : Nat) (value : String) : Encode Unit :=
  writeBytes field value.toUTF8

/-- Numbers of eight bytes each in one field. No numbers, no field. -/
def writePackedFixed64 (field : Nat) (values : List UInt64) : Encode Unit := do
  unless values.isEmpty do
    writeTag field .lengthDelimited
    Encode.writeVarint (UInt64.ofNat (values.length * 8))
    values.forM fun value => Encode.writeLittleEndian 8 value.toNat

def writePackedDouble (field : Nat) (values : List Binary64) : Encode Unit :=
  writePackedFixed64 field (values.map (·.bits))

/-- Varints in one field. No numbers, no field. -/
def writePackedVarint (field : Nat) (values : List UInt64) : Encode Unit := do
  unless values.isEmpty do
    writeTag field .lengthDelimited
    Encode.writeVarint (UInt64.ofNat (Varint.totalLength values))
    values.forM Encode.writeVarint

end Field

end TelemetryExport
