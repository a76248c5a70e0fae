import TelemetryExport.Buffer.Basic

/-! # Reserved headers

A header that depends on what follows it is reserved at its greatest width and
filled in later, so that nothing behind it has to move. It may be filled in any
number of times, always at its whole width.

Headers of nested messages hold a tag byte and a length of three bytes. Headers
of maps and arrays hold a marker and a count of two bytes.
-/

namespace TelemetryExport

/-- A reserved header: where it starts, and where its content starts. -/
structure Slot where
  headerStart : Nat
  valueStart : Nat
  deriving DecidableEq, Repr, Inhabited

namespace Slot

/-- A tag byte and a padded length. -/
def messageWidth : Nat := 1 + Varint.paddedLength

/-- A marker and a 16-bit count. -/
def countedWidth : Nat := 3

/-- The bytes from the content's start to the cursor. -/
def contentLength (slot : Slot) (buffer : Buffer) : Nat :=
  buffer.cursor - slot.valueStart

/-- The header of a nested message: the tag of a length-delimited field and the length. -/
def messageHeader (field length : Nat) : List UInt8 :=
  UInt8.ofNat (field * 8 + 2) :: Varint.padded length

/-- The header of a map or an array: its marker and the count. -/
def countedHeader (marker : UInt8) (count : Nat) : List UInt8 :=
  [marker, UInt8.ofNat (count / 256), UInt8.ofNat count]

def map16 : UInt8 := 0xDE

def array16 : UInt8 := 0xDC

end Slot

namespace Encode

/-- Reserves a header of `width` bytes at the cursor. -/
def reserve (width : Nat) : Encode Slot := do
  let start ← skip width
  return ⟨start, start + width⟩

/-- Reserves the header of a nested message. -/
def reserveMessage : Encode Slot := reserve Slot.messageWidth

/-- Reserves the header of a map or an array. -/
def reserveCounted : Encode Slot := reserve Slot.countedWidth

/-- Fills in the header of the message that is field `field` of its parent, with
the content's length so far. -/
def patchMessage (slot : Slot) (field : Nat) : Encode Unit := fun buffer =>
  let length := slot.contentLength buffer
  if Varint.paddedMax < length then .error (.lengthOverflow length) buffer
  else .ok () (buffer.patch slot.headerStart (Slot.messageHeader field length).toByteArray)

/-- Fills in the marker and the count of a map or an array. -/
def patchCounted (slot : Slot) (marker : UInt8) (count : Nat) : Encode Unit := fun buffer =>
  if 65535 < count then .error (.countOverflow count) buffer
  else .ok () (buffer.patch slot.headerStart (Slot.countedHeader marker count).toByteArray)

/-- Fills in the header of a map of `count` entries. -/
def patchMap (slot : Slot) (count : Nat) : Encode Unit :=
  patchCounted slot Slot.map16 count

/-- Fills in the header of an array of `count` elements. -/
def patchArray (slot : Slot) (count : Nat) : Encode Unit :=
  patchCounted slot Slot.array16 count

/-- Writes a message as field `field`: its header, its content, and the header again. -/
def message (field : Nat) (content : Encode Unit) : Encode Unit := do
  let slot ← reserveMessage
  content
  patchMessage slot field

end Encode

end TelemetryExport
