import TelemetryExport.Varint

/-! # Payload buffers

A buffer has a fixed storage and a cursor that moves forward as bytes are
appended. What is encoded so far lies before the cursor; whatever an earlier use
left behind the cursor stays there until it is overwritten. An append that does
not fit fails and changes neither the storage nor the cursor.

`Encode` is the type of computations that append to a buffer. Where one fails,
the appends before the fault remain.
-/

namespace TelemetryExport

/-- The most bytes one payload may have. -/
def maxPayloadSize : Nat := 65360

/-- A storage of fixed size and the position of the next append. -/
structure Buffer where
  storage : ByteArray
  cursor : Nat

/-- A cursor position to which a buffer may be taken back. -/
structure Checkpoint where
  position : Nat
  deriving DecidableEq, Repr

namespace Buffer

/-- An empty buffer of the requested capacity, or of the largest payload's size
if more is requested. Its storage holds zeros. -/
def withCapacity (requested : Nat) : Buffer where
  storage := ⟨Array.replicate (min requested maxPayloadSize) 0⟩
  cursor := 0

/-- An empty buffer for the largest payload. -/
def empty : Buffer := withCapacity maxPayloadSize

def capacity (buffer : Buffer) : Nat := buffer.storage.size

def remaining (buffer : Buffer) : Nat := buffer.capacity - buffer.cursor

/-- The bytes encoded so far. -/
def written (buffer : Buffer) : ByteArray := buffer.storage.extract 0 buffer.cursor

/-- Starts over at the beginning of the same storage. -/
def reset (buffer : Buffer) : Buffer := { buffer with cursor := 0 }

def checkpoint (buffer : Buffer) : Checkpoint := ⟨buffer.cursor⟩

/-- Takes the cursor back. The bytes after it stay in the storage. -/
def rewind (buffer : Buffer) (checkpoint : Checkpoint) : Buffer :=
  { buffer with cursor := checkpoint.position }

/-- Stores bytes at the cursor and moves it past them. -/
def place (buffer : Buffer) (bytes : ByteArray) : Buffer where
  storage := Bytes.overwrite buffer.storage buffer.cursor bytes
  cursor := buffer.cursor + bytes.size

/-- Moves the cursor on without storing anything. -/
def skip (buffer : Buffer) (count : Nat) : Buffer :=
  { buffer with cursor := buffer.cursor + count }

/-- Replaces bytes that lie before the cursor. -/
def patch (buffer : Buffer) (start : Nat) (bytes : ByteArray) : Buffer :=
  { buffer with storage := Bytes.overwrite buffer.storage start bytes }

/-- The buffer itself if it has the capacity asked for, else an empty one that has. -/
def sizedTo (buffer : Buffer) (capacity : Nat) : Buffer :=
  if buffer.capacity = capacity then buffer else withCapacity capacity

/-- The capacity and the position in one line. -/
def summary (buffer : Buffer) : String :=
  s!"EncodeBuffer \x7b capacity: {buffer.capacity}, position: {buffer.cursor} \x7d"

end Buffer

/-- A computation that appends to a buffer. The buffer it leaves is known also
where it fails. -/
abbrev Encode := EStateM EncodeError Buffer

namespace Encode

/-- Appends bytes, all or none. -/
def write (bytes : ByteArray) : Encode Unit := fun buffer =>
  match checkRoom buffer.capacity buffer.cursor bytes.size with
  | .ok () => .ok () (buffer.place bytes)
  | .error fault => .error fault buffer

/-- Appends a list of bytes, all or none. -/
def writeList (bytes : List UInt8) : Encode Unit :=
  write bytes.toByteArray

/-- Appends one byte. -/
def writeByte (byte : UInt8) : Encode Unit :=
  writeList [byte]

/-- Appends the bytes of a text, without a length. -/
def writeText (text : String) : Encode Unit :=
  write text.toUTF8

/-- Appends a number in `width` bytes, most significant first. -/
def writeBigEndian (width n : Nat) : Encode Unit :=
  write (Bytes.bigEndian width n)

/-- Appends a number in `width` bytes, least significant first. -/
def writeLittleEndian (width n : Nat) : Encode Unit :=
  write (Bytes.littleEndian width n)

/-- Appends a number as a varint, all of it or nothing. -/
def writeVarint (value : UInt64) : Encode Unit := fun buffer =>
  match checkRoom buffer.capacity buffer.cursor (Varint.length value) with
  | .ok () => .ok () (buffer.place (Varint.encode value))
  | .error fault => .error fault buffer

/-- Moves the cursor over bytes to be filled in later, and returns where they start. -/
def skip (count : Nat) : Encode Nat := fun buffer =>
  match checkRoom buffer.capacity buffer.cursor count with
  | .ok () => .ok buffer.cursor (buffer.skip count)
  | .error fault => .error fault buffer

/-- The bytes that a computation appends to an empty buffer for the largest
payload, and its result. -/
def run {α : Type} (action : Encode α) : Except EncodeError (α × ByteArray) :=
  match action Buffer.empty with
  | .ok result buffer => .ok (result, buffer.written)
  | .error fault _ => .error fault

end Encode

end TelemetryExport
