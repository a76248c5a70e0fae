import TelemetryExport.Bytes
import TelemetryExport.Error

/-! # Variable-length integers

A 64-bit number as groups of seven bits, least significant group first; every
byte but the last has its top bit set. The writers here take a byte array and a
cursor and return the advanced cursor. The whole length is checked before the
first byte is stored, so a failing write changes nothing. A reader takes what
any writer of the format may have written, padded forms included.
-/

namespace TelemetryExport

/-- Succeeds when `count` bytes fit into `capacity` bytes from `offset` on. -/
def checkRoom (capacity offset count : Nat) : Except EncodeError Unit :=
  if offset + count ≤ capacity then .ok ()
  else .error (.bufferOverflow offset count capacity)

namespace Varint

/-- The most bytes a 64-bit number takes. -/
def maxLength : Nat := 10

/-- The width of the padded form. -/
def paddedLength : Nat := 3

/-- The largest number the padded form can carry, in three groups of seven bits. -/
def paddedMax : Nat := 128 * 128 * 128 - 1

/-- The number of bytes that `value` takes, from the position of its highest bit. -/
def length (value : UInt64) : Nat :=
  ((value ||| 1).toNat.log2 * 9 + 73) / 64

/-- The number of bytes that all of the values take together. -/
def totalLength (values : List UInt64) : Nat :=
  values.foldr (fun value total => length value + total) 0

/-- The seven-bit groups of `n`, least significant first, all but the last marked. -/
def groups (n : Nat) : List UInt8 :=
  if n < 128 then [UInt8.ofNat n]
  else UInt8.ofNat (n % 128 + 128) :: groups (n / 128)
termination_by n
decreasing_by omega

/-- The fewest groups that hold `value`. -/
def encode (value : UInt64) : ByteArray :=
  (groups value.toNat).toByteArray

/-- The three groups of `n`, of which the first two are marked even where a
shorter form would do. -/
def padded (n : Nat) : List UInt8 :=
  [UInt8.ofNat (n % 128 + 128), UInt8.ofNat (n / 128 % 128 + 128), UInt8.ofNat (n / 16384 % 128)]

/-- Stores `value` at the cursor. -/
def write (storage : ByteArray) (cursor : Nat) (value : UInt64) :
    Except EncodeError (ByteArray × Nat) := do
  checkRoom storage.size cursor (length value)
  let bytes := encode value
  return (Bytes.overwrite storage cursor bytes, cursor + bytes.size)

/-- Stores `value` at the cursor in exactly three bytes. -/
def writePadded (storage : ByteArray) (cursor value : Nat) :
    Except EncodeError (ByteArray × Nat) := do
  if paddedMax < value then
    throw (.lengthOverflow value)
  checkRoom storage.size cursor paddedLength
  return (Bytes.overwrite storage cursor (padded value).toByteArray, cursor + paddedLength)

/-- The number at the head of a byte list and the count of its bytes, if it ends
within `limit` bytes. -/
def decode : Nat → List UInt8 → Option (Nat × Nat)
  | 0, _ => none
  | _ + 1, [] => none
  | limit + 1, byte :: rest =>
      if byte.toNat < 128 then some (byte.toNat, 1)
      else (decode limit rest).map fun (high, count) =>
        (byte.toNat - 128 + 128 * high, count + 1)

/-- The number at the cursor, cut to 64 bits, and the cursor after it. There is
none when the bytes end early or the number is longer than ten bytes. -/
def read (storage : ByteArray) (cursor : Nat) : Option (UInt64 × Nat) :=
  (decode maxLength (storage.extract cursor (cursor + maxLength)).data.toList).map
    fun (value, count) => (UInt64.ofNat value, cursor + count)

/-- Signed numbers folded onto unsigned ones, small magnitudes first. -/
def zigzag (value : Int64) : UInt64 :=
  if 0 ≤ value then 2 * value.toUInt64 else 2 * (-(value + 1)).toUInt64 + 1

end Varint

end TelemetryExport
