/-! # Byte strings

Integers as byte strings of a fixed width, in either byte order, and the
replacement of a stretch of a byte array by another of the same length.
-/

namespace TelemetryExport.Bytes

/-- The low `width` bytes of `n`, least significant first. -/
def digits : Nat → Nat → List UInt8
  | 0, _ => []
  | width + 1, n => UInt8.ofNat n :: digits width (n / 256)

/-- The number whose bytes, least significant first, are `bytes`. -/
def value : List UInt8 → Nat
  | [] => 0
  | byte :: rest => byte.toNat + 256 * value rest

/-- The number of values that `width` bytes can have. -/
def bound : Nat → Nat
  | 0 => 1
  | width + 1 => 256 * bound width

/-- `n` in `width` bytes, least significant byte first. -/
def littleEndian (width n : Nat) : ByteArray :=
  (digits width n).toByteArray

/-- `n` in `width` bytes, most significant byte first. -/
def bigEndian (width n : Nat) : ByteArray :=
  (digits width n).reverse.toByteArray

/-- `storage` with the bytes from `start` on replaced by `bytes`. -/
def overwrite (storage : ByteArray) (start : Nat) (bytes : ByteArray) : ByteArray :=
  bytes.copySlice 0 storage start bytes.size

theorem length_digits (width n : Nat) : (digits width n).length = width := by
  induction width generalizing n with
  | zero => rfl
  | succ width ih => simp [digits, ih]

/-- Reading the digits back gives the number, cut to the width. -/
theorem value_digits (width n : Nat) : value (digits width n) = n % bound width := by
  induction width generalizing n with
  | zero => simp [digits, value, bound, Nat.mod_one]
  | succ width ih =>
      rw [digits, value, ih, bound, Nat.mod_mul]
      simp

end TelemetryExport.Bytes
