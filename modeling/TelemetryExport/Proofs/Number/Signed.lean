/-! # Signed integers by their bits

Integers of sixty-four bits are written as the unsigned number of their bits: the
value itself from zero on, and the value above the range for a negative one.
-/

namespace TelemetryExport

variable {value : Int64}

/-- An integer by its bits. -/
theorem toInt_eq_cond (value : Int64) :
    value.toInt = if 2 * value.toUInt64.toNat < 18446744073709551616 then
      (value.toUInt64.toNat : Int)
    else (value.toUInt64.toNat : Int) - 18446744073709551616 :=
  BitVec.toInt_eq_toNat_cond value.toBitVec

/-- The bits of a negative integer, as an unsigned one. -/
theorem toNat_toUInt64_of_neg (hvalue : value.toInt < 0) :
    (value.toUInt64.toNat : Int) = value.toInt + 18446744073709551616 := by
  have hbits := toInt_eq_cond value
  split at hbits
  · omega
  · omega

theorem toNat_toUInt64_of_nonneg (hvalue : 0 ≤ value.toInt) :
    (value.toUInt64.toNat : Int) = value.toInt := by
  have hbound := value.toUInt64.toNat_lt
  have hbits := toInt_eq_cond value
  split at hbits
  · exact hbits.symm
  · omega

/-- An unsigned integer in the range of the signed ones keeps its value among them. -/
theorem toInt_toInt64_of_lt {n : UInt64} (hn : n.toNat < 9223372036854775808) :
    n.toInt64.toInt = (n.toNat : Int) := by
  have hbits := toInt_eq_cond n.toInt64
  rw [UInt64.toUInt64_toInt64, if_pos (by omega)] at hbits
  exact hbits

/-- A byte keeps its value when it is taken for a signed integer. -/
theorem toInt_toInt64_of_byte (byte : UInt8) :
    byte.toUInt64.toInt64.toInt = (byte.toNat : Int) := by
  have hbound := byte.toNat_lt
  rw [toInt_toInt64_of_lt (by rw [UInt8.toNat_toUInt64]; omega), UInt8.toNat_toUInt64]

end TelemetryExport
