import Mathlib.Logic.Function.Defs
import TelemetryExport.Proofs.Number.Signed
import TelemetryExport.Varint

/-! # Folded integers

Folding puts an integer from zero on at twice its value and a negative one at the odd number
below twice its magnitude. No two integers meet, no number is left out, and integers of 32 bits
stay in 32 bits. The same numbers come from a shift and a spread sign.
-/

namespace TelemetryExport.Varint

variable {value : Int64}

theorem toNat_zigzag_of_nonneg (hvalue : 0 ≤ value.toInt) :
    ((zigzag value).toNat : Int) = 2 * value.toInt := by
  have hlt := value.toInt_lt
  have hle : (0 : Int64) ≤ value := Int64.le_iff_toInt_le.mpr hvalue
  have hbits := toNat_toUInt64_of_nonneg hvalue
  have htwo : (2 : UInt64).toNat = 2 := rfl
  rw [zigzag, if_pos hle, UInt64.toNat_mul, htwo]
  omega

theorem toNat_zigzag_of_neg (hvalue : value.toInt < 0) :
    ((zigzag value).toNat : Int) = -2 * value.toInt - 1 := by
  have hge := value.le_toInt
  have hnot : ¬(0 : Int64) ≤ value := fun hle =>
    Int.not_le.mpr hvalue (Int64.le_iff_toInt_le.mp hle)
  have hsum : (value + 1).toInt = value.toInt + 1 := by
    rw [Int64.toInt_add]
    exact Int.bmod_eq_of_le (by change _ ≤ value.toInt + 1; omega)
      (by change value.toInt + 1 < _; omega)
  have hfolded : (-(value + 1)).toInt = -(value.toInt + 1) := by
    rw [Int64.toInt_neg, hsum, Int.bmod_eq_of_le (by omega) (by omega)]
  have hnonneg : 0 ≤ (-(value + 1)).toInt := by omega
  have hbits := toNat_toUInt64_of_nonneg hnonneg
  have htwo : (2 : UInt64).toNat = 2 := rfl
  have hone : (1 : UInt64).toNat = 1 := rfl
  rw [zigzag, if_neg hnot, UInt64.toNat_add, UInt64.toNat_mul, htwo, hone]
  omega

theorem zigzag_injective : Function.Injective zigzag := by
  intro value other hfolded
  have hnat := congrArg UInt64.toNat hfolded
  apply Int64.toInt_inj.mp
  -- The parity of a folded integer tells its sign.
  rcases Int.lt_or_le value.toInt 0 with hneg | hnonneg
  · have hvalue := toNat_zigzag_of_neg hneg
    rcases Int.lt_or_le other.toInt 0 with hotherNeg | hotherNonneg
    · have hother := toNat_zigzag_of_neg hotherNeg
      omega
    · have hother := toNat_zigzag_of_nonneg hotherNonneg
      omega
  · have hvalue := toNat_zigzag_of_nonneg hnonneg
    rcases Int.lt_or_le other.toInt 0 with hotherNeg | hotherNonneg
    · have hother := toNat_zigzag_of_neg hotherNeg
      omega
    · have hother := toNat_zigzag_of_nonneg hotherNonneg
      omega

theorem zigzag_surjective : Function.Surjective zigzag := by
  intro folded
  have hfolded := folded.toNat_lt
  by_cases heven : folded.toNat % 2 = 0
  · let value := Int64.ofInt (folded.toNat / 2)
    have hvalue : value.toInt = folded.toNat / 2 :=
      Int64.toInt_ofInt_of_le (by omega) (by omega)
    have hzigzag := toNat_zigzag_of_nonneg (show 0 ≤ value.toInt by omega)
    exact ⟨value, UInt64.toNat_inj.mp (by omega)⟩
  · let value := Int64.ofInt (-(folded.toNat / 2) - 1)
    have hvalue : value.toInt = -(folded.toNat / 2) - 1 :=
      Int64.toInt_ofInt_of_le (by omega) (by omega)
    have hzigzag := toNat_zigzag_of_neg (show value.toInt < 0 by omega)
    exact ⟨value, UInt64.toNat_inj.mp (by omega)⟩

theorem toNat_zigzag_toInt64_lt (value : Int32) : (zigzag value.toInt64).toNat < 4294967296 := by
  have hge := value.le_toInt
  have hlt := value.toInt_lt
  have hwide : value.toInt64.toInt = value.toInt := value.toInt_toInt64
  rcases Int.lt_or_le value.toInt 0 with hneg | hnonneg
  · have hvalue := toNat_zigzag_of_neg (hwide ▸ hneg)
    omega
  · have hvalue := toNat_zigzag_of_nonneg (hwide ▸ hnonneg)
    omega

theorem toNat_shiftLeft_one (value : Int64) :
    (value <<< 1).toUInt64.toNat = 2 * value.toUInt64.toNat % 18446744073709551616 := by
  have hbits : (value <<< 1).toBitVec = value.toBitVec <<< 1 := Int64.toBitVec_shiftLeft value 1
  change (value <<< 1).toBitVec.toNat = 2 * value.toBitVec.toNat % _
  rw [hbits, BitVec.toNat_shiftLeft, Nat.shiftLeft_eq, Nat.mul_comm]

/-- The last shift to the right leaves the sign alone. -/
theorem toInt_shiftRight_last (value : Int64) :
    (value >>> 63).toInt = value.toInt / 9223372036854775808 := by
  have hbits : (value >>> 63).toBitVec = value.toBitVec.sshiftRight 63 :=
    Int64.toBitVec_shiftRight value 63
  change (value >>> 63).toBitVec.toInt = value.toBitVec.toInt / _
  rw [hbits, BitVec.toInt_sshiftRight, Int.shiftRight_eq_div_pow]
  rfl

/-- One shift wraps around and the other spreads the sign over all bits. -/
theorem zigzag_eq_xor (value : Int64) :
    zigzag value = ((value <<< 1) ^^^ (value >>> 63)).toUInt64 := by
  have hlow := value.le_toInt
  have hhigh := value.toInt_lt
  have hshifted := toNat_shiftLeft_one value
  have hsign := toInt_shiftRight_last value
  apply UInt64.toNat_inj.mp
  rcases Int.lt_or_le value.toInt 0 with hneg | hnonneg
  · have hfolded := toNat_zigzag_of_neg hneg
    have hbits := toNat_toUInt64_of_neg hneg
    have hones : value >>> 63 = -1 := Int64.toInt_inj.mp (hsign.trans (by
      change _ = (-1 : Int)
      omega))
    rw [hones, Int64.xor_neg_one, Int64.toUInt64_not, UInt64.toNat_not, UInt64.size]
    omega
  · have hfolded := toNat_zigzag_of_nonneg hnonneg
    have hbits := toNat_toUInt64_of_nonneg hnonneg
    have hzeros : value >>> 63 = 0 := Int64.toInt_inj.mp (hsign.trans (by
      change _ = (0 : Int)
      omega))
    rw [hzeros, Int64.xor_zero]
    omega

end TelemetryExport.Varint
