import TelemetryExport.Proofs.Buffer.Writes

/-! # Reading back variable-length integers

The length that is computed from a number's highest bit is the number of its
groups of seven bits, a reader takes exactly the groups that were written,
whatever follows them, and so it does with the padded form.
-/

namespace TelemetryExport

namespace Varint

theorem groups_of_lt {n : Nat} (hn : n < 128) : groups n = [UInt8.ofNat n] := by
  rw [groups, if_pos hn]

theorem groups_of_le {n : Nat} (hn : 128 ≤ n) :
    groups n = UInt8.ofNat (n % 128 + 128) :: groups (n / 128) := by
  rw [groups, if_neg (Nat.not_lt_of_le hn)]

theorem length_groups_pos (n : Nat) : 0 < (groups n).length := by
  rw [groups]
  split <;> simp

/-- The low bit that keeps the highest bit of zero defined changes no other. -/
theorem log2_or_one {n : Nat} (hn : n ≠ 0) : (n ||| 1).log2 = n.log2 := by
  have hor : n ||| 1 ≠ 0 := by
    have hle : 1 ≤ n ||| 1 := Nat.right_le_or
    omega
  rw [Nat.log2_eq_iff hor]
  constructor
  · exact Nat.le_trans (Nat.log2_self_le hn) Nat.left_le_or
  · apply Nat.or_lt_two_pow Nat.lt_log2_self
    exact Nat.one_lt_two_pow (Nat.succ_ne_zero _)

theorem log2_div_128 {n : Nat} (hn : 128 ≤ n) : n.log2 = (n / 128).log2 + 7 := by
  have hquotient : n / 128 ≠ 0 := by omega
  rw [Nat.log2_eq_iff (by omega)]
  have hlow := Nat.log2_self_le hquotient
  have hhigh := Nat.lt_log2_self (n := n / 128)
  have hpow : 2 ^ ((n / 128).log2 + 7) = 2 ^ (n / 128).log2 * 128 := Nat.pow_add ..
  rw [Nat.pow_succ] at hhigh
  rw [Nat.pow_succ 2 ((n / 128).log2 + 7), hpow]
  omega

/-- A number has one group for each seven bits up to its highest. -/
theorem length_groups (n : Nat) : (groups n).length = (n ||| 1).log2 / 7 + 1 := by
  induction n using Nat.strongRecOn with
  | ind n ih =>
      by_cases hn : n < 128
      · rw [groups_of_lt hn, List.length_singleton]
        have hor : n ||| 1 < 2 ^ 7 := Nat.or_lt_two_pow (by omega) (by omega)
        have hne : n ||| 1 ≠ 0 := by
          have hle : 1 ≤ n ||| 1 := Nat.right_le_or
          omega
        have hlog := (Nat.log2_lt hne).mpr hor
        omega
      · have hle := Nat.le_of_not_lt hn
        rw [groups_of_le hle, List.length_cons, ih (n / 128) (by omega),
          log2_or_one (by omega), log2_or_one (by omega), log2_div_128 hle]
        omega

theorem log2_lt_64 (value : UInt64) : (value ||| 1).toNat.log2 < 64 := by
  have hvalue : (value ||| 1).toNat < 2 ^ 64 := (value ||| 1).toNat_lt
  have hne : (value ||| 1).toNat ≠ 0 := by
    rw [UInt64.toNat_or]
    have hle : 1 ≤ value.toNat ||| (1 : UInt64).toNat := Nat.right_le_or
    omega
  exact (Nat.log2_lt hne).mpr hvalue

theorem length_eq (value : UInt64) : length value = (groups value.toNat).length := by
  have hlog := log2_lt_64 value
  have hor : (value ||| 1).toNat = value.toNat ||| 1 := by
    rw [UInt64.toNat_or]
    rfl
  rw [length, length_groups, hor]
  rw [hor] at hlog
  omega

theorem length_groups_le (value : UInt64) : (groups value.toNat).length ≤ maxLength := by
  have hlog := log2_lt_64 value
  rw [← length_eq, length, maxLength]
  omega

/-- The reader takes a number's groups and nothing behind them. -/
theorem decode_groups (limit n : Nat) (rest : List UInt8) (hlimit : (groups n).length ≤ limit) :
    decode limit (groups n ++ rest) = some (n, (groups n).length) := by
  induction limit generalizing n with
  | zero =>
      have hpos := length_groups_pos n
      omega
  | succ limit ih =>
      by_cases hn : n < 128
      · have hbyte : (UInt8.ofNat n).toNat = n := by
          rw [UInt8.toNat_ofNat']
          omega
        rw [groups_of_lt hn, List.singleton_append, decode, hbyte, if_pos hn]
        rfl
      · have hle := Nat.le_of_not_lt hn
        have hbyte : (UInt8.ofNat (n % 128 + 128)).toNat = n % 128 + 128 := by
          rw [UInt8.toNat_ofNat']
          omega
        rw [groups_of_le hle, List.length_cons] at hlimit
        rw [groups_of_le hle, List.cons_append, decode, hbyte, if_neg (by omega),
          ih (n / 128) (by omega), List.length_cons, Option.map_some]
        simp only [Option.some.injEq, Prod.mk.injEq, and_true]
        omega

theorem decode_groups_of_uint64 (value : UInt64) (rest : List UInt8) :
    decode maxLength (groups value.toNat ++ rest) =
      some (value.toNat, (groups value.toNat).length) :=
  decode_groups _ _ _ (length_groups_le value)

theorem length_padded (n : Nat) : (padded n).length = paddedLength := rfl

/-- The reader takes the padded form like any other. -/
theorem decode_padded {n : Nat} (hn : n ≤ paddedMax) (rest : List UInt8) :
    decode maxLength (padded n ++ rest) = some (n, paddedLength) := by
  rw [paddedMax] at hn
  have hlow : (UInt8.ofNat (n % 128 + 128)).toNat = n % 128 + 128 := by
    rw [UInt8.toNat_ofNat']
    omega
  have hmiddle : (UInt8.ofNat (n / 128 % 128 + 128)).toNat = n / 128 % 128 + 128 := by
    rw [UInt8.toNat_ofNat']
    omega
  have hhigh : (UInt8.ofNat (n / 16384 % 128)).toNat = n / 16384 % 128 := by
    rw [UInt8.toNat_ofNat']
    omega
  simp only [padded, List.cons_append, maxLength, decode, hlow, hmiddle, hhigh]
  rw [if_neg (by omega), if_neg (by omega), if_pos (by omega)]
  simp only [Option.map_some, paddedLength]
  congr 2
  omega

end Varint

namespace Encode

theorem checked_writeVarint (value : UInt64) :
    Checked (writeVarint value) (Varint.groups value.toNat).length (fun _ => ())
      (·.append (Varint.groups value.toNat)) where
  ok := by
    intro buffer hroom
    rw [← Varint.length_eq] at hroom
    simp only [writeVarint, checkRoom_of_le hroom, Buffer.append, Varint.encode]
  error := by
    intro buffer hroom
    rw [← Varint.length_eq] at hroom ⊢
    simp only [writeVarint, checkRoom_of_lt hroom]

theorem writes_writeVarint (value : UInt64) :
    Writes (writeVarint value) (Varint.groups value.toNat) () :=
  (checked_writeVarint value).writes

end Encode

end TelemetryExport
