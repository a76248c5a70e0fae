import Mathlib.Order.Bounds.Defs
import TelemetryExport.Attribute
import TelemetryExport.Proofs.MessagePack.Formats
import TelemetryExport.Proofs.Metric.Decoding
import TelemetryExport.Proofs.Text.Ascii

/-! # Integers

The reader knows ten formats of an integer, and the writers choose the shortest of those that
hold it. Integers of every type arrive as themselves, up to the greatest signed one, and as
their decimal digits beyond it.
-/

namespace TelemetryExport.MessagePack

open Encode Value

/-! ## What is not read as an integer -/

def Value.isInt : Value → Bool
  | .int _ => true
  | _ => false

/-- Nothing is read, or something other than an integer. -/
def NeverInt (outcome : Option (Value × List UInt8)) : Prop :=
  ∀ n rest, outcome ≠ some (.int n, rest)

namespace NeverInt

theorem none : NeverInt none := by
  intro _ _ hread
  cases hread

theorem some {value : Value} {rest : List UInt8} (hvalue : value.isInt = false) :
    NeverInt (some (value, rest)) := by
  intro _ _ hread
  cases hread
  cases hvalue

theorem bind {α : Type} {read : Option α} {next : α → Option (Value × List UInt8)}
    (hnext : ∀ found, NeverInt (next found)) : NeverInt (read.bind next) := by
  intro n rest hread
  obtain ⟨found, -, hfound⟩ := Option.bind_eq_some_iff.mp hread
  exact hnext found n rest hfound

theorem map {α : Type} {read : Option α} {next : α → Value × List UInt8}
    (hnext : ∀ found, NeverInt (.some (next found))) : NeverInt (read.map next) := by
  rw [Option.map_eq_bind]
  exact bind hnext

theorem ite {condition : Prop} [Decidable condition] {first second : Option (Value × List UInt8)}
    (hfirst : condition → NeverInt first) (hsecond : ¬condition → NeverInt second) :
    NeverInt (if condition then first else second) := by
  by_cases hcondition : condition
  · rw [if_pos hcondition]
    exact hfirst hcondition
  · rw [if_neg hcondition]
    exact hsecond hcondition

theorem text? {count : Nat} {bytes : List UInt8} : NeverInt (text? count bytes) :=
  map fun _ => some rfl

theorem extension? {count : Nat} {bytes : List UInt8} : NeverInt (extension? count bytes) := by
  cases bytes with
  | nil => exact none
  | cons kind bytes => exact map fun _ => some rfl

/-- The formats that are not those of integers, in the order in which the reader asks. -/
theorem readWith {fuel : Nat} {format : UInt8} {bytes : List UInt8}
    (hformat : 0x80 ≤ format.toNat ∧ format.toNat < 0xCC ∨
      0xD3 < format.toNat ∧ format.toNat < 0xE0) :
    NeverInt (readWith (fuel + 1) (format :: bytes)) := by
  rw [Value.readWith]
  simp only [Option.bind_eq_bind, Option.pure_def]
  -- Maps, arrays and texts whose count is in the format byte.
  refine ite (by omega) fun _ => ?_
  refine ite (fun _ => bind fun _ => some rfl) fun _ => ?_
  refine ite (fun _ => bind fun _ => some rfl) fun _ => ?_
  refine ite (fun _ => text?) fun _ => ?_
  -- Nothing and the truth values.
  refine ite (fun _ => some rfl) fun _ => ?_
  refine ite (fun _ => some rfl) fun _ => ?_
  refine ite (fun _ => some rfl) fun _ => ?_
  -- Binary data, extensions and the two kinds of floating-point numbers.
  refine ite (fun _ => bind fun _ => map fun _ => some rfl) fun _ => ?_
  refine ite (fun _ => bind fun _ => extension?) fun _ => ?_
  refine ite (fun _ => bind fun _ => some rfl) fun _ => ?_
  refine ite (fun _ => bind fun _ => some rfl) fun _ => ?_
  refine ite (by omega) fun _ => ?_
  refine ite (by omega) fun _ => ?_
  -- Extensions of a fixed length, then texts, arrays and maps with a count of their own.
  refine ite (fun _ => extension?) fun _ => ?_
  refine ite (fun _ => bind fun _ => text?) fun _ => ?_
  refine ite (fun _ => bind fun _ => bind fun _ => some rfl) fun _ => ?_
  refine ite (fun _ => bind fun _ => bind fun _ => some rfl) fun _ => ?_
  exact ite (by omega) fun _ => none

end NeverInt

/-! ## The formats of an integer -/

/-- The integer has a format that takes so many bytes. -/
inductive HasFormat (n : Int) : Nat → Prop
  /-- The format byte holds the integer. -/
  | short (hlow : -32 ≤ n) (hhigh : n < 128) : HasFormat n 1
  | unsigned {width : Nat} (hwidth : width = 1 ∨ width = 2 ∨ width = 4 ∨ width = 8)
      (hlow : 0 ≤ n) (hhigh : n < Bytes.bound width) : HasFormat n (1 + width)
  /-- Half of the numbers of a width are negative. -/
  | signed {width : Nat} (hwidth : width = 1 ∨ width = 2 ∨ width = 4 ∨ width = 8)
      (hlow : -(Bytes.bound width : Int) ≤ 2 * n) (hhigh : 2 * n < Bytes.bound width) :
      HasFormat n (1 + width)

theorem width_cases {exponent : Nat} (hexponent : exponent < 4) : 1 <<< exponent = 1 ∨
    1 <<< exponent = 2 ∨ 1 <<< exponent = 4 ∨ 1 <<< exponent = 8 := by
  match exponent, hexponent with
  | 0, _ => exact .inl rfl
  | 1, _ => exact .inr (.inl rfl)
  | 2, _ => exact .inr (.inr (.inl rfl))
  | 3, _ => exact .inr (.inr (.inr rfl))

theorem value_lt (bytes : List UInt8) : Bytes.value bytes < Bytes.bound bytes.length := by
  induction bytes with
  | nil => exact Nat.zero_lt_one
  | cons byte bytes ih =>
      have hbyte := byte.toNat_lt
      rw [Bytes.value, List.length_cons, Bytes.bound]
      omega

theorem signed_range {width value : Nat} (hwidth : 0 < width) (hvalue : value < Bytes.bound width) :
    -(Bytes.bound width : Int) ≤ 2 * signed width value ∧
      2 * signed width value < Bytes.bound width := by
  obtain ⟨width, rfl⟩ : ∃ less, width = less + 1 := ⟨width - 1, by omega⟩
  rw [Bytes.bound] at hvalue
  rw [signed, Bytes.bound]
  split <;> omega

section

variable {fuel : Nat} {bytes rest : List UInt8} {n : Int}

theorem of_unsigned? {width value : Nat} (hread : unsigned? width bytes = some (value, rest)) :
    value < Bytes.bound width ∧ bytes.length = width + rest.length := by
  rw [unsigned?, split?] at hread
  by_cases hlength : (bytes.take width).length = width
  · rw [if_pos hlength] at hread
    cases hread
    constructor
    · have hlt := value_lt (bytes.take width).reverse
      rw [List.length_reverse, hlength] at hlt
      exact hlt
    · rw [List.length_take] at hlength
      rw [List.length_drop]
      omega
  · rw [if_neg hlength] at hread
    cases hread

/-- The number of a width behind a format byte, as the integer that it stands for. -/
theorem of_int_unsigned? {width : Nat} {meaning : Nat → Int}
    (hread : ((unsigned? width bytes).bind fun (value, rest) =>
      some (Value.int (meaning value), rest)) = some (Value.int n, rest)) :
    ∃ value < Bytes.bound width, meaning value = n ∧ bytes.length = width + rest.length := by
  obtain ⟨⟨value, left⟩, hvalue, hint⟩ := Option.bind_eq_some_iff.mp hread
  cases hint
  obtain ⟨hlt, hlength⟩ := of_unsigned? hvalue
  exact ⟨value, hlt, rfl, hlength⟩

/-- What is read as an integer takes as many bytes as one of the integer's formats. -/
theorem hasFormat_of_readWith (hread : readWith fuel bytes = some (.int n, rest)) :
    ∃ length, HasFormat n length ∧ bytes.length = length + rest.length := by
  cases fuel with
  | zero => cases hread
  | succ fuel =>
      cases bytes with
      | nil => cases hread
      | cons format bytes =>
          obtain ⟨code, hcode, rfl⟩ : ∃ code < 256, format = UInt8.ofNat code :=
            ⟨format.toNat, format.toNat_lt, UInt8.ofNat_toNat.symm⟩
          have hformat : (UInt8.ofNat code).toNat = code := UInt8.toNat_ofNat_of_lt' hcode
          rw [List.length_cons, Nat.add_comm]
          -- Every format byte that is left in the end stands before something else.
          by_cases hshort : code < 0x80
          · rw [readWith_shortInt fuel bytes hshort] at hread
            cases hread
            exact ⟨1, .short (by omega) (by omega), rfl⟩
          by_cases hnegative : 0xE0 ≤ code
          · rw [readWith_shortNegative fuel bytes hnegative hcode] at hread
            cases hread
            exact ⟨1, .short (by omega) (by omega), rfl⟩
          by_cases hunsigned : 0xCC ≤ code ∧ code < 0xD0
          · obtain ⟨exponent, rfl⟩ := Nat.exists_eq_add_of_le hunsigned.1
            have hexponent : exponent < 4 := by omega
            rw [readWith_unsigned fuel bytes hexponent] at hread
            obtain ⟨value, hlt, rfl, hlength⟩ := of_int_unsigned? hread
            exact ⟨_, .unsigned (width_cases hexponent) (Int.natCast_nonneg _)
              (Int.ofNat_lt.mpr hlt), by omega⟩
          by_cases hsigned : 0xD0 ≤ code ∧ code < 0xD4
          · obtain ⟨exponent, rfl⟩ := Nat.exists_eq_add_of_le hsigned.1
            have hexponent : exponent < 4 := by omega
            rw [readWith_signed fuel bytes hexponent] at hread
            obtain ⟨value, hlt, rfl, hlength⟩ := of_int_unsigned? hread
            have hwidth := width_cases hexponent
            have hrange := signed_range (by omega) hlt
            exact ⟨_, .signed hwidth hrange.1 hrange.2, by omega⟩
          · exact absurd hread (NeverInt.readWith (by omega) n rest)

end

/-! ## The shortest format -/

/-- A format of so many bytes reaches as far as the signed and the unsigned one together. -/
theorem HasFormat.length_cases {n : Int} {length : Nat} (hformat : HasFormat n length) :
    (length = 1 ∧ -32 ≤ n ∧ n < 128) ∨ (length = 2 ∧ -128 ≤ n ∧ n < 256) ∨
      (length = 3 ∧ -32768 ≤ n ∧ n < 65536) ∨
      (length = 5 ∧ -2147483648 ≤ n ∧ n < 4294967296) ∨ length = 9 := by
  have hbounds := bound_widths
  cases hformat with
  | short hlow hhigh => omega
  | unsigned hwidth hlow hhigh =>
      rcases hwidth with rfl | rfl | rfl | rfl
      all_goals omega
  | signed hwidth hlow hhigh =>
      rcases hwidth with rfl | rfl | rfl | rfl
      all_goals omega

theorem length_formatted (format : UInt8) (width n : Nat) :
    (format :: (Bytes.digits width n).reverse).length = width + 1 := by
  rw [List.length_cons, List.length_reverse, Bytes.length_digits]

theorem length_uintBytes_le {n length : Nat} (hformat : HasFormat n length) :
    (uintBytes n).length ≤ length := by
  have hcases := hformat.length_cases
  simp only [uintBytes, unsignedBytes]
  by_cases htiny : n < 0x80
  · rw [if_pos htiny, List.length_singleton]
    omega
  rw [if_neg htiny]
  by_cases hone : n ≤ 0xFF
  · rw [if_pos hone, length_formatted, Nat.one_shiftLeft]
    omega
  rw [if_neg hone]
  by_cases htwo : n ≤ 0xFFFF
  · rw [if_pos htwo, length_formatted, Nat.one_shiftLeft]
    omega
  rw [if_neg htwo]
  by_cases hfour : n ≤ 0xFFFFFFFF
  · rw [if_pos hfour, length_formatted, Nat.one_shiftLeft]
    omega
  · rw [if_neg hfour, length_formatted, Nat.one_shiftLeft]
    omega

theorem length_intBytes_le {value : Int64} {length : Nat}
    (hformat : HasFormat value.toInt length) : (intBytes value).length ≤ length := by
  simp only [intBytes, signedBytes]
  by_cases hnonneg : 0 ≤ value.toInt
  · rw [← toNat_toUInt64_of_nonneg hnonneg] at hformat
    rw [if_pos hnonneg]
    exact length_uintBytes_le hformat
  have hcases := hformat.length_cases
  rw [if_neg hnonneg]
  by_cases htiny : -32 ≤ value.toInt
  · rw [if_pos htiny, List.length_singleton]
    omega
  rw [if_neg htiny]
  by_cases hone : -128 ≤ value.toInt
  · rw [if_pos hone, length_formatted, Nat.one_shiftLeft]
    omega
  rw [if_neg hone]
  by_cases htwo : -32768 ≤ value.toInt
  · rw [if_pos htwo, length_formatted, Nat.one_shiftLeft]
    omega
  rw [if_neg htwo]
  by_cases hfour : -2147483648 ≤ value.toInt
  · rw [if_pos hfour, length_formatted, Nat.one_shiftLeft]
    omega
  · rw [if_neg hfour, length_formatted, Nat.one_shiftLeft]
    omega

/-- The bytes are those of the integer, whatever follows them, and no bytes that are read as
this integer are fewer. -/
structure Shortest (bytes : List UInt8) (n : Int) : Prop where
  reads : ∀ rest, Value.read (bytes ++ rest) = some (.int n, rest)
  isLeast : IsLeast {length | HasFormat n length} bytes.length
  length_le : ∀ other rest, Value.read other = some (.int n, rest) →
    bytes.length + rest.length ≤ other.length

theorem Encodes.shortest {bytes : List UInt8} {n : Int} (hencodes : Encodes bytes (.int n))
    (hwidest : HasFormat n 9) (hleast : ∀ {length}, HasFormat n length → bytes.length ≤ length) :
    Shortest bytes n := by
  have hfit : bytes.length ≤ maxPayloadSize := Nat.le_trans (hleast hwidest) (by decide)
  obtain ⟨length, hformat, hlength⟩ := hasFormat_of_readWith (hencodes.read hfit)
  refine ⟨hencodes.read_append hfit, ⟨?_, fun _ hother => hleast hother⟩, ?_⟩
  · rw [List.length_nil, Nat.add_zero] at hlength
    rw [hlength]
    exact hformat
  · intro other rest hread
    obtain ⟨length, hother, hlength⟩ := hasFormat_of_readWith hread
    have hle := hleast hother
    omega

theorem shortest_int (value : Int64) : Shortest (intBytes value) value.toInt := by
  have hlow : -9223372036854775808 ≤ value.toInt := value.le_toInt
  have hhigh : value.toInt < 9223372036854775808 := value.toInt_lt
  have hbounds := bound_widths
  have hwidth : 8 = 1 ∨ 8 = 2 ∨ 8 = 4 ∨ 8 = 8 := by decide
  exact (encodes_int value).shortest (.signed hwidth (by omega) (by omega)) length_intBytes_le

theorem shortest_uint (value : UInt64) : Shortest (uintBytes value.toNat) value.toNat := by
  have hhigh : value.toNat < Bytes.bound 8 := value.toNat_lt
  have hwidth : 8 = 1 ∨ 8 = 2 ∨ 8 = 4 ∨ 8 = 8 := by decide
  exact (encodes_uint value.toNat_lt).shortest
    (.unsigned hwidth (Int.natCast_nonneg _) (Int.ofNat_lt.mpr hhigh)) length_uintBytes_le

/-! ## Integers of every type -/

/-- The value of an attribute carries the integer: as itself, or as its decimal digits where
no signed integer is as great. -/
structure CarriesInt (scalar : Scalar) (n : Int) : Prop where
  as_int : n ≤ 9223372036854775807 → ∃ bytes, Writes (writeScalar scalar) bytes () ∧
    ∀ rest, Value.read (bytes ++ rest) = some (.int n, rest)
  as_digits : 9223372036854775807 < n → ∃ bytes text, Writes (writeScalar scalar) bytes () ∧
    Text.IsDecimal text n.toNat ∧ ∀ rest, Value.read (bytes ++ rest) = some (.ofText text, rest)

theorem carriesInt_of_int64 {value : Int64} {n : Int} (hvalue : value.toInt = n) :
    CarriesInt (.int value) n := by
  subst hvalue
  refine ⟨fun _ => ⟨_, writes_int value, (shortest_int value).reads⟩, fun hbeyond => ?_⟩
  exact absurd value.toInt_lt (Int.not_lt.mpr hbeyond)

/-- The digits of a number of 64 bits are fewer than those of a text that has a long header. -/
theorem length_textBytes_le {text : String} {n : Nat} (hdecimal : Text.IsDecimal text n)
    (hn : n < UInt64.size) : (textBytes text).length ≤ 21 := by
  have hdigits : text.length ≤ 20 :=
    hdecimal.length_le 20 (by decide) (Nat.lt_trans hn (by decide))
  have hsize : text.toUTF8.data.toList.length = text.utf8ByteSize := rfl
  have hbytes := hdecimal.utf8ByteSize_eq
  rw [textBytes, textHeader, if_pos (by omega), List.length_append, List.length_singleton, hsize]
  omega

theorem carriesInt_of_uint64 (n : UInt64) : CarriesInt (toScalar n) n.toNat := by
  simp only [toScalar]
  by_cases hsigned : n.toNat < 0x8000000000000000
  · rw [if_pos hsigned]
    exact carriesInt_of_int64 (toInt_toInt64_of_lt hsigned)
  · rw [if_neg hsigned]
    have hdecimal := Text.isDecimal_toString n.toNat
    have hlength := length_textBytes_le hdecimal n.toNat_lt
    refine ⟨fun hwithin => by omega, fun _ => ⟨_, _, writes_text _, hdecimal, ?_⟩⟩
    exact (encodes_text _).read_append (Nat.le_trans hlength (by decide))

/-- An unsigned integer of fewer bits is a signed one of 64. -/
theorem carriesInt_of_narrow {wide : UInt64} {n : Nat} (hwide : wide.toNat = n)
    (hn : n < 9223372036854775808) : CarriesInt (.int wide.toInt64) n := by
  subst hwide
  exact carriesInt_of_int64 (toInt_toInt64_of_lt hn)

/-- Every integer of the type is carried. -/
def CarriesEach {α : Type} [ToScalar α] (toInt : α → Int) : Prop :=
  ∀ n : α, CarriesInt (toScalar n) (toInt n)

/-- All that is promised of integers in both formats. -/
structure ExactIntegers : Prop where
  int8 : CarriesEach Int8.toInt
  int16 : CarriesEach Int16.toInt
  int32 : CarriesEach Int32.toInt
  int64 : CarriesEach Int64.toInt
  isize : CarriesEach ISize.toInt
  uint8 : CarriesEach fun n : UInt8 => n.toNat
  uint16 : CarriesEach fun n : UInt16 => n.toNat
  uint32 : CarriesEach fun n : UInt32 => n.toNat
  uint64 : CarriesEach fun n : UInt64 => n.toNat
  usize : CarriesEach fun n : USize => n.toNat
  shortest_int : ∀ value : Int64, ∃ bytes, Writes (writeInt value) bytes () ∧
    Shortest bytes value.toInt
  shortest_uint : ∀ value : UInt64, ∃ bytes, Writes (writeUInt value) bytes () ∧
    Shortest bytes value.toNat
  zigzag_eq_xor : ∀ value, Varint.zigzag value = ((value <<< 1) ^^^ (value >>> 63)).toUInt64
  zigzag_bijective : Function.Bijective Varint.zigzag
  zigzag_lt : ∀ value : Int32, (Varint.zigzag value.toInt64).toNat < 2 ^ 32
  /-- A reader of folded integers of 32 bits undoes the folding. -/
  unfolds : ∀ value : Int32,
    (WireValue.varint (Varint.zigzag value.toInt64)).foldedInt32? = some value

theorem exactIntegers : ExactIntegers where
  int8 n := carriesInt_of_int64 n.toInt_toInt64
  int16 n := carriesInt_of_int64 n.toInt_toInt64
  int32 n := carriesInt_of_int64 n.toInt_toInt64
  int64 _ := carriesInt_of_int64 rfl
  isize n := carriesInt_of_int64 n.toInt_toInt64
  uint8 n := carriesInt_of_narrow n.toNat_toUInt64 (Nat.lt_trans n.toNat_lt (by decide))
  uint16 n := carriesInt_of_narrow n.toNat_toUInt64 (Nat.lt_trans n.toNat_lt (by decide))
  uint32 n := carriesInt_of_narrow n.toNat_toUInt64 (Nat.lt_trans n.toNat_lt (by decide))
  uint64 := carriesInt_of_uint64
  usize n := by
    have hcarried := carriesInt_of_uint64 n.toUInt64
    rw [n.toNat_toUInt64] at hcarried
    exact hcarried
  shortest_int value := ⟨_, writes_int value, MessagePack.shortest_int value⟩
  shortest_uint value := ⟨_, writes_uint value, MessagePack.shortest_uint value⟩
  zigzag_eq_xor := Varint.zigzag_eq_xor
  zigzag_bijective := ⟨Varint.zigzag_injective, Varint.zigzag_surjective⟩
  zigzag_lt := Varint.toNat_zigzag_toInt64_lt
  unfolds := WireValue.foldedInt32?_zigzag

end TelemetryExport.MessagePack
