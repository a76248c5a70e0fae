import TelemetryExport.Proofs.Buffer.Writes
import TelemetryExport.Proofs.MessagePack.Encoding

/-! # Formats

For every writer of a scalar, a time or a header stand here the bytes that it
appends, and what the reader makes of them. Which of its formats a text, an integer
or an array takes is seen here and nowhere else.
-/

namespace TelemetryExport.MessagePack

open Encode Value

/-! ## The reader at a format byte -/

section

variable (fuel : Nat) (bytes : List UInt8)

theorem readWith_shortText {length : Nat} (hlength : length < 32) :
    readWith (fuel + 1) (UInt8.ofNat (0xA0 + length) :: bytes) = text? length bytes := by
  have hformat : (UInt8.ofNat (0xA0 + length)).toNat = 0xA0 + length := by
    rw [UInt8.toNat_ofNat']
    omega
  rw [readWith]
  simp only [hformat]
  rw [if_neg (by omega), if_neg (by omega), if_neg (by omega), if_pos (by omega),
    Nat.add_sub_cancel_left]

theorem readWith_text8 : readWith (fuel + 1) (0xD9 :: bytes) =
    (unsigned? 1 bytes).bind fun (count, rest) => text? count rest := rfl

theorem readWith_text16 : readWith (fuel + 1) (0xDA :: bytes) =
    (unsigned? 2 bytes).bind fun (count, rest) => text? count rest := rfl

theorem readWith_shortInt {n : Nat} (hn : n < 0x80) :
    readWith (fuel + 1) (UInt8.ofNat n :: bytes) = some (.int n, bytes) := by
  have hformat : (UInt8.ofNat n).toNat = n := by
    rw [UInt8.toNat_ofNat']
    omega
  rw [readWith]
  simp only [hformat]
  rw [if_pos hn]

theorem readWith_shortNegative {n : Nat} (hlow : 0xE0 ≤ n) (hhigh : n < 0x100) :
    readWith (fuel + 1) (UInt8.ofNat n :: bytes) = some (.int ((n : Int) - 0x100), bytes) := by
  have hformat : (UInt8.ofNat n).toNat = n := by
    rw [UInt8.toNat_ofNat']
    omega
  rw [readWith]
  simp only [hformat]
  iterate 17 rw [if_neg (by omega)]
  rw [if_pos hlow]

/-- The four formats of an unsigned integer behind its format byte. -/
theorem readWith_unsigned {exponent : Nat} (hexponent : exponent < 4) :
    readWith (fuel + 1) (UInt8.ofNat (0xCC + exponent) :: bytes) =
      (unsigned? (1 <<< exponent) bytes).bind fun (n, rest) => some (.int n, rest) := by
  match exponent, hexponent with
  | 0, _ => rfl
  | 1, _ => rfl
  | 2, _ => rfl
  | 3, _ => rfl

/-- The four formats of a signed integer behind its format byte. -/
theorem readWith_signed {exponent : Nat} (hexponent : exponent < 4) :
    readWith (fuel + 1) (UInt8.ofNat (0xD0 + exponent) :: bytes) =
      (unsigned? (1 <<< exponent) bytes).bind fun (n, rest) =>
        some (.int (signed (1 <<< exponent) n), rest) := by
  match exponent, hexponent with
  | 0, _ => rfl
  | 1, _ => rfl
  | 2, _ => rfl
  | 3, _ => rfl

theorem readWith_double : readWith (fuel + 1) (0xCB :: bytes) =
    (unsigned? 8 bytes).bind fun (bits, rest) => some (.double (UInt64.ofNat bits), rest) := rfl

theorem readWith_extension8 : readWith (fuel + 1) (0xC7 :: bytes) =
    (unsigned? 1 bytes).bind fun (count, rest) => extension? count rest := rfl

theorem readWith_shortArray {count : Nat} (hcount : count < 16) :
    readWith (fuel + 1) (UInt8.ofNat (0x90 + count) :: bytes) =
      (readItems fuel count bytes).bind fun (items, rest) => some (.array items, rest) := by
  have hformat : (UInt8.ofNat (0x90 + count)).toNat = 0x90 + count := by
    rw [UInt8.toNat_ofNat']
    omega
  rw [readWith]
  simp only [hformat]
  rw [if_neg (by omega), if_neg (by omega), if_pos (by omega), Nat.add_sub_cancel_left]
  rfl

theorem readWith_array16 : readWith (fuel + 1) (0xDC :: bytes) =
    (unsigned? 2 bytes).bind fun (count, rest) =>
      (readItems fuel count rest).bind fun (items, rest) => some (.array items, rest) := rfl

theorem readWith_shortMap {count : Nat} (hcount : count < 16) :
    readWith (fuel + 1) (UInt8.ofNat (0x80 + count) :: bytes) =
      (readEntries fuel count bytes).bind fun (entries, rest) => some (.map entries, rest) := by
  have hformat : (UInt8.ofNat (0x80 + count)).toNat = 0x80 + count := by
    rw [UInt8.toNat_ofNat']
    omega
  rw [readWith]
  simp only [hformat]
  rw [if_neg (by omega), if_pos (by omega), Nat.add_sub_cancel_left]
  rfl

theorem readWith_map16 : readWith (fuel + 1) (0xDE :: bytes) =
    (unsigned? 2 bytes).bind fun (count, rest) =>
      (readEntries fuel count rest).bind fun (entries, rest) => some (.map entries, rest) := rfl

end

/-! ## Texts -/

/-- The header of a text of so many bytes. -/
def textHeader (length : Nat) : List UInt8 :=
  if length < 32 then [UInt8.ofNat (0xA0 + length)]
  else if length ≤ 0xFF then [0xD9, UInt8.ofNat length]
  else if length ≤ 0xFFFF then 0xDA :: (Bytes.digits 2 length).reverse
  else 0xDB :: (Bytes.digits 4 length).reverse

def textBytes (text : String) : List UInt8 :=
  textHeader text.utf8ByteSize ++ text.toUTF8.data.toList

theorem writes_textHeader (length : Nat) :
    Writes (writeTextHeader length) (textHeader length) () := by
  rw [writeTextHeader, textHeader]
  by_cases htiny : length < 32
  · rw [if_pos htiny, if_pos htiny]
    exact writes_writeByte _
  rw [if_neg htiny, if_neg htiny]
  by_cases hshort : length ≤ 0xFF
  · rw [if_pos hshort, if_pos hshort]
    exact writes_writeList _
  rw [if_neg hshort, if_neg hshort]
  by_cases hlong : length ≤ 0xFFFF
  · rw [if_pos hlong, if_pos hlong]
    exact (writes_writeByte _).seq (writes_writeBigEndian 2 length)
  · rw [if_neg hlong, if_neg hlong]
    exact (writes_writeByte _).seq (writes_writeBigEndian 4 length)

theorem writes_text (text : String) : Writes (writeText text) (textBytes text) () :=
  (writes_textHeader _).seq (writes_writeText text)

theorem readWith_textHeader {length : Nat} (hlength : length ≤ maxPayloadSize) (fuel : Nat)
    (bytes : List UInt8) :
    readWith (fuel + 1) (textHeader length ++ bytes) = text? length bytes := by
  change length ≤ 65360 at hlength
  rw [textHeader]
  by_cases htiny : length < 32
  · rw [if_pos htiny]
    exact readWith_shortText fuel bytes htiny
  rw [if_neg htiny]
  by_cases hshort : length ≤ 0xFF
  · rw [if_pos hshort, List.cons_append, List.singleton_append, readWith_text8,
      unsigned?_byte (by omega), Option.bind_some]
  · rw [if_neg hshort, if_pos (by omega), List.cons_append, readWith_text16,
      unsigned?_digits (show length < 65536 by omega), Option.bind_some]

theorem length_pos_textHeader (length : Nat) : 0 < (textHeader length).length := by
  rw [textHeader]
  by_cases htiny : length < 32
  · rw [if_pos htiny]
    exact Nat.zero_lt_succ _
  rw [if_neg htiny]
  by_cases hshort : length ≤ 0xFF
  · rw [if_pos hshort]
    exact Nat.zero_lt_succ _
  rw [if_neg hshort]
  by_cases hlong : length ≤ 0xFFFF
  · rw [if_pos hlong]
    exact Nat.zero_lt_succ _
  · rw [if_neg hlong]
    exact Nat.zero_lt_succ _

theorem encodes_text (text : String) : Encodes (textBytes text) (.ofText text) := by
  have hsize : text.toUTF8.data.toList.length = text.utf8ByteSize := rfl
  have hpos := length_pos_textHeader text.utf8ByteSize
  apply encodes_of_reads
  · rw [textBytes, List.length_append]
    omega
  · intro hpayload fuel rest _
    rw [textBytes, List.length_append] at hpayload
    have htext : text? text.utf8ByteSize (text.toUTF8.data.toList ++ rest) =
        some (.ofText text, rest) := by
      rw [text?, ← hsize, split?_append]
      rfl
    rw [textBytes, List.append_assoc, readWith_textHeader (by omega), htext]

/-- The text that a value is. -/
def Value.string? : Value → Option String
  | .text utf8 => String.fromUTF8? utf8.toByteArray
  | _ => none

theorem Value.string?_ofText (text : String) : (Value.ofText text).string? = some text :=
  Bytes.fromUTF8?_toUTF8 text

/-! ## Integers -/

/-- An unsigned integer of so many bytes as the exponent of two says. -/
def unsignedBytes (exponent n : Nat) : List UInt8 :=
  UInt8.ofNat (0xCC + exponent) :: (Bytes.digits (1 <<< exponent) n).reverse

/-- A signed integer, by its two's complement. -/
def signedBytes (exponent n : Nat) : List UInt8 :=
  UInt8.ofNat (0xD0 + exponent) :: (Bytes.digits (1 <<< exponent) n).reverse

def uintBytes (n : Nat) : List UInt8 :=
  if n < 0x80 then [UInt8.ofNat n]
  else if n ≤ 0xFF then unsignedBytes 0 n
  else if n ≤ 0xFFFF then unsignedBytes 1 n
  else if n ≤ 0xFFFFFFFF then unsignedBytes 2 n
  else unsignedBytes 3 n

def intBytes (value : Int64) : List UInt8 :=
  let complement := value.toUInt64.toNat
  if 0 ≤ value.toInt then uintBytes complement
  else if -32 ≤ value.toInt then [UInt8.ofNat complement]
  else if -128 ≤ value.toInt then signedBytes 0 complement
  else if -32768 ≤ value.toInt then signedBytes 1 complement
  else if -2147483648 ≤ value.toInt then signedBytes 2 complement
  else signedBytes 3 complement

theorem writes_uint (value : UInt64) : Writes (writeUInt value) (uintBytes value.toNat) () := by
  simp only [writeUInt, uintBytes]
  by_cases htiny : value.toNat < 0x80
  · rw [if_pos htiny, if_pos htiny]
    exact writes_writeByte _
  rw [if_neg htiny, if_neg htiny]
  by_cases hone : value.toNat ≤ 0xFF
  · rw [if_pos hone, if_pos hone]
    exact writes_writeList _
  rw [if_neg hone, if_neg hone]
  by_cases htwo : value.toNat ≤ 0xFFFF
  · rw [if_pos htwo, if_pos htwo]
    exact (writes_writeByte _).seq (writes_writeBigEndian 2 _)
  rw [if_neg htwo, if_neg htwo]
  by_cases hfour : value.toNat ≤ 0xFFFFFFFF
  · rw [if_pos hfour, if_pos hfour]
    exact (writes_writeByte _).seq (writes_writeBigEndian 4 _)
  · rw [if_neg hfour, if_neg hfour]
    exact (writes_writeByte _).seq (writes_writeBigEndian 8 _)

theorem writes_int (value : Int64) : Writes (writeInt value) (intBytes value) () := by
  simp only [writeInt, intBytes]
  by_cases hnonneg : 0 ≤ value.toInt
  · rw [if_pos hnonneg, if_pos hnonneg]
    exact writes_uint _
  rw [if_neg hnonneg, if_neg hnonneg]
  by_cases htiny : -32 ≤ value.toInt
  · rw [if_pos htiny, if_pos htiny]
    exact writes_writeByte _
  rw [if_neg htiny, if_neg htiny]
  by_cases hone : -128 ≤ value.toInt
  · rw [if_pos hone, if_pos hone]
    exact writes_writeList _
  rw [if_neg hone, if_neg hone]
  by_cases htwo : -32768 ≤ value.toInt
  · rw [if_pos htwo, if_pos htwo]
    exact (writes_writeByte _).seq (writes_writeBigEndian 2 _)
  rw [if_neg htwo, if_neg htwo]
  by_cases hfour : -2147483648 ≤ value.toInt
  · rw [if_pos hfour, if_pos hfour]
    exact (writes_writeByte _).seq (writes_writeBigEndian 4 _)
  · rw [if_neg hfour, if_neg hfour]
    exact (writes_writeByte _).seq (writes_writeBigEndian 8 _)

theorem encodes_unsigned {exponent n : Nat} (hexponent : exponent < 4)
    (hn : n < Bytes.bound (1 <<< exponent)) : Encodes (unsignedBytes exponent n) (.int n) := by
  apply encodes_of_reads
  · exact Nat.zero_lt_succ _
  · intro _ fuel rest _
    rw [unsignedBytes, List.cons_append, readWith_unsigned fuel _ hexponent,
      unsigned?_digits hn, Option.bind_some]

theorem encodes_uint {n : Nat} (hn : n < UInt64.size) : Encodes (uintBytes n) (.int n) := by
  rw [uintBytes]
  by_cases htiny : n < 0x80
  · rw [if_pos htiny]
    apply encodes_of_reads
    · exact Nat.zero_lt_one
    · exact fun _ fuel rest _ => readWith_shortInt fuel rest htiny
  rw [if_neg htiny]
  by_cases hone : n ≤ 0xFF
  · rw [if_pos hone]
    exact encodes_unsigned (by decide) (show n < 256 by omega)
  rw [if_neg hone]
  by_cases htwo : n ≤ 0xFFFF
  · rw [if_pos htwo]
    exact encodes_unsigned (by decide) (show n < 65536 by omega)
  rw [if_neg htwo]
  by_cases hfour : n ≤ 0xFFFFFFFF
  · rw [if_pos hfour]
    exact encodes_unsigned (by decide) (show n < 4294967296 by omega)
  · rw [if_neg hfour]
    exact encodes_unsigned (by decide) hn

theorem encodes_signed {exponent n : Nat} (hexponent : exponent < 4) {value : Int}
    (hvalue : signed (1 <<< exponent) (n % Bytes.bound (1 <<< exponent)) = value) :
    Encodes (signedBytes exponent n) (.int value) := by
  apply encodes_of_reads
  · exact Nat.zero_lt_succ _
  · intro _ fuel rest _
    rw [signedBytes, List.cons_append, readWith_signed fuel _ hexponent, unsigned?_mod,
      Option.bind_some]
    simp only [hvalue]

/-- The widths that a number can have in a format. -/
theorem bound_widths : Bytes.bound 1 = 256 ∧ Bytes.bound 2 = 65536 ∧
    Bytes.bound 4 = 4294967296 ∧ Bytes.bound 8 = 18446744073709551616 := by
  decide

/-- A negative integer in the range of a width is read back from its two's complement. -/
theorem signed_complement {value : Int64} (hneg : value.toInt < 0) {width : Nat}
    (hwidth : width = 1 ∨ width = 2 ∨ width = 4 ∨ width = 8)
    (hrange : -(Bytes.bound width : Int) ≤ 2 * value.toInt) :
    signed width (value.toUInt64.toNat % Bytes.bound width) = value.toInt := by
  have hbits := toNat_toUInt64_of_neg hneg
  obtain ⟨hone, htwo, hfour, height⟩ := bound_widths
  rw [signed]
  rcases hwidth with rfl | rfl | rfl | rfl
  · rw [hone] at hrange ⊢
    rw [if_neg (by omega)]
    omega
  · rw [htwo] at hrange ⊢
    rw [if_neg (by omega)]
    omega
  · rw [hfour] at hrange ⊢
    rw [if_neg (by omega)]
    omega
  · rw [height] at hrange ⊢
    rw [if_neg (by omega)]
    omega

theorem encodes_int (value : Int64) : Encodes (intBytes value) (.int value.toInt) := by
  have hlow : -9223372036854775808 ≤ value.toInt := value.le_toInt
  simp only [intBytes]
  by_cases hnonneg : 0 ≤ value.toInt
  · have hencodes := encodes_uint value.toUInt64.toNat_lt
    rw [toNat_toUInt64_of_nonneg hnonneg] at hencodes
    rw [if_pos hnonneg]
    exact hencodes
  have hneg := Int.not_le.mp hnonneg
  rw [if_neg hnonneg]
  by_cases htiny : -32 ≤ value.toInt
  · have hbits := toNat_toUInt64_of_neg hneg
    -- One byte holds the integer, and the reader knows it by the byte's highest bits.
    have hbyte : UInt8.ofNat value.toUInt64.toNat =
        UInt8.ofNat (value.toUInt64.toNat % 256) := by
      apply UInt8.toNat_inj.mp
      rw [UInt8.toNat_ofNat', UInt8.toNat_ofNat', Nat.mod_mod]
    rw [if_pos htiny, hbyte]
    apply encodes_of_reads
    · exact Nat.zero_lt_one
    · intro _ fuel rest _
      rw [List.singleton_append, readWith_shortNegative fuel rest (by omega) (by omega)]
      congr 3
      omega
  rw [if_neg htiny]
  by_cases hone : -128 ≤ value.toInt
  · rw [if_pos hone]
    exact encodes_signed (by decide)
      (signed_complement hneg (.inl rfl) (show -(256 : Int) ≤ _ by omega))
  rw [if_neg hone]
  by_cases htwo : -32768 ≤ value.toInt
  · rw [if_pos htwo]
    exact encodes_signed (by decide)
      (signed_complement hneg (.inr (.inl rfl)) (show -(65536 : Int) ≤ _ by omega))
  rw [if_neg htwo]
  by_cases hfour : -2147483648 ≤ value.toInt
  · rw [if_pos hfour]
    exact encodes_signed (by decide)
      (signed_complement hneg (.inr (.inr (.inl rfl))) (show -(4294967296 : Int) ≤ _ by omega))
  · rw [if_neg hfour]
    exact encodes_signed (by decide) (signed_complement hneg (.inr (.inr (.inr rfl)))
      (show -(18446744073709551616 : Int) ≤ _ by omega))

/-! ## Scalars and times -/

def scalarBytes : Scalar → List UInt8
  | .text value => textBytes value
  | .bool value => [if value then 0xC3 else 0xC2]
  | .int value => intBytes value
  | .double value => 0xCB :: (Bytes.digits 8 value.bits.toNat).reverse
  | .null => [0xC0]

def timeBytes (time : Time) : List UInt8 :=
  [0xC7, 12, 0xFF] ++ ((Bytes.digits 4 time.nanoseconds.val).reverse ++
    (Bytes.digits 8 time.seconds.toUInt64.toNat).reverse)

theorem writes_scalar (value : Scalar) : Writes (writeScalar value) (scalarBytes value) () := by
  cases value with
  | text value => exact writes_text value
  | bool value => exact writes_writeByte _
  | int value => exact writes_int value
  | double value => exact (writes_writeByte _).seq (writes_writeBigEndian 8 _)
  | null => exact writes_writeByte _

theorem encodes_scalar (value : Scalar) : Encodes (scalarBytes value) (.ofScalar value) := by
  cases value with
  | text value => exact encodes_text value
  | bool value =>
      cases value with
      | true => exact encodes_of_reads Nat.zero_lt_one fun _ _ _ _ => rfl
      | false => exact encodes_of_reads Nat.zero_lt_one fun _ _ _ _ => rfl
  | int value => exact encodes_int value
  | double value =>
      apply encodes_of_reads
      · exact Nat.zero_lt_succ _
      · intro _ fuel rest _
        have hbits : value.bits.toNat < Bytes.bound 8 := value.bits.toNat_lt
        rw [scalarBytes, List.cons_append, readWith_double, unsigned?_digits hbits,
          Option.bind_some]
        simp only [UInt64.ofNat_toNat]
        rfl
  | null => exact encodes_of_reads Nat.zero_lt_one fun _ _ _ _ => rfl

theorem writes_time {time : Time} (htime : time.inCalendar = true) :
    Writes (writeTime time) (timeBytes time) () := by
  have hwrites := (writes_writeList [0xC7, 12, 0xFF]).seq
    ((writes_writeBigEndian 4 time.nanoseconds.val).seq
      (writes_writeBigEndian 8 time.seconds.toUInt64.toNat))
  have haction : writeTime time = (do
      writeList [0xC7, 12, 0xFF]
      writeBigEndian 4 time.nanoseconds.val
      writeBigEndian 8 time.seconds.toUInt64.toNat) := by
    rw [writeTime]
    simp only [htime, if_true]
  rw [haction]
  exact hwrites

/-- A time outside the calendar is never written. -/
theorem inCalendar_of_writeTime {time : Time} {buffer after : Buffer}
    (hok : writeTime time buffer = .ok () after) : time.inCalendar = true := by
  cases htime : time.inCalendar with
  | true => rfl
  | false =>
      simp only [writeTime, htime, if_neg Bool.false_ne_true] at hok
      cases hok

theorem encodes_time (time : Time) : Encodes (timeBytes time) (.ofTime time) := by
  apply encodes_of_reads
  · exact Nat.zero_lt_succ _
  · intro _ fuel rest _
    have hsplit := split?_append ((Bytes.digits 4 time.nanoseconds.val).reverse ++
      (Bytes.digits 8 time.seconds.toUInt64.toNat).reverse) rest
    rw [length_time_digits] at hsplit
    have hextension : extension? 12 (0xFF :: (((Bytes.digits 4 time.nanoseconds.val).reverse ++
        (Bytes.digits 8 time.seconds.toUInt64.toNat).reverse) ++ rest)) =
          some (.ofTime time, rest) := by
      rw [extension?, hsplit]
      rfl
    rw [timeBytes, List.append_assoc, List.cons_append, List.cons_append, List.singleton_append,
      readWith_extension8, show (12 : UInt8) = UInt8.ofNat 12 from rfl,
      unsigned?_byte (by decide), Option.bind_some]
    exact hextension

end TelemetryExport.MessagePack
