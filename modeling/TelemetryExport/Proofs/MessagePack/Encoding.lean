import TelemetryExport.MessagePack.Reader
import TelemetryExport.MessagePack.Writer
import TelemetryExport.Proofs.Number.Signed

/-! # Encodings of values

The bytes of each format that is written, and what the reader makes of them. Bytes
encode a value if they are read as that value, whatever follows them, with as much
fuel as twice their length. Only bytes that fit a payload are ever written, so that
lengths and counts are those of a payload.
-/

namespace TelemetryExport.MessagePack

open Value

/-! ## Numbers and stretches of bytes -/

namespace Value

theorem split?_append (head rest : List UInt8) :
    split? head.length (head ++ rest) = some (head, rest) := by
  rw [split?, List.take_left, List.drop_left, if_pos rfl]

/-- Digits are read as the number, cut to the width. -/
theorem unsigned?_mod (width n : Nat) (rest : List UInt8) :
    unsigned? width ((Bytes.digits width n).reverse ++ rest) =
      some (n % Bytes.bound width, rest) := by
  have hsplit := split?_append (Bytes.digits width n).reverse rest
  rw [List.length_reverse, Bytes.length_digits] at hsplit
  rw [unsigned?, hsplit, Option.map_some]
  simp only [List.reverse_reverse, Bytes.value_digits]

theorem unsigned?_digits {width n : Nat} (hn : n < Bytes.bound width) (rest : List UInt8) :
    unsigned? width ((Bytes.digits width n).reverse ++ rest) = some (n, rest) := by
  rw [unsigned?_mod, Nat.mod_eq_of_lt hn]

theorem unsigned?_byte {n : Nat} (hn : n < 256) (rest : List UInt8) :
    unsigned? 1 (UInt8.ofNat n :: rest) = some (n, rest) :=
  unsigned?_digits hn rest

/-- A text as it is read. -/
def ofText (text : String) : Value := .text text.toUTF8.data.toList

/-- A scalar as it is read. -/
def ofScalar : Scalar → Value
  | .text value => ofText value
  | .bool value => .bool value
  | .int value => .int value.toInt
  | .double value => .double value.bits
  | .null => .nil

/-- The seconds and the nanoseconds of a timestamp extension of 96 bits. -/
def timestamp? : Value → Option (Int × Nat)
  | .extension kind bytes =>
      if kind = 0xFF ∧ bytes.length = 12 then
        some (signed 8 (Bytes.value (bytes.drop 4).reverse), Bytes.value (bytes.take 4).reverse)
      else none
  | _ => none

/-- A time as it is read. -/
def ofTime (time : Time) : Value :=
  .extension 0xFF ((Bytes.digits 4 time.nanoseconds.val).reverse ++
    (Bytes.digits 8 time.seconds.toUInt64.toNat).reverse)

end Value

theorem Value.length_time_digits (nanoseconds seconds : Nat) :
    ((Bytes.digits 4 nanoseconds).reverse ++ (Bytes.digits 8 seconds).reverse).length = 12 := by
  simp [Bytes.length_digits]

/-- Eight bytes hold every integer, whatever its sign. -/
theorem Value.signed_toUInt64 (value : Int64) :
    signed 8 (value.toUInt64.toNat % Bytes.bound 8) = value.toInt := by
  have hbound : value.toUInt64.toNat < Bytes.bound 8 := value.toUInt64.toNat_lt
  have hlow := value.le_toInt
  have hhigh := value.toInt_lt
  rw [Nat.mod_eq_of_lt hbound, signed, show Bytes.bound 8 = 18446744073709551616 from rfl]
  by_cases hneg : value.toInt < 0
  · have hbits := toNat_toUInt64_of_neg hneg
    rw [if_neg (by omega)]
    omega
  · have hbits := toNat_toUInt64_of_nonneg (Int.not_lt.mp hneg)
    rw [if_pos (by omega)]
    exact hbits

/-- A time has its seconds, also before the epoch, and its nanoseconds. -/
theorem Value.timestamp?_ofTime (time : Time) :
    timestamp? (ofTime time) = some (time.seconds.toInt, time.nanoseconds.val) := by
  have hnanos : time.nanoseconds.val % Bytes.bound 4 = time.nanoseconds.val :=
    Nat.mod_eq_of_lt (Nat.lt_trans time.nanoseconds.isLt (by decide))
  have hlength : ((Bytes.digits 4 time.nanoseconds.val).reverse).length = 4 := by
    rw [List.length_reverse, Bytes.length_digits]
  simp only [ofTime, timestamp?, length_time_digits, and_self, if_true, Option.some.injEq,
    Prod.mk.injEq]
  constructor
  · rw [← signed_toUInt64, List.drop_left' hlength, List.reverse_reverse, Bytes.value_digits]
  · rw [List.take_left' hlength, List.reverse_reverse, Bytes.value_digits, hnanos]

/-! ## Encodings -/

/-- The bytes are read as the value, whatever follows them, if they fit a payload. -/
structure Encodes (bytes : List UInt8) (value : Value) : Prop where
  length_pos : 0 < bytes.length
  reads : bytes.length ≤ maxPayloadSize → ∀ fuel rest, 2 * bytes.length ≤ fuel + 1 →
    readWith fuel (bytes ++ rest) = some (value, rest)

/-- The bytes of values that follow each other. -/
inductive EncodesItems : List UInt8 → List Value → Prop
  | nil : EncodesItems [] []
  | cons {bytes rest : List UInt8} {value : Value} {values : List Value}
      (hvalue : Encodes bytes value) (hrest : EncodesItems rest values) :
      EncodesItems (bytes ++ rest) (value :: values)

/-- The bytes of pairs of a key and a value that follow each other. -/
inductive EncodesEntries : List UInt8 → List (Value × Value) → Prop
  | nil : EncodesEntries [] []
  | cons {keyBytes valueBytes rest : List UInt8} {key value : Value}
      {entries : List (Value × Value)} (hkey : Encodes keyBytes key)
      (hvalue : Encodes valueBytes value) (hrest : EncodesEntries rest entries) :
      EncodesEntries (keyBytes ++ valueBytes ++ rest) ((key, value) :: entries)

/-- What is an encoding is read up to its end, whatever follows. -/
theorem Encodes.read_append {bytes : List UInt8} {value : Value} (hencodes : Encodes bytes value)
    (hlength : bytes.length ≤ maxPayloadSize) (rest : List UInt8) :
    Value.read (bytes ++ rest) = some (value, rest) := by
  apply hencodes.reads hlength
  rw [List.length_append]
  omega

/-- What makes up a whole payload is read to its end. -/
theorem Encodes.read {bytes : List UInt8} {value : Value} (hencodes : Encodes bytes value)
    (hlength : bytes.length ≤ maxPayloadSize) : Value.read bytes = some (value, []) := by
  have hread := hencodes.read_append hlength []
  rw [List.append_nil] at hread
  exact hread

/-- To encode a value it is enough to be read with one unit of fuel or more. -/
theorem encodes_of_reads {bytes : List UInt8} {value : Value} (hlength : 0 < bytes.length)
    (hreads : bytes.length ≤ maxPayloadSize → ∀ fuel rest, 2 * bytes.length ≤ fuel + 2 →
      readWith (fuel + 1) (bytes ++ rest) = some (value, rest)) : Encodes bytes value where
  length_pos := hlength
  reads := by
    intro hpayload fuel rest hfuel
    obtain ⟨fuel, rfl⟩ : ∃ less, fuel = less + 1 := ⟨fuel - 1, by omega⟩
    exact hreads hpayload fuel rest hfuel

namespace EncodesItems

variable {bytes : List UInt8} {values : List Value}

theorem length_le (hitems : EncodesItems bytes values) : values.length ≤ bytes.length := by
  induction hitems with
  | nil => exact Nat.le_refl _
  | cons hvalue _ ih =>
      have hpos := hvalue.length_pos
      rw [List.length_cons, List.length_append]
      omega

theorem reads (hitems : EncodesItems bytes values) (hlength : bytes.length ≤ maxPayloadSize)
    (fuel : Nat) (rest : List UInt8) (hfuel : 2 * bytes.length ≤ fuel) :
    readItems fuel values.length (bytes ++ rest) = some (values, rest) := by
  -- An item takes at least one byte, which pays for one unit of fuel and the nested reader's.
  induction hitems generalizing fuel with
  | nil => cases fuel <;> rfl
  | @cons first later value values hvalue _ ih =>
      have hpos := hvalue.length_pos
      rw [List.length_append] at hlength hfuel
      obtain ⟨fuel, rfl⟩ : ∃ less, fuel = less + 1 := ⟨fuel - 1, by omega⟩
      have hfirst := hvalue.reads (by omega) fuel (later ++ rest) (by omega)
      have hlater := ih (by omega) fuel (by omega)
      rw [List.length_cons, readItems, List.append_assoc, hfirst]
      simp only [Option.bind_eq_bind, Option.bind_some, hlater]
      rfl

end EncodesItems

namespace EncodesEntries

variable {bytes : List UInt8} {entries : List (Value × Value)}

theorem length_le (hentries : EncodesEntries bytes entries) : entries.length ≤ bytes.length := by
  induction hentries with
  | nil => exact Nat.le_refl _
  | cons hkey _ _ ih =>
      have hpos := hkey.length_pos
      simp only [List.length_cons, List.length_append]
      omega

theorem append {more : List UInt8} {others : List (Value × Value)}
    (hentries : EncodesEntries bytes entries) (hothers : EncodesEntries more others) :
    EncodesEntries (bytes ++ more) (entries ++ others) := by
  induction hentries with
  | nil => exact hothers
  | cons hkey hvalue _ ih =>
      rw [List.append_assoc]
      exact cons hkey hvalue ih

theorem single {keyBytes valueBytes : List UInt8} {key value : Value}
    (hkey : Encodes keyBytes key) (hvalue : Encodes valueBytes value) :
    EncodesEntries (keyBytes ++ valueBytes) [(key, value)] := by
  have hentries := cons hkey hvalue nil
  rw [List.append_nil] at hentries
  exact hentries

theorem reads (hentries : EncodesEntries bytes entries)
    (hlength : bytes.length ≤ maxPayloadSize) (fuel : Nat) (rest : List UInt8)
    (hfuel : 2 * bytes.length ≤ fuel) :
    readEntries fuel entries.length (bytes ++ rest) = some (entries, rest) := by
  induction hentries generalizing fuel with
  | nil => cases fuel <;> rfl
  | @cons keyBytes valueBytes later key value entries hkey hvalue _ ih =>
      have hpos := hkey.length_pos
      simp only [List.length_append] at hlength hfuel
      obtain ⟨fuel, rfl⟩ : ∃ less, fuel = less + 1 := ⟨fuel - 1, by omega⟩
      have hfirst := hkey.reads (by omega) fuel (valueBytes ++ (later ++ rest)) (by omega)
      have hsecond := hvalue.reads (by omega) fuel (later ++ rest) (by omega)
      have hlater := ih (by omega) fuel (by omega)
      rw [List.length_cons, readEntries, List.append_assoc, List.append_assoc, hfirst]
      simp only [Option.bind_eq_bind, Option.bind_some, hsecond, hlater]
      rfl

end EncodesEntries

end TelemetryExport.MessagePack
