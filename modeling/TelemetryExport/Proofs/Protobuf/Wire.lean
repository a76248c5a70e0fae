import TelemetryExport.Metric.Field
import TelemetryExport.Proofs.Varint

/-! # The wire format of messages

A reader for the content of a message: fields one after another, each a key and a
value, up to the last byte. Beside it stands the encoding of a list of fields, in
which a nested message has the length of its content in three bytes. Reading what
is encoded gives the fields back, one by one and with nothing left over.
-/

namespace TelemetryExport

/-- The value of a field as the wire format carries it. -/
inductive WireValue where
  | varint (value : UInt64)
  | fixed64 (value : UInt64)
  | fixed32 (value : UInt32)
  | bytes (content : List UInt8)
  deriving DecidableEq, Repr

/-- A field to be written. The content of a message is an encoding of its own. -/
inductive WrittenField where
  | varint (number : Nat) (value : UInt64)
  | fixed64 (number : Nat) (value : UInt64)
  | bytes (number : Nat) (content : List UInt8)
  | message (number : Nat) (content : List UInt8)
  deriving DecidableEq, Repr

namespace Wire

/-! ## Reading -/

/-- The varint at the head of the bytes, and the bytes after it. -/
def varint? (bytes : List UInt8) : Option (Nat × List UInt8) :=
  (Varint.decode Varint.maxLength bytes).map fun (value, count) => (value, bytes.drop count)

/-- The first `count` bytes and the bytes after them, if there are as many. -/
def take? (count : Nat) (bytes : List UInt8) : Option (List UInt8 × List UInt8) :=
  if count ≤ bytes.length then some (bytes.take count, bytes.drop count) else none

/-- The value of the given wire type at the head of the bytes. The types of
groups have no meaning any more. -/
def readValue : Nat → List UInt8 → Option (WireValue × List UInt8)
  | 0, bytes => (varint? bytes).map fun (value, rest) => (.varint (UInt64.ofNat value), rest)
  | 1, bytes => (take? 8 bytes).map fun (digits, rest) =>
      (.fixed64 (UInt64.ofNat (Bytes.value digits)), rest)
  | 2, bytes => do
      let (length, rest) ← varint? bytes
      let (content, rest) ← take? length rest
      return (.bytes content, rest)
  | 5, bytes => (take? 4 bytes).map fun (digits, rest) =>
      (.fixed32 (UInt32.ofNat (Bytes.value digits)), rest)
  | _, _ => none

/-- The field at the head of the bytes: its number, which is not zero and whose
key has 32 bits, and its value. -/
def readField (bytes : List UInt8) : Option ((Nat × WireValue) × List UInt8) := do
  let (key, rest) ← varint? bytes
  if key / 8 = 0 ∨ UInt32.size ≤ key then none
  else
    let (value, rest) ← readValue (key % 8) rest
    return ((key / 8, value), rest)

/-- The fields that make up all of the bytes. Every field takes a byte, so the
number of bytes bounds the number of fields. -/
def readWith : Nat → List UInt8 → Option (List (Nat × WireValue))
  | _, [] => some []
  | 0, _ :: _ => none
  | fuel + 1, byte :: bytes => do
      let (field, rest) ← readField (byte :: bytes)
      let fields ← readWith fuel rest
      return field :: fields

/-- The fields of a message with the given content. -/
def read (bytes : List UInt8) : Option (List (Nat × WireValue)) :=
  readWith bytes.length bytes

/-- Takes the fields of the content one by one into a message. -/
def merge {α : Type} (step : α → Nat → WireValue → Option α) (message : α)
    (bytes : List UInt8) : Option α := do
  let fields ← read bytes
  fields.foldlM (fun message field => step message field.1 field.2) message

end Wire

namespace WrittenField

/-! ## Writing -/

def number : WrittenField → Nat
  | varint number _ => number
  | fixed64 number _ => number
  | bytes number _ => number
  | message number _ => number

/-- The field as a reader sees it. -/
def toWire : WrittenField → Nat × WireValue
  | varint number value => (number, .varint value)
  | fixed64 number value => (number, .fixed64 value)
  | bytes number content => (number, .bytes content)
  | message number content => (number, .bytes content)

/-- The bytes of the field's key. -/
def tagBytes (number : Nat) (wireType : WireType) : List UInt8 :=
  Varint.groups (Field.tag number wireType).toNat

/-- The bytes of the field. -/
def encode : WrittenField → List UInt8
  | varint number value => tagBytes number .varint ++ Varint.groups value.toNat
  | fixed64 number value => tagBytes number .fixed64 ++ Bytes.digits 8 value.toNat
  | bytes number content =>
      tagBytes number .lengthDelimited
        ++ (Varint.groups (UInt64.ofNat content.length).toNat ++ content)
  | message number content => Slot.messageHeader number content.length ++ content

/-- The bytes of a field's content, if it has a length of its own. -/
def content : WrittenField → List UInt8
  | varint .. => []
  | fixed64 .. => []
  | bytes _ content => content
  | message _ content => content

/-- Whether the number is one of those whose key is a single byte. -/
def Numbered (field : WrittenField) : Prop := 0 < field.number ∧ field.number < 16

/-- The bytes of fields in order. -/
def encodeAll (fields : List WrittenField) : List UInt8 := fields.flatMap encode

@[simp] theorem encodeAll_nil : encodeAll [] = [] := rfl

@[simp] theorem encodeAll_cons (field : WrittenField) (fields : List WrittenField) :
    encodeAll (field :: fields) = field.encode ++ encodeAll fields := rfl

@[simp] theorem encodeAll_singleton (field : WrittenField) : encodeAll [field] = field.encode :=
  List.append_nil _

@[simp] theorem encodeAll_append (fields others : List WrittenField) :
    encodeAll (fields ++ others) = encodeAll fields ++ encodeAll others :=
  List.flatMap_append

@[simp] theorem length_messageHeader (number length : Nat) :
    (Slot.messageHeader number length).length = Slot.messageWidth := rfl

theorem length_content_le (field : WrittenField) : field.content.length ≤ field.encode.length := by
  cases field <;> simp only [content, encode, List.length_append, List.length_nil] <;> omega

theorem length_encode_le_of_mem {field : WrittenField} {fields : List WrittenField}
    (hmem : field ∈ fields) : field.encode.length ≤ (encodeAll fields).length := by
  obtain ⟨before, after, rfl⟩ := List.append_of_mem hmem
  rw [encodeAll_append, encodeAll_cons, List.length_append, List.length_append]
  omega

/-- The content of a field is no longer than the encoding the field is part of. -/
theorem length_content_le_of_mem {field : WrittenField} {fields : List WrittenField}
    (hmem : field ∈ fields) : field.content.length ≤ (encodeAll fields).length :=
  Nat.le_trans field.length_content_le (length_encode_le_of_mem hmem)

theorem tagBytes_eq {number : Nat} (wireType : WireType) (hnumber : number < 16) :
    tagBytes number wireType = [UInt8.ofNat (number * 8 + wireType.code)] := by
  have hcode : wireType.code ≤ 2 := by cases wireType <;> decide
  have htag : (Field.tag number wireType).toNat = number * 8 + wireType.code := by
    rw [Field.tag, UInt64.toNat_ofNat', UInt32.size]
    omega
  rw [tagBytes, htag, Varint.groups_of_lt (by omega)]

theorem length_encode_pos (field : WrittenField) : 0 < field.encode.length := by
  cases field with
  | varint number value =>
      have hpos := Varint.length_groups_pos value.toNat
      rw [encode, List.length_append]
      omega
  | fixed64 number value =>
      rw [encode, List.length_append, Bytes.length_digits]
      omega
  | bytes number content =>
      have hpos := Varint.length_groups_pos (UInt64.ofNat content.length).toNat
      rw [encode, List.length_append, List.length_append]
      omega
  | message number content => exact Nat.succ_pos _

end WrittenField

namespace Wire

open WrittenField

/-! ## Reading what is written -/

theorem varint?_groups (value : UInt64) (rest : List UInt8) :
    varint? (Varint.groups value.toNat ++ rest) = some (value.toNat, rest) := by
  rw [varint?, Varint.decode_groups_of_uint64, Option.map_some]
  simp only [List.drop_left]

theorem varint?_padded {n : Nat} (hn : n ≤ Varint.paddedMax) (rest : List UInt8) :
    varint? (Varint.padded n ++ rest) = some (n, rest) := by
  rw [varint?, Varint.decode_padded hn, Option.map_some]
  simp only [← Varint.length_padded n, List.drop_left]

theorem take?_append {count : Nat} {head : List UInt8} (rest : List UInt8)
    (hlength : head.length = count) : take? count (head ++ rest) = some (head, rest) := by
  subst hlength
  rw [take?, if_pos (by rw [List.length_append]; omega), List.take_left, List.drop_left]

theorem value_digits_of_uint64 (value : UInt64) :
    UInt64.ofNat (Bytes.value (Bytes.digits 8 value.toNat)) = value := by
  have hvalue : value.toNat < Bytes.bound 8 := value.toNat_lt
  rw [Bytes.value_digits, Nat.mod_eq_of_lt hvalue, UInt64.ofNat_toNat]

theorem readField_key (number : Nat) (wireType : WireType) (hpos : 0 < number)
    (hnumber : number < 16) (rest : List UInt8) :
    readField (UInt8.ofNat (number * 8 + wireType.code) :: rest) =
      (readValue wireType.code rest).map fun (value, rest) => ((number, value), rest) := by
  have hcode : wireType.code ≤ 2 := by cases wireType <;> decide
  have hkey : varint? (UInt8.ofNat (number * 8 + wireType.code) :: rest) =
      some (number * 8 + wireType.code, rest) := by
    have hgroups := varint?_groups (UInt64.ofNat (number * 8 + wireType.code)) rest
    rw [UInt64.toNat_ofNat', Nat.mod_eq_of_lt (by omega), Varint.groups_of_lt (by omega),
      List.singleton_append] at hgroups
    exact hgroups
  have hdiv : (number * 8 + wireType.code) / 8 = number := by omega
  have hmod : (number * 8 + wireType.code) % 8 = wireType.code := by omega
  have hbounds : ¬(number = 0 ∨ UInt32.size ≤ number * 8 + wireType.code) := by
    rw [UInt32.size]
    omega
  simp only [readField, hkey, Option.bind_eq_bind, Option.bind_some, hdiv, hmod, if_neg hbounds]
  cases readValue wireType.code rest <;> rfl

/-- A reader takes exactly the bytes of the field at the head. -/
theorem readField_encode {field : WrittenField} (hnumbered : field.Numbered)
    (hcontent : field.content.length ≤ Varint.paddedMax) (rest : List UInt8) :
    readField (field.encode ++ rest) = some (field.toWire, rest) := by
  obtain ⟨hpos, hnumber⟩ := hnumbered
  cases field with
  | varint number value =>
      change number < 16 at hnumber
      rw [encode, tagBytes_eq _ hnumber, List.append_assoc, List.singleton_append,
        readField_key number .varint hpos hnumber, WireType.code, readValue, varint?_groups]
      simp only [Option.map_some, UInt64.ofNat_toNat, toWire]
  | fixed64 number value =>
      change number < 16 at hnumber
      rw [encode, tagBytes_eq _ hnumber, List.append_assoc, List.singleton_append,
        readField_key number .fixed64 hpos hnumber, WireType.code, readValue,
        take?_append _ (Bytes.length_digits ..)]
      simp only [Option.map_some, value_digits_of_uint64, toWire]
  | bytes number content =>
      change number < 16 at hnumber
      change content.length ≤ Varint.paddedMax at hcontent
      rw [Varint.paddedMax] at hcontent
      have hlength : (UInt64.ofNat content.length).toNat = content.length := by
        rw [UInt64.toNat_ofNat']
        omega
      have hvarint := varint?_groups (UInt64.ofNat content.length) (content ++ rest)
      rw [encode, tagBytes_eq _ hnumber, List.append_assoc, List.singleton_append,
        readField_key number .lengthDelimited hpos hnumber, WireType.code, readValue,
        List.append_assoc, hvarint, hlength]
      simp only [Option.bind_eq_bind, Option.bind_some, take?_append rest rfl, Option.map_some,
        Option.pure_def, toWire]
  | message number content =>
      -- Unlike that of other bytes, the length of a message is padded.
      change number < 16 at hnumber
      change content.length ≤ Varint.paddedMax at hcontent
      have hvarint := varint?_padded hcontent (content ++ rest)
      rw [encode, Slot.messageHeader, List.append_assoc, List.cons_append]
      change readField (UInt8.ofNat (number * 8 + WireType.lengthDelimited.code) :: _) = _
      rw [readField_key number .lengthDelimited hpos hnumber, WireType.code, readValue, hvarint]
      simp only [Option.bind_eq_bind, Option.bind_some, take?_append rest rfl, Option.map_some,
        Option.pure_def, toWire]

theorem readWith_encodeAll (fields : List WrittenField)
    (hnumbered : ∀ field ∈ fields, field.Numbered)
    (hcontent : ∀ field ∈ fields, field.content.length ≤ Varint.paddedMax) (fuel : Nat)
    (hfuel : fields.length ≤ fuel) :
    readWith fuel (encodeAll fields) = some (fields.map toWire) := by
  induction fields generalizing fuel with
  | nil =>
      rw [encodeAll_nil, readWith, List.map_nil]
  | cons field rest ih =>
      rw [encodeAll_cons]
      cases fuel with
      | zero => exact absurd hfuel (Nat.not_succ_le_zero _)
      | succ fuel =>
          have hhead := readField_encode (hnumbered field List.mem_cons_self)
            (hcontent field List.mem_cons_self) (encodeAll rest)
          have htail := ih (fun other hother => hnumbered other (List.mem_cons_of_mem _ hother))
            (fun other hother => hcontent other (List.mem_cons_of_mem _ hother)) fuel
            (Nat.le_of_succ_le_succ hfuel)
          -- A field is never empty, so that the reader goes on where one is left.
          cases hbytes : field.encode ++ encodeAll rest with
          | nil =>
              have hpos := field.length_encode_pos
              rw [(List.append_eq_nil_iff.mp hbytes).1] at hpos
              exact absurd hpos (Nat.lt_irrefl _)
          | cons byte bytes =>
              rw [hbytes] at hhead
              simp only [readWith, hhead, htail, Option.bind_eq_bind, Option.bind_some,
                Option.pure_def, List.map_cons]

theorem length_le_length_encodeAll (fields : List WrittenField) :
    fields.length ≤ (encodeAll fields).length := by
  induction fields with
  | nil => exact Nat.le_refl _
  | cons field rest ih =>
      have hpos := field.length_encode_pos
      rw [encodeAll_cons, List.length_cons, List.length_append]
      omega

/-- The fields of an encoding are those that were written. -/
theorem read_encodeAll {fields : List WrittenField}
    (hnumbered : ∀ field ∈ fields, field.Numbered)
    (hlength : (encodeAll fields).length ≤ maxPayloadSize) :
    read (encodeAll fields) = some (fields.map toWire) := by
  apply readWith_encodeAll fields hnumbered
  · intro field hfield
    have hcontent := length_content_le_of_mem hfield
    rw [maxPayloadSize] at hlength
    rw [Varint.paddedMax]
    omega
  · exact length_le_length_encodeAll fields

/-- Merging an encoding takes its fields one by one. -/
theorem merge_encodeAll {α : Type} (step : α → Nat → WireValue → Option α) (message : α)
    {fields : List WrittenField} (hnumbered : ∀ field ∈ fields, field.Numbered)
    (hlength : (encodeAll fields).length ≤ maxPayloadSize) :
    merge step message (encodeAll fields) =
      fields.foldlM (fun message field => step message field.toWire.1 field.toWire.2) message := by
  rw [merge, read_encodeAll hnumbered hlength, Option.bind_eq_bind, Option.bind_some,
    List.foldlM_map]

end Wire

end TelemetryExport
