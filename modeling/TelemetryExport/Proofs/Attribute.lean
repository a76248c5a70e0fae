import TelemetryExport.Proofs.MessagePack.Containers
import TelemetryExport.Proofs.Metric.Decoding

/-! # Attributes in both wire formats

The same attribute is an entry of a map in one wire format and a message of its own in the
other. Nothing is shared between the two writers but the attribute. Here stand a reader of
each format, which knows the format's rules only, and what both make of what is written:
the same key and the same value, up to the last byte and not beyond it. An attribute
without a value is in neither.
-/

namespace TelemetryExport

open MessagePack Encode WrittenField

/-! ## Reading attributes -/

namespace MessagePack.Value

/-- The least and the greatest integer that a scalar can be. -/
def intRange : Int × Int := (-9223372036854775808, 9223372036854775807)

/-- The scalar that a value is, if it is one. -/
def scalar? : Value → Option Scalar
  | text utf8 => (String.fromUTF8? utf8.toByteArray).map .text
  | bool value => some (.bool value)
  | int value =>
      if intRange.1 ≤ value ∧ value ≤ intRange.2 then some (.int (Int64.ofInt value)) else none
  | double bits => some (.double ⟨bits⟩)
  | _ => none

end MessagePack.Value

/-- The attribute that is the first of the entries of a map, and the bytes after it. -/
def readProperty? (bytes : List UInt8) : Option (Attribute × List UInt8) := do
  let (key, rest) ← Value.read bytes
  let (value, rest) ← Value.read rest
  return (⟨← key.string?, ← value.scalar?⟩, rest)

/-- The attribute that is the first of the fields of a message, as field `field`, and the
bytes after it. -/
def readKeyValue? (field : Nat) (bytes : List UInt8) : Option (Attribute × List UInt8) := do
  let ((number, content), rest) ← Wire.readField bytes
  if number = field then
    let message ← Message.keyValue? content
    return (⟨message.key, ← message.value⟩, rest)
  else none

/-! ## What is read of an entry -/

namespace MessagePack

/-- A scalar with a value is read as itself. -/
theorem Value.scalar?_ofScalar {scalar : Scalar} (hvalue : scalar.isNull = false) :
    (Value.ofScalar scalar).scalar? = some scalar := by
  cases scalar with
  | text value => exact congrArg (Option.map Scalar.text) (Value.string?_ofText value)
  | bool value => rfl
  | int value =>
      have hlow : Value.intRange.1 ≤ value.toInt := value.le_toInt
      have hhigh : value.toInt ≤ Value.intRange.2 := Int.le_of_lt_add_one value.toInt_lt
      rw [Value.ofScalar, Value.scalar?, if_pos ⟨hlow, hhigh⟩, Int64.ofInt_toInt]
  | double value => rfl
  | null => cases hvalue

end MessagePack

theorem Attribute.readProperty?_entryBytes {property : Attribute}
    (hvalue : property.value.isNull = false)
    (hlength : property.entryBytes.length ≤ maxPayloadSize) (rest : List UInt8) :
    readProperty? (property.entryBytes ++ rest) = some (property, rest) := by
  rw [entryBytes, List.length_append] at hlength
  have hkey := (encodes_text property.key).read_append (by omega)
    (scalarBytes property.value ++ rest)
  have hscalar := (encodes_scalar property.value).read_append (by omega) rest
  rw [readProperty?, entryBytes, List.append_assoc, hkey]
  simp only [Option.bind_eq_bind, Option.bind_some, hscalar, Value.string?_ofText,
    Value.scalar?_ofScalar hvalue, Option.pure_def]

/-! ## What is read of a message -/

theorem Attribute.readKeyValue?_encode {property : Attribute} {field : Nat}
    (hpos : 0 < field) (hfield : field < 16) (hvalue : property.value.isNull = false)
    (hlength : (WrittenField.message field (encodeAll property.fields)).encode.length ≤
      maxPayloadSize) (rest : List UInt8) :
    readKeyValue? field ((WrittenField.message field (encodeAll property.fields)).encode ++ rest) =
      some (property, rest) := by
  have hcontent : (encodeAll property.fields).length ≤ maxPayloadSize :=
    Nat.le_trans (WrittenField.message field (encodeAll property.fields)).length_content_le hlength
  have hpadded : (encodeAll property.fields).length ≤ Varint.paddedMax :=
    Nat.le_trans hcontent (by decide)
  have hmessage : Message.keyValue? (.bytes (encodeAll property.fields)) =
      some ⟨property.key, some property.value⟩ :=
    property.merge_fields hvalue hcontent
  have hnumbered : (WrittenField.message field (encodeAll property.fields)).Numbered :=
    ⟨hpos, hfield⟩
  have hread := Wire.readField_encode hnumbered hpadded rest
  rw [readKeyValue?, hread]
  simp only [Option.bind_eq_bind, Option.bind_some, toWire, if_true, hmessage, Option.pure_def]

/-! ## Both formats -/

/-- Both formats carry the attribute: the one as an entry of a map, the other as field
`field` of a message. -/
structure Attribute.CarriedAlike (property : Attribute) (field : Nat) : Prop where
  /-- Without a value, neither writes a byte, and no entry is counted. -/
  of_null : property.value = .null → ∀ (map : OpenMap) (buffer : Buffer),
    map.field property.key property.value buffer = .ok map buffer ∧
    writeKeyValue field property.key property.value buffer = .ok () buffer
  /-- With a value, each is written wherever it fits, the entry is counted, and where they
  fit into a payload, each reader takes the attribute and leaves what follows it. -/
  of_value : property.value ≠ .null → ∃ entry message : List UInt8,
    (∀ map : OpenMap, Writes (map.field property.key property.value) entry
      { map with count := map.count + 1 }) ∧
    Writes (writeKeyValue field property.key property.value) message () ∧
    (entry.length ≤ maxPayloadSize → ∀ rest,
      readProperty? (entry ++ rest) = some (property, rest)) ∧
    (message.length ≤ maxPayloadSize → ∀ rest,
      readKeyValue? field (message ++ rest) = some (property, rest))

theorem Attribute.isNull_eq_false {property : Attribute} (hvalue : property.value ≠ .null) :
    property.value.isNull = false := by
  cases hproperty : property.value with
  | null => exact absurd hproperty hvalue
  | _ => rfl

/-- What one reader takes from the one format, the other takes from the other. -/
theorem Attribute.carriedAlike (property : Attribute) {field : Nat} (hpos : 0 < field)
    (hfield : field < 16) : property.CarriedAlike field where
  of_null := by
    intro hnull map buffer
    rw [OpenMap.field, writeKeyValue, hnull]
    exact ⟨rfl, rfl⟩
  of_value := by
    intro hne
    have hvalue := isNull_eq_false hne
    have hmessage := writesFields_writeKeyValue field property
    rw [hvalue, if_neg Bool.false_ne_true, WritesFields, encodeAll_singleton] at hmessage
    refine ⟨property.entryBytes, _, fun map => ?_, hmessage, readProperty?_entryBytes hvalue,
      readKeyValue?_encode hpos hfield hvalue⟩
    have hentry := (OpenMap.adds_entry property.key (emits_scalar property.value)).writes map
    rw [OpenMap.field, hvalue, if_neg Bool.false_ne_true]
    exact hentry

/-- The least integer, under a key of no bytes, in the attributes of a number point. -/
theorem Attribute.carriedAlike_least : 0 < Schema.NumberPoint.properties ∧
    Schema.NumberPoint.properties < 16 ∧
    (Attribute.mk "" (.int Int64.minValue)).CarriedAlike Schema.NumberPoint.properties :=
  ⟨by decide, by decide, carriedAlike _ (by decide) (by decide)⟩

end TelemetryExport
