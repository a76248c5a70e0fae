import TelemetryExport.Proofs.Protobuf.Wire

/-! # Trees of messages

A message consists of leaves and of messages inside it, in any order. Encoded in two
passes, a tree of messages is measured first, so that the header of every message can be
written before its content.

A leaf is any sequence of bytes, so that the bytes of a tree do not tell by themselves
where a leaf ends and whether it is a message. A reader knows this in one of two ways.
It may know the layout, which is how long every leaf is and where messages stand. Or the
leaves are fields themselves, and a schema says which fields are messages.
-/

namespace TelemetryExport

/-- What a message consists of, in order: leaves, and messages inside it with a label each. -/
inductive MessageTree (κ α : Type) where
  | nil
  | leaf (value : α) (rest : MessageTree κ α)
  | node (label : κ) (content rest : MessageTree κ α)
  deriving DecidableEq, Repr

namespace MessageTree

/-- The tree with other labels and other leaves. -/
def map {κ α ι β : Type} (label : κ → ι) (value : α → β) : MessageTree κ α → MessageTree ι β
  | nil => nil
  | leaf first rest => leaf (value first) (rest.map label value)
  | node number content rest =>
      node (label number) (content.map label value) (rest.map label value)

/-- Whether every message is a field whose tag is a single byte. -/
def isNumbered {α : Type} : MessageTree Nat α → Bool
  | nil => true
  | leaf _ rest => rest.isNumbered
  | node number content rest =>
      decide (0 < number ∧ number < 16) && content.isNumbered && rest.isNumbered

/-! ## Encoding in two passes -/

/-- How long the encoding of the tree is. -/
def encodedLength : MessageTree Nat (List UInt8) → Nat
  | nil => 0
  | leaf bytes rest => bytes.length + rest.encodedLength
  | node _ content rest =>
      1 + Varint.paddedLength + content.encodedLength + rest.encodedLength

/-- The tree with the length of its content in front of every message: the tag of the
field, the length in three bytes, and the content. -/
def encode : MessageTree Nat (List UInt8) → List UInt8
  | nil => []
  | leaf bytes rest => bytes ++ rest.encode
  | node number content rest =>
      UInt8.ofNat (number * 8 + WireType.lengthDelimited.code)
        :: Varint.padded content.encodedLength ++ content.encode ++ rest.encode

theorem length_encode (tree : MessageTree Nat (List UInt8)) :
    tree.encode.length = tree.encodedLength := by
  induction tree with
  | nil => rfl
  | leaf bytes rest ih => rw [encode, List.length_append, ih, encodedLength]
  | node number content rest ihContent ihRest =>
      rw [encode, List.length_append, List.length_append, List.length_cons,
        Varint.length_padded, ihContent, ihRest, encodedLength]
      omega

/-- A message stands in the encoding as a field does that holds its content. -/
theorem encode_node (number : Nat) (content rest : MessageTree Nat (List UInt8)) :
    (node number content rest).encode =
      (WrittenField.message number content.encode).encode ++ rest.encode := by
  rw [encode, ← length_encode]
  rfl

/-! ## Reading by a layout -/

/-- How long the leaves are and where the messages stand. What number a message has and how
long it is, the bytes tell. -/
def layout (tree : MessageTree Nat (List UInt8)) : MessageTree Unit Nat :=
  tree.map (fun _ => ()) List.length

/-- The result of a reader that has nothing left to read. -/
def exhausted? {α : Type} : Option (α × List UInt8) → Option α
  | some (result, []) => some result
  | _ => none

/-- Reads a tree of the given layout at the head of the bytes. -/
def readLaid : MessageTree Unit Nat → List UInt8 →
    Option (MessageTree Nat (List UInt8) × List UInt8)
  | nil, bytes => some (nil, bytes)
  | leaf length rest, bytes => do
      let (first, bytes) ← Wire.take? length bytes
      let (rest, bytes) ← rest.readLaid bytes
      return (leaf first rest, bytes)
  | node _ content rest, bytes => do
      let ((number, value), bytes) ← Wire.readField bytes
      match value with
      | .bytes inner => do
          let content ← exhausted? (content.readLaid inner)
          let (rest, bytes) ← rest.readLaid bytes
          return (node number content rest, bytes)
      | _ => none

/-- The tree is read back from its encoding, whatever follows. -/
theorem readLaid_encode {tree : MessageTree Nat (List UInt8)} (hnumbered : tree.isNumbered = true)
    (hlength : tree.encode.length ≤ maxPayloadSize) (following : List UInt8) :
    tree.layout.readLaid (tree.encode ++ following) = some (tree, following) := by
  induction tree generalizing following with
  | nil => rfl
  | leaf bytes rest ih =>
      rw [encode, List.length_append] at hlength
      have hrest := ih hnumbered (by omega) following
      rw [layout] at hrest
      rw [layout, map, readLaid, encode, List.append_assoc, Wire.take?_append _ rfl]
      simp only [Option.bind_eq_bind, Option.bind_some, hrest, Option.pure_def]
  | node number content rest ihContent ihRest =>
      simp only [isNumbered, Bool.and_eq_true, decide_eq_true_eq] at hnumbered
      obtain ⟨⟨hnumber, hcontent⟩, hrest⟩ := hnumbered
      rw [encode_node, List.length_append, WrittenField.encode, List.length_append] at hlength
      rw [maxPayloadSize] at hlength ihContent ihRest
      have hmessage : (WrittenField.message number content.encode).Numbered := hnumber
      have hfield := Wire.readField_encode hmessage
        (by rw [WrittenField.content, Varint.paddedMax]; omega) (rest.encode ++ following)
      rw [WrittenField.toWire] at hfield
      have hinner := ihContent hcontent (by omega) []
      have hafter := ihRest hrest (by omega) following
      rw [List.append_nil] at hinner
      rw [layout] at hinner hafter
      rw [layout, map, readLaid, encode_node, List.append_assoc, hfield]
      simp only [Option.bind_eq_bind, Option.bind_some, hinner, hafter, exhausted?,
        Option.pure_def]

/-! ## Reading by a schema -/

/-- Reads the fields that make up all of the bytes. The schema says of a chain of field
numbers, from the outside in, whether the field at its end is a message. Every field takes a
byte, so the number of bytes bounds the number of fields. -/
def readFields (isMessage : List Nat → Bool) :
    Nat → List Nat → List UInt8 → Option (MessageTree Nat (Nat × WireValue))
  | _, _, [] => some nil
  | 0, _, _ :: _ => none
  | fuel + 1, path, byte :: bytes => do
      let ((number, value), following) ← Wire.readField (byte :: bytes)
      let rest ← readFields isMessage fuel path following
      match isMessage (path ++ [number]), value with
      | true, .bytes inner =>
          return node number (← readFields isMessage fuel (path ++ [number]) inner) rest
      | _, value => return leaf (number, value) rest

/-- Whether the leaves are fields, and the messages are those of the schema. -/
def conforms (isMessage : List Nat → Bool) : List Nat → MessageTree Nat WrittenField → Bool
  | _, nil => true
  | path, leaf field rest =>
      decide (0 < field.number ∧ field.number < 16) && !isMessage (path ++ [field.number])
        && conforms isMessage path rest
  | path, node number content rest =>
      decide (0 < number ∧ number < 16) && isMessage (path ++ [number])
        && conforms isMessage (path ++ [number]) content && conforms isMessage path rest

/-- The tree of the bytes that are written for a tree of fields. -/
def ofFields (fields : MessageTree Nat WrittenField) : MessageTree Nat (List UInt8) :=
  fields.map id WrittenField.encode

/-- The reader goes on where a field is left. -/
theorem readFields_encode_append {isMessage : List Nat → Bool} {field : WrittenField}
    (hnumbered : field.Numbered) (hcontent : field.content.length ≤ Varint.paddedMax)
    (fuel : Nat) (path : List Nat) (following : List UInt8) :
    readFields isMessage (fuel + 1) path (field.encode ++ following) = (do
      let rest ← readFields isMessage fuel path following
      match isMessage (path ++ [field.toWire.1]), field.toWire.2 with
      | true, .bytes inner =>
          return node field.toWire.1
            (← readFields isMessage fuel (path ++ [field.toWire.1]) inner) rest
      | _, value => return leaf (field.toWire.1, value) rest) := by
  have hfield := Wire.readField_encode hnumbered hcontent following
  have hpos := field.length_encode_pos
  cases hbytes : field.encode ++ following with
  | nil =>
      rw [(List.append_eq_nil_iff.mp hbytes).1] at hpos
      exact absurd hpos (Nat.lt_irrefl _)
  | cons byte bytes =>
      rw [hbytes] at hfield
      simp only [readFields, hfield, Option.bind_eq_bind, Option.bind_some]

/-- The tree of fields is read back by every schema that it conforms to. -/
theorem readFields_encode {isMessage : List Nat → Bool} {fields : MessageTree Nat WrittenField}
    {path : List Nat} (hconforms : fields.conforms isMessage path = true)
    (hlength : fields.ofFields.encode.length ≤ maxPayloadSize) {fuel : Nat}
    (hfuel : fields.ofFields.encode.length ≤ fuel) :
    readFields isMessage fuel path fields.ofFields.encode =
      some (fields.map id WrittenField.toWire) := by
  induction fields generalizing path fuel with
  | nil => cases fuel <;> rfl
  | leaf field rest ih =>
      simp only [conforms, Bool.and_eq_true, decide_eq_true_eq, Bool.not_eq_true'] at hconforms
      obtain ⟨⟨hnumber, hleaf⟩, hrest⟩ := hconforms
      have hpos := field.length_encode_pos
      have hcontent := field.length_content_le
      change (field.encode ++ rest.ofFields.encode).length ≤ _ at hlength hfuel
      rw [List.length_append] at hlength hfuel
      rw [maxPayloadSize] at hlength ih
      obtain ⟨fuel, rfl⟩ : ∃ less, fuel = less + 1 := ⟨fuel - 1, by omega⟩
      change readFields isMessage (fuel + 1) path (field.encode ++ rest.ofFields.encode) = _
      rw [readFields_encode_append hnumber (by rw [Varint.paddedMax]; omega),
        ih hrest (by omega) (by omega)]
      have hwire : field.toWire.1 = field.number := by cases field <;> rfl
      rw [← hwire] at hleaf
      simp only [Option.bind_eq_bind, Option.bind_some, hleaf, map]
      rfl
  | node number content rest ihContent ihRest =>
      simp only [conforms, Bool.and_eq_true, decide_eq_true_eq] at hconforms
      obtain ⟨⟨⟨hnumber, hmessage⟩, hinner⟩, hrest⟩ := hconforms
      have hencode : (node number content rest).ofFields.encode =
          (WrittenField.message number content.ofFields.encode).encode ++
            rest.ofFields.encode := encode_node ..
      rw [hencode, List.length_append, WrittenField.encode, List.length_append,
        WrittenField.length_messageHeader] at hlength hfuel
      change 4 + content.ofFields.encode.length + _ ≤ _ at hfuel
      rw [maxPayloadSize] at hlength ihContent ihRest
      obtain ⟨fuel, rfl⟩ : ∃ less, fuel = less + 1 := ⟨fuel - 1, by omega⟩
      have hfield : (WrittenField.message number content.ofFields.encode).Numbered := hnumber
      have hshort : content.ofFields.encode.length ≤ fuel := by omega
      rw [hencode, readFields_encode_append hfield
        (by rw [WrittenField.content, Varint.paddedMax]; omega),
        ihRest hrest (by omega) (by omega)]
      simp only [WrittenField.toWire, Option.bind_eq_bind, Option.bind_some, hmessage,
        ihContent hinner (by omega) hshort, map]
      rfl

end MessageTree

end TelemetryExport
