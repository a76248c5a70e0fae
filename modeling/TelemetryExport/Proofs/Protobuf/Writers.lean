import TelemetryExport.Proofs.Protobuf.Wire

/-! # Writers of fields

Every writer of a field appends the encoding of a list of written fields, and so
does a message around such a writer. What a writer writes is stated as that list;
its bytes, the room it takes and how it fails follow from it.
-/

namespace TelemetryExport

namespace Encode

open WrittenField

/-- The computation appends the encoding of the fields wherever it fits. -/
def WritesFields (action : Encode Unit) (fields : List WrittenField) : Prop :=
  Writes action (encodeAll fields) ()

theorem writesFields_pure : WritesFields (pure ()) [] := writes_pure ()

theorem WritesFields.seq {first second : Encode Unit} {fields others : List WrittenField}
    (hfirst : WritesFields first fields) (hsecond : WritesFields second others) :
    WritesFields (do first; second) (fields ++ others) := by
  rw [WritesFields, encodeAll_append]
  exact Writes.seq hfirst hsecond

theorem WritesFields.forM {ι : Type} {write : ι → Encode Unit} {fields : ι → List WrittenField}
    {items : List ι} (hwrite : ∀ item ∈ items, WritesFields (write item) (fields item)) :
    WritesFields (items.forM write) (items.flatMap fields) := by
  have hbytes : encodeAll (items.flatMap fields) =
      items.flatMap fun item => encodeAll (fields item) :=
    List.flatMap_assoc
  rw [WritesFields, hbytes]
  exact Writes.forM hwrite

/-- A writer that runs only where it is needed. -/
theorem WritesFields.unless {action : Encode Unit} {fields : List WrittenField} (skipped : Bool)
    (haction : skipped = false → WritesFields action fields) :
    WritesFields (unless skipped do action) (if skipped then [] else fields) := by
  cases skipped with
  | true => exact writesFields_pure
  | false => exact haction rfl

theorem WritesFields.seq_refuses {first second : Encode Unit} {fields : List WrittenField}
    {length : Nat} {fault : EncodeError} (hfirst : WritesFields first fields)
    (hsecond : Refuses second length fault) :
    Refuses (do first; second) ((encodeAll fields).length + length) fault :=
  hfirst.bind_refuses hsecond

theorem patchMessage_eq {slot : Slot} {field length : Nat} {buffer : Buffer}
    (hvalid : buffer.Valid) (hcursor : buffer.cursor = slot.valueStart + length) :
    patchMessage slot field buffer =
      .ok () (buffer.patch slot.headerStart (Slot.messageHeader field length).toByteArray) := by
  have hcontent : slot.contentLength buffer = length := by
    rw [Slot.contentLength]
    omega
  have hle := hvalid.cursor_le
  have hcapacity := hvalid.capacity_le
  rw [maxPayloadSize] at hcapacity
  simp only [patchMessage, hcontent]
  rw [if_neg]
  rw [Varint.paddedMax]
  omega

/-- A message is written like its header followed by its content. -/
theorem writes_message {content : Encode Unit} {bytes : List UInt8} (field : Nat)
    (hcontent : Writes content bytes ()) :
    Writes (message field content) (Slot.messageHeader field bytes.length ++ bytes) () := by
  apply Writes.reserve (length_messageHeader field bytes.length) fun _ => hcontent
  intro slot buffer hvalid _ hcursor
  exact patchMessage_eq hvalid hcursor

theorem WritesFields.message {content : Encode Unit} {bytes : List UInt8} (field : Nat)
    (hcontent : Writes content bytes ()) :
    WritesFields (Encode.message field content) [.message field bytes] := by
  rw [WritesFields, encodeAll_singleton]
  exact writes_message field hcontent

end Encode

namespace Field

open Encode WrittenField

theorem writes_writeTag (field : Nat) (wireType : WireType) :
    Writes (writeTag field wireType) (tagBytes field wireType) () :=
  writes_writeVarint _

theorem writesFields_of_writes {action : Encode Unit} {field : WrittenField}
    (hwrites : Writes action field.encode ()) : WritesFields action [field] := by
  rw [WritesFields, encodeAll_singleton]
  exact hwrites

theorem writesFields_writeVarint (field : Nat) (value : UInt64) :
    WritesFields (writeVarint field value) [.varint field value] :=
  writesFields_of_writes ((writes_writeTag field .varint).seq (writes_writeVarint value))

theorem writesFields_writeFixed64 (field : Nat) (value : UInt64) :
    WritesFields (writeFixed64 field value) [.fixed64 field value] :=
  writesFields_of_writes
    ((writes_writeTag field .fixed64).seq (writes_writeLittleEndian 8 value.toNat))

/-- A field with a length and content of that length. -/
theorem writesFields_of_content {content : Encode Unit} {bytes : List UInt8} {length : UInt64}
    (field : Nat) (hlength : length = UInt64.ofNat bytes.length)
    (hcontent : Writes content bytes ()) :
    WritesFields (do
      writeTag field .lengthDelimited
      Encode.writeVarint length
      content) [.bytes field bytes] := by
  subst hlength
  exact writesFields_of_writes
    ((writes_writeTag field .lengthDelimited).seq ((writes_writeVarint _).seq hcontent))

theorem writesFields_writeBytes (field : Nat) (value : ByteArray) :
    WritesFields (writeBytes field value) [.bytes field value.data.toList] :=
  writesFields_of_content field rfl (writes_write value)

theorem writesFields_writeText (field : Nat) (value : String) :
    WritesFields (writeText field value) [.bytes field value.toUTF8.data.toList] :=
  writesFields_writeBytes field _

theorem length_flatMap_digits (values : List UInt64) :
    (values.flatMap fun value => Bytes.digits 8 value.toNat).length = values.length * 8 := by
  induction values with
  | nil => rfl
  | cons value rest ih =>
      rw [List.flatMap_cons, List.length_append, Bytes.length_digits, ih, List.length_cons]
      omega

theorem writesFields_writePackedFixed64 (field : Nat) (values : List UInt64) :
    WritesFields (writePackedFixed64 field values)
      (if values.isEmpty then []
        else [.bytes field (values.flatMap fun value => Bytes.digits 8 value.toNat)]) := by
  apply WritesFields.unless
  intro _
  apply writesFields_of_content field
  · rw [length_flatMap_digits]
  · exact Writes.forM fun value _ => writes_writeLittleEndian 8 value.toNat

theorem length_flatMap_groups (values : List UInt64) :
    (values.flatMap fun value => Varint.groups value.toNat).length = Varint.totalLength values := by
  induction values with
  | nil => rfl
  | cons value rest ih =>
      rw [List.flatMap_cons, List.length_append, ih, ← Varint.length_eq]
      rfl

theorem writesFields_writePackedVarint (field : Nat) (values : List UInt64) :
    WritesFields (writePackedVarint field values)
      (if values.isEmpty then []
        else [.bytes field (values.flatMap fun value => Varint.groups value.toNat)]) := by
  apply WritesFields.unless
  intro _
  apply writesFields_of_content field
  · rw [length_flatMap_groups]
  · exact Writes.forM fun value _ => writes_writeVarint value

end Field

end TelemetryExport
