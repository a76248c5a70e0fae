import TelemetryExport.Proofs.Record.Append

/-! # Attributes in another order

The attributes of a span come in no fixed order. Whether one gives way to another depends
on which attributes there are and not on where they stand, so that the same ones are
written in every order, each under the same name and in the same map. Two spans that differ
by the order alone therefore have encodings of one length, which differ by the order alone.
-/

namespace TelemetryExport

open MessagePack Encode

/-! ## Entries in another order -/

section Properties

variable {columns others deferred rest : List Attribute}

/-- The nested map is there in both orders or in neither. -/
theorem eq_nil_iff_of_perm (hdeferred : deferred.Perm rest) : rest = [] ↔ deferred = [] := by
  constructor
  · rintro rfl
    exact hdeferred.eq_nil
  · rintro rfl
    exact hdeferred.symm.eq_nil

theorem length_propertyEntries_of_perm (hcolumns : columns.Perm others)
    (hdeferred : deferred.Perm rest) :
    (propertyEntries others rest).length = (propertyEntries columns deferred).length := by
  simp only [propertyEntries, eq_nil_iff_of_perm hdeferred, List.length_append, List.length_map,
    hcolumns.length_eq]
  split <;> rfl

/-- The bytes of properties in another order are the same bytes in another order. -/
theorem perm_propertyBytes (hcolumns : columns.Perm others) (hdeferred : deferred.Perm rest) :
    (propertyBytes columns deferred).Perm (propertyBytes others rest) := by
  rw [propertyBytes, propertyBytes]
  apply (hcolumns.flatMap_right Attribute.entryBytes).append
  simp only [eq_nil_iff_of_perm hdeferred, hdeferred.length_eq]
  split
  · exact List.Perm.refl _
  · exact ((hdeferred.flatMap_right Attribute.entryBytes).append_left _).append_left _

end Properties

namespace SpanEncoder

variable (configured : List Attribute) (listed : Option (List String))
  {properties others : List Attribute}

theorem isDisplaced_eq_of_perm (hperm : properties.Perm others) (property : Attribute) :
    isDisplaced configured listed others property =
      isDisplaced configured listed properties property := by
  rw [isDisplaced, isDisplaced, hperm.any_eq]

theorem perm_columnAttributes (hperm : properties.Perm others) :
    (columnAttributes configured listed properties).Perm
      (columnAttributes configured listed others) :=
  hperm.filterMap _

theorem perm_deferredAttributes (hperm : properties.Perm others) :
    (deferredAttributes configured listed properties).Perm
      (deferredAttributes configured listed others) :=
  hperm.filter _

end SpanEncoder

/-! ## Spans in another order -/

namespace Span

variable {span : Span} {attributes : SpanAttributes}

theorem perm_attributesAs (hperm : span.attributes.Perm attributes) :
    span.attributesAs.Perm { span with attributes }.attributesAs :=
  hperm.map _

variable (configured : List Attribute) (listed : Option (List String))

theorem perm_writtenColumns (hperm : span.attributes.Perm attributes) :
    (span.writtenColumns configured listed).Perm
      ({ span with attributes }.writtenColumns configured listed) := by
  have hattributes := perm_attributesAs hperm
  unfold writtenColumns
  apply SpanEncoder.perm_columnAttributes
  simp only [SpanEncoder.isDisplaced_eq_of_perm configured listed hattributes]
  exact hattributes.filter _

theorem perm_writtenDeferred (hperm : span.attributes.Perm attributes) :
    (span.writtenDeferred configured listed).Perm
      ({ span with attributes }.writtenDeferred configured listed) :=
  SpanEncoder.perm_deferredAttributes configured listed (perm_attributesAs hperm)

theorem length_envelopeBytes_of_perm (table : String) (hperm : span.attributes.Perm attributes) :
    ({ span with attributes }.envelopeBytes table configured listed).length =
      (span.envelopeBytes table configured listed).length := by
  have hcolumns := perm_writtenColumns configured listed hperm
  have hdeferred := perm_writtenDeferred configured listed hperm
  have hcount := length_propertyEntries_of_perm hcolumns hdeferred
  have hbytes := (perm_propertyBytes hcolumns hdeferred).length_eq
  have hown : { span with attributes }.columns = span.columns := rfl
  have hentries : ∀ start,
    { span with attributes }.columnEntries start = span.columnEntries start := fun _ => rfl
  simp only [envelopeBytes, RecordTemplate.recordBytes, List.length_append, hown, hentries,
    hcount, hbytes]

/-- The fields of a span's envelope that are none of its attributes. They come first. -/
def ownEntries (span : Span) (table : String) (start : Value) : List (Value × Value) :=
  (RecordTemplate.partAFields table configured).map Attribute.entry ++ span.columnEntries start

/-- Two encodings of a span are read as envelopes of one table and one time. They have the
same fields in the same order but for the span's attributes, which come in two orders of
the same columns and of the same entries of the nested map, with each key once. -/
def ReadReordered (span : Span) (table : String) (bytes others : List UInt8) : Prop :=
  ∃ (stamp start : Value) (columns columns' deferred deferred' : List Attribute),
    Value.timestamp? stamp = some (span.endTime.seconds.toInt, span.endTime.nanoseconds.val) ∧
    Value.timestamp? start =
      some (span.startTime.seconds.toInt, span.startTime.nanoseconds.val) ∧
    Value.read bytes = some (envelope table stamp
      (span.ownEntries configured table start ++ propertyEntries columns deferred), []) ∧
    Value.read others = some (envelope table stamp
      (span.ownEntries configured table start ++ propertyEntries columns' deferred'), []) ∧
    columns.Perm columns' ∧ (columns.map Attribute.key).Nodup ∧
    deferred.Perm deferred' ∧ (deferred.map Attribute.key).Nodup

end Span

namespace SpanEncoder

variable {configured : List Attribute} {listed : Option (List String)} {span : Span}
  {attributes : SpanAttributes}

/-- Where a span's start or end is refused, it is before any attribute is looked at. -/
theorem exists_error_reordered (encoder : SpanEncoder) (hrange : ¬span.IsInCalendar)
    (attributes : SpanAttributes) (buffer : Buffer) :
    ∃ fault left, encoder.encode span buffer = .error fault left ∧
      encoder.encode { span with attributes } buffer = .error fault left := by
  cases hopen : encoder.template.openRecord span.endTime buffer with
  | error fault left => exact ⟨fault, left, bind_of_error hopen, bind_of_error hopen⟩
  | ok map opened =>
      cases hcolumns : writeColumns map span.columns opened with
      | error fault left =>
          refine ⟨fault, left, ?_, ?_⟩
          · rw [encode, bind_of_ok hopen]
            exact bind_of_error hcolumns
          · rw [encode, bind_of_ok hopen]
            exact bind_of_error hcolumns
      | ok filled after =>
          have hstart : (Column.startTime, SpanCell.time span.startTime) ∈ span.columns := by
            simp [Span.columns]
          exact absurd ⟨Span.inCalendar_of_writeColumns hcolumns _ hstart,
            RecordTemplate.inCalendar_of_openRecord hopen⟩ hrange

variable (configured listed) in
theorem emits_envelopeBytes (table : String) (span : Span) (hrange : span.IsInCalendar)
    (hkeys : (span.attributes.map (·.1)).Nodup) :
    Emits (encode ⟨RecordTemplate.ofParts table configured, listed⟩ span)
      (span.envelopeBytes table configured listed)
      (envelope table (.ofTime span.endTime)
        (span.ownEntries configured table (.ofTime span.startTime) ++
          propertyEntries (span.writtenColumns configured listed)
            (span.writtenDeferred configured listed))) := by
  rw [Span.ownEntries, List.append_assoc, ← Span.fieldsWith_eq]
  exact emits_encode table hrange.1 hrange.2 hkeys

theorem nodup_writtenColumns (hkeys : (span.attributes.map (·.1)).Nodup) :
    ((span.writtenColumns configured listed).map Attribute.key).Nodup := by
  rw [← placedColumns_span "" hkeys]
  exact RecordTemplate.nodup_placedColumns _ _ _

theorem nodup_writtenDeferred (hkeys : (span.attributes.map (·.1)).Nodup) :
    ((span.writtenDeferred configured listed).map Attribute.key).Nodup := by
  rw [← placedDeferred_span "" hkeys]
  exact RecordTemplate.nodup_placedDeferred _ _ _

theorem readReordered_envelopeBytes (table : String) (hrange : span.IsInCalendar)
    (hkeys : (span.attributes.map (·.1)).Nodup) (hperm : span.attributes.Perm attributes)
    (hfits : (span.envelopeBytes table configured listed).length ≤ maxPayloadSize) :
    span.ReadReordered configured table (span.envelopeBytes table configured listed)
      ({ span with attributes }.envelopeBytes table configured listed) := by
  have hothers : (attributes.map (·.1)).Nodup := (hperm.map _).nodup_iff.mp hkeys
  have hlength := Span.length_envelopeBytes_of_perm configured listed table hperm
  have hspan := (emits_envelopeBytes configured listed table span hrange hkeys).encodes.read hfits
  have hother := (emits_envelopeBytes configured listed table { span with attributes } hrange
    hothers).encodes.read (hlength ▸ hfits)
  exact ⟨.ofTime span.endTime, .ofTime span.startTime, _, _, _, _,
    Value.timestamp?_ofTime span.endTime, Value.timestamp?_ofTime span.startTime, hspan, hother,
    Span.perm_writtenColumns configured listed hperm, nodup_writtenColumns hkeys,
    Span.perm_writtenDeferred configured listed hperm, nodup_writtenDeferred hkeys⟩

/-- Two spans that differ by the order of their attributes fare alike in every buffer. Both
are refused, or both overflow, or both are written, with as many bytes and with the same
fields, of which those that are attributes come in another order. -/
theorem encode_reordered {table : String} {encoder : SpanEncoder}
    (hmake : make table configured listed = .ok encoder)
    (hkeys : (span.attributes.map (·.1)).Nodup) (hperm : span.attributes.Perm attributes) :
    (¬span.IsInCalendar → ∀ buffer, ∃ fault left,
      encoder.encode span buffer = .error fault left ∧
      encoder.encode { span with attributes } buffer = .error fault left) ∧
    (span.IsInCalendar → ∃ bytes others : List UInt8, others.length = bytes.length ∧
      ∀ buffer : Buffer, buffer.Valid →
        (buffer.cursor + bytes.length ≤ buffer.capacity → ∃ after other,
          encoder.encode span buffer = .ok () after ∧
          encoder.encode { span with attributes } buffer = .ok () other ∧
          after.bytes = buffer.bytes ++ bytes ∧ other.bytes = buffer.bytes ++ others ∧
          span.ReadReordered configured table bytes others) ∧
        (buffer.capacity < buffer.cursor + bytes.length → ∃ fault left cause rest,
          encoder.encode span buffer = .error fault left ∧
          encoder.encode { span with attributes } buffer = .error cause rest ∧
          fault.isOverflow = true ∧ cause.isOverflow = true)) := by
  refine ⟨fun hrange => encoder.exists_error_reordered hrange attributes, ?_⟩
  intro hrange
  obtain rfl := eq_of_make hmake
  have hothers : (attributes.map (·.1)).Nodup := (hperm.map _).nodup_iff.mp hkeys
  have hlength := Span.length_envelopeBytes_of_perm configured listed table hperm
  have hspan := (emits_envelopeBytes configured listed table span hrange hkeys).writes
  have hother := (emits_envelopeBytes configured listed table { span with attributes } hrange
    hothers).writes
  refine ⟨_, _, hlength, fun buffer hvalid => ⟨fun hroom => ?_, fun hroom => ?_⟩⟩
  · have hcapacity := hvalid.capacity_le
    have hfits := hlength.symm ▸ hroom
    exact ⟨_, _, hspan.appends buffer hvalid hroom, hother.appends buffer hvalid hfits,
      Buffer.bytes_append hroom, Buffer.bytes_append hfits,
      readReordered_envelopeBytes table hrange hkeys hperm (by omega)⟩
  · obtain ⟨_, _, left, hfault, -⟩ := hspan.overflows buffer hvalid hroom
    obtain ⟨_, _, rest, hcause, -⟩ := hother.overflows buffer hvalid (hlength.symm ▸ hroom)
    exact ⟨_, left, _, rest, hfault, hcause, rfl, rfl⟩

/-- The attribute that is renamed to `dbSystem` takes the place of the one of that key, and
it does so from behind as well. -/
theorem encode_reordered_colliding :
    make "Span" [] none = .ok ⟨RecordTemplate.ofParts "Span" [], none⟩ ∧
    (collidingSpan.attributes.map (·.1)).Nodup ∧
    collidingSpan.attributes.Perm collidingSpan.attributes.reverse ∧
    collidingSpan.IsInCalendar ∧
    ∃ bytes others : List UInt8, others.length = bytes.length ∧
      ∀ buffer : Buffer, buffer.Valid → buffer.cursor + bytes.length ≤ buffer.capacity →
        ∃ after other,
          encode ⟨RecordTemplate.ofParts "Span" [], none⟩ collidingSpan buffer = .ok () after ∧
          encode ⟨RecordTemplate.ofParts "Span" [], none⟩
            { collidingSpan with attributes := collidingSpan.attributes.reverse } buffer =
              .ok () other ∧
          after.bytes = buffer.bytes ++ bytes ∧ other.bytes = buffer.bytes ++ others ∧
          collidingSpan.ReadReordered [] "Span" bytes others := by
  have hrange : collidingSpan.IsInCalendar := ⟨by decide, by decide⟩
  have hkeys : (collidingSpan.attributes.map (·.1)).Nodup := by decide
  have hperm := (List.reverse_perm collidingSpan.attributes).symm
  obtain ⟨bytes, others, hlength, hencode⟩ :=
    (encode_reordered make_colliding hkeys hperm).2 hrange
  exact ⟨make_colliding, hkeys, hperm, hrange, bytes, others, hlength,
    fun buffer hvalid => (hencode buffer hvalid).1⟩

end SpanEncoder

end TelemetryExport
