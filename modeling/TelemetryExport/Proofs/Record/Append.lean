import TelemetryExport.Proofs.Record.LogEnvelope
import TelemetryExport.Proofs.Record.SpanEncoder

/-! # Records one after the other

A record has one encoding, and a buffer gets all of it or nothing. Where the encoding
fits, it is appended, whatever the buffer held before; where it does not, the fault is an
overflow, and taken back the buffer shows what it showed before. Records that are written
in a row are therefore their encodings in a row, without those that found too little room.
-/

namespace TelemetryExport

open MessagePack Encode

/-! ## Computations with one encoding -/

section

variable {α : Type}

/-- Writes records one after the other. Where one fails, the buffer is taken back to where
it began. -/
def Encode.appendEach (serialize : α → Encode Unit) : List α → Buffer → Buffer
  | [], buffer => buffer
  | record :: rest, buffer =>
      match serialize record buffer with
      | .ok _ after => appendEach serialize rest after
      | .error _ left => appendEach serialize rest (left.rewind buffer.checkpoint)

/-- The records whose encodings fit into so much room, each behind those before it. -/
def fitting (encoding : α → List UInt8) : Nat → List α → List α
  | _, [] => []
  | room, record :: rest =>
      if (encoding record).length ≤ room then
        record :: fitting encoding (room - (encoding record).length) rest
      else fitting encoding room rest

/-- The records that are in range have one encoding each, in every buffer. -/
structure AppendsEncoding (serialize : α → Encode Unit) (inRange : α → Prop)
    (encoding : α → List UInt8) : Prop where
  /-- By itself, a record is its encoding. -/
  run_eq : ∀ record, inRange record → (encoding record).length ≤ maxPayloadSize →
    (serialize record).run = .ok ((), (encoding record).toByteArray)
  /-- A record is written exactly where its encoding fits. -/
  ok_iff : ∀ record, inRange record → ∀ buffer : Buffer, buffer.Valid →
    ((∃ after, serialize record buffer = .ok () after) ↔
      buffer.cursor + (encoding record).length ≤ buffer.capacity)
  /-- Its encoding is then what was appended. -/
  of_ok : ∀ record, inRange record → ∀ buffer after : Buffer, buffer.Valid →
    serialize record buffer = .ok () after →
      after.bytes = buffer.bytes ++ encoding record ∧
      after.cursor = buffer.cursor + (encoding record).length ∧
      after.capacity = buffer.capacity
  /-- Elsewhere a write within the encoding went past the end of the buffer, and the bytes
  before the record are untouched. -/
  of_error : ∀ record, inRange record → ∀ (buffer left : Buffer) (fault : EncodeError),
    buffer.Valid → serialize record buffer = .error fault left →
      (∃ offset requested, fault = .bufferOverflow offset requested buffer.capacity ∧
        buffer.cursor ≤ offset ∧ offset ≤ buffer.capacity ∧
        buffer.capacity < offset + requested ∧
        offset + requested ≤ buffer.cursor + (encoding record).length) ∧
      left.cells.take buffer.cursor = buffer.bytes ∧ left.capacity = buffer.capacity
  /-- Records in a row leave the encodings of those that fitted. -/
  bytes_appendEach : ∀ records : List α, (∀ record ∈ records, inRange record) →
    ∀ buffer : Buffer, buffer.Valid →
      (appendEach serialize records buffer).bytes =
        buffer.bytes ++ (fitting encoding buffer.remaining records).flatMap encoding

variable {serialize : α → Encode Unit} {inRange : α → Prop} {encoding : α → List UInt8}

theorem bytes_appendEach_of_writes
    (hwrites : ∀ record, inRange record → Writes (serialize record) (encoding record) ())
    {records : List α} (hrange : ∀ record ∈ records, inRange record) {buffer : Buffer}
    (hvalid : buffer.Valid) :
    (appendEach serialize records buffer).bytes =
      buffer.bytes ++ (fitting encoding buffer.remaining records).flatMap encoding := by
  -- On the records to come. What the buffer holds already matters by its room only.
  induction records generalizing buffer with
  | nil => exact (List.append_nil _).symm
  | cons record rest ih =>
      have hrest : ∀ other ∈ rest, inRange other :=
        fun other hmem => hrange other (List.mem_cons_of_mem _ hmem)
      have hrecord := hwrites record (hrange record List.mem_cons_self)
      have hcursor := hvalid.cursor_le
      by_cases hroom : buffer.cursor + (encoding record).length ≤ buffer.capacity
      · have hremaining : (buffer.append (encoding record)).remaining =
            buffer.remaining - (encoding record).length := by
          rw [Buffer.remaining, Buffer.remaining, Buffer.cursor_append,
            Buffer.capacity_append hroom, Nat.sub_sub]
        have hfits : (encoding record).length ≤ buffer.remaining := by
          rw [Buffer.remaining]
          omega
        rw [appendEach, hrecord.appends buffer hvalid hroom, fitting, if_pos hfits,
          List.flatMap_cons]
        simp only
        rw [ih hrest (Buffer.append_valid hvalid hroom), hremaining, Buffer.bytes_append hroom,
          List.append_assoc]
      · have hunfit : ¬(encoding record).length ≤ buffer.remaining := by
          rw [Buffer.remaining]
          omega
        obtain ⟨offset, requested, left, hfault, hextends, -⟩ :=
          hrecord.overflows buffer hvalid (Nat.lt_of_not_le hroom)
        rw [appendEach, hfault, fitting, if_neg hunfit]
        simp only
        rw [ih hrest (hextends.rewind_valid hvalid), hextends.remaining_rewind,
          hextends.bytes_rewind]

/-- What is known to write its bytes wherever they fit has these for its encoding. -/
theorem appendsEncoding_of_writes
    (hwrites : ∀ record, inRange record → Writes (serialize record) (encoding record) ()) :
    AppendsEncoding serialize inRange encoding where
  run_eq := fun record hrecord hlength => (hwrites record hrecord).run_eq hlength
  ok_iff := by
    intro record hrecord buffer hvalid
    rw [← (hwrites record hrecord).ok_iff hvalid]
    exact ⟨fun ⟨after, hok⟩ => ⟨(), after, hok⟩, fun ⟨_, after, hok⟩ => ⟨after, hok⟩⟩
  of_ok := by
    intro record hrecord buffer after hvalid hok
    obtain ⟨hroom, -, rfl⟩ := (hwrites record hrecord).of_ok hvalid hok
    exact ⟨Buffer.bytes_append hroom, Buffer.cursor_append _ _, Buffer.capacity_append hroom⟩
  of_error := by
    intro record hrecord buffer left fault hvalid herror
    have hroom := ((hwrites record hrecord).of_error hvalid herror).1
    obtain ⟨offset, requested, kept, hfault, hextends, hwhere⟩ :=
      (hwrites record hrecord).overflows buffer hvalid hroom
    rw [hfault] at herror
    cases herror
    exact ⟨⟨offset, requested, rfl, hwhere⟩, hextends.take_cells, hextends.capacity_eq⟩
  bytes_appendEach := fun _ hrange _ hvalid => bytes_appendEach_of_writes hwrites hrange hvalid

end

/-! ## Encoders of records -/

theorem LogEncoder.appendsEncoding_of_make {table : String} {mappings : List (String × String)}
    {configured : List Attribute} {listed : Option (List String)} {encoder : LogEncoder}
    (hmake : LogEncoder.make table mappings configured listed = .ok encoder) :
    AppendsEncoding encoder.encode (fun record => record.time.inCalendar = true) fun record =>
      record.envelopeBytes (LogEncoder.tableFor table mappings record.category) configured
        listed := by
  apply appendsEncoding_of_writes
  intro record htime
  rw [← (LogEncoder.routed_of_make hmake).tableOf_eq]
  exact ((LogEncoder.configured_of_make hmake).emits_encode htime).writes

/-- The bytes of a span's envelope, wherever its attributes are placed. -/
def SpanEncoder.placedBytes (encoder : SpanEncoder) (table : String)
    (configured : List Attribute) (span : Span) : List UInt8 :=
  let columns := encoder.template.placedColumns encoder.choose span.properties
  let deferred := encoder.template.placedDeferred encoder.choose span.properties
  RecordTemplate.recordBytes table configured span.endTime
    (span.columnEntries (.ofTime span.startTime) ++ propertyEntries columns deferred).length
    (span.columns.flatMap Span.columnBytes ++ propertyBytes columns deferred)

/-- The start and the end of the span lie in the calendar. -/
def Span.IsInCalendar (span : Span) : Prop :=
  span.startTime.inCalendar = true ∧ span.endTime.inCalendar = true

section

variable {table : String} {configured : List Attribute} {listed : Option (List String)}
  {encoder : SpanEncoder}

theorem SpanEncoder.appendsEncoding_of_make
    (hmake : SpanEncoder.make table configured listed = .ok encoder) :
    AppendsEncoding encoder.encode Span.IsInCalendar (encoder.placedBytes table configured) := by
  obtain rfl := SpanEncoder.eq_of_make hmake
  exact appendsEncoding_of_writes fun _ hrange =>
    (SpanEncoder.emits_placed table hrange.1 hrange.2 rfl rfl).writes

/-- Attributes with different keys are placed by the configuration alone. -/
theorem SpanEncoder.placedBytes_of_make
    (hmake : SpanEncoder.make table configured listed = .ok encoder) {span : Span}
    (hkeys : (span.attributes.map (·.1)).Nodup) :
    encoder.placedBytes table configured span = span.envelopeBytes table configured listed := by
  obtain rfl := SpanEncoder.eq_of_make hmake
  simp only [placedBytes, placedColumns_span table hkeys, placedDeferred_span table hkeys,
    Span.envelopeBytes]

end

/-- Unless there are too many of them, the bytes are read as one envelope. -/
def ReadsAsEnvelope (bytes : List UInt8) (table : String) (time : Time)
    (fields : List (Value × Value)) : Prop :=
  bytes.length ≤ maxPayloadSize → ∃ stamp,
    Value.timestamp? stamp = some (time.seconds.toInt, time.nanoseconds.val) ∧
    Value.read bytes = some (envelope table stamp fields, [])

theorem MessagePack.Emits.readsAsEnvelope {action : Encode Unit} {bytes : List UInt8}
    {table : String} {time : Time} {fields : List (Value × Value)}
    (hemits : Emits action bytes (envelope table (.ofTime time) fields)) :
    ReadsAsEnvelope bytes table time fields := fun hlength =>
  ⟨.ofTime time, Value.timestamp?_ofTime time, hemits.encodes.read hlength⟩

/-- Every record of every encoder has one encoding, its envelope: in every buffer it is
appended as a whole, or the write overflows and nothing comes of it. -/
theorem appendsEnvelopes_of_make :
    (∀ (table : String) (mappings : List (String × String)) (configured : List Attribute)
        (listed : Option (List String)) (encoder : LogEncoder),
      LogEncoder.make table mappings configured listed = .ok encoder →
      AppendsEncoding encoder.encode (fun record => record.time.inCalendar = true) (fun record =>
        record.envelopeBytes (LogEncoder.tableFor table mappings record.category) configured
          listed) ∧
      ∀ (record : LogRecord) (target : String), record.time.inCalendar = true →
        LogEncoder.tableFor table mappings record.category = target →
        ReadsAsEnvelope (record.envelopeBytes target configured listed) target record.time
          (record.fieldEntries target configured listed)) ∧
    ∀ (table : String) (configured : List Attribute) (listed : Option (List String))
        (encoder : SpanEncoder),
      SpanEncoder.make table configured listed = .ok encoder →
      AppendsEncoding encoder.encode Span.IsInCalendar (encoder.placedBytes table configured) ∧
      ∀ span : Span, span.IsInCalendar → (span.attributes.map (·.1)).Nodup →
        encoder.placedBytes table configured span = span.envelopeBytes table configured listed ∧
        ∃ start, Value.timestamp? start =
            some (span.startTime.seconds.toInt, span.startTime.nanoseconds.val) ∧
          ReadsAsEnvelope (span.envelopeBytes table configured listed) table span.endTime
            (span.fieldEntries table configured listed start) := by
  constructor
  · intro table mappings configured listed encoder hmake
    refine ⟨LogEncoder.appendsEncoding_of_make hmake, ?_⟩
    rintro record target htime rfl
    have hemits := (LogEncoder.configured_of_make hmake).emits_encode htime
    rw [(LogEncoder.routed_of_make hmake).tableOf_eq] at hemits
    exact hemits.readsAsEnvelope
  · intro table configured listed encoder hmake
    refine ⟨SpanEncoder.appendsEncoding_of_make hmake, fun span hrange hkeys => ?_⟩
    exact ⟨SpanEncoder.placedBytes_of_make hmake hkeys, .ofTime span.startTime,
      Value.timestamp?_ofTime span.startTime,
      (SpanEncoder.emits_encode table hrange.1 hrange.2 hkeys).readsAsEnvelope⟩

/-- A record that has neither a category nor anything else that may be left out. -/
def LogEncoder.bareRecord : LogRecord where
  time := .epoch
  severity := .error

/-- The bytes of a record and of a span. -/
theorem appendsEnvelopes_of_samples :
    AppendsEncoding LogEncoder.sampleEncoder.encode (fun record => record.time.inCalendar = true)
      (fun record => record.envelopeBytes (LogEncoder.tableFor "Log" [] record.category)
        LogEncoder.sampleFields (some ["user"])) ∧
    (LogEncoder.sampleEncoder.encode LogEncoder.bareRecord).run = .ok ((), List.toByteArray
      [147, 163, 76, 111, 103, 145, 146, 199, 12, 255, 0, 0, 0, 0, 0, 0, 0, 0, 0, 0, 0, 0, 222,
       0, 5, 168, 101, 110, 118, 95, 110, 97, 109, 101, 163, 76, 111, 103, 170, 99, 108, 111,
       117, 100, 46, 114, 111, 108, 101, 163, 97, 112, 105, 172, 115, 101, 118, 101, 114, 105,
       116, 121, 84, 101, 120, 116, 165, 69, 114, 114, 111, 114, 174, 115, 101, 118, 101, 114,
       105, 116, 121, 78, 117, 109, 98, 101, 114, 17, 164, 110, 97, 109, 101, 163, 76, 111, 103,
       129, 170, 84, 105, 109, 101, 70, 111, 114, 109, 97, 116, 168, 68, 97, 116, 101, 84, 105,
       109, 101]) ∧
    AppendsEncoding (SpanEncoder.encode ⟨RecordTemplate.ofParts "Span" [], none⟩)
      Span.IsInCalendar (SpanEncoder.placedBytes ⟨RecordTemplate.ofParts "Span" [], none⟩
        "Span" []) ∧
    (SpanEncoder.encode ⟨RecordTemplate.ofParts "Span" [], none⟩
      SpanEncoder.collidingSpan).run = .ok ((), List.toByteArray
      [147, 164, 83, 112, 97, 110, 145, 146, 199, 12, 255, 0, 0, 0, 0, 0, 0, 0, 0, 0, 0, 0, 0,
       222, 0, 8, 168, 101, 110, 118, 95, 110, 97, 109, 101, 164, 83, 112, 97, 110, 174, 101,
       110, 118, 95, 100, 116, 95, 116, 114, 97, 99, 101, 73, 100, 217, 32, 48, 48, 48, 48, 48,
       48, 48, 48, 48, 48, 48, 48, 48, 48, 48, 48, 48, 48, 48, 48, 48, 48, 48, 48, 48, 48, 48,
       48, 48, 48, 48, 48, 173, 101, 110, 118, 95, 100, 116, 95, 115, 112, 97, 110, 73, 100, 176,
       48, 48, 48, 48, 48, 48, 48, 48, 48, 48, 48, 48, 48, 48, 48, 48, 164, 110, 97, 109, 101,
       165, 113, 117, 101, 114, 121, 164, 107, 105, 110, 100, 2, 169, 115, 116, 97, 114, 116, 84,
       105, 109, 101, 199, 12, 255, 0, 0, 0, 0, 0, 0, 0, 0, 0, 0, 0, 0, 167, 115, 117, 99, 99,
       101, 115, 115, 195, 168, 100, 98, 83, 121, 115, 116, 101, 109, 165, 109, 121, 115, 113,
       108, 129, 170, 84, 105, 109, 101, 70, 111, 114, 109, 97, 116, 168, 68, 97, 116, 101, 84,
       105, 109, 101]) := by
  obtain ⟨hlog, -⟩ := appendsEnvelopes_of_make.1 _ _ _ _ _ LogEncoder.make_sample
  obtain ⟨hspan, hspans⟩ := appendsEnvelopes_of_make.2 _ _ _ _ SpanEncoder.make_colliding
  obtain ⟨hplaced, -⟩ := hspans SpanEncoder.collidingSpan ⟨by decide, by decide⟩ (by decide)
  refine ⟨hlog, ?_, hspan, ?_⟩
  · have hlength : (LogEncoder.bareRecord.envelopeBytes "Log" LogEncoder.sampleFields
        (some ["user"])).length ≤ maxPayloadSize := by
      decide +kernel
    rw [hlog.run_eq LogEncoder.bareRecord (by decide) hlength]
    refine congrArg (fun bytes => Except.ok ((), List.toByteArray bytes)) ?_
    decide +kernel
  · have hlength : (SpanEncoder.collidingSpan.envelopeBytes "Span" [] none).length ≤
        maxPayloadSize := by
      decide +kernel
    rw [← hplaced] at hlength
    rw [hspan.run_eq SpanEncoder.collidingSpan ⟨by decide, by decide⟩ hlength, hplaced]
    refine congrArg (fun bytes => Except.ok ((), List.toByteArray bytes)) ?_
    decide +kernel

end TelemetryExport
