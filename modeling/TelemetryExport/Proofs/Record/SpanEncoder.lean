import TelemetryExport.Proofs.Record.Span

/-! # Encoded spans

A span whose attributes have different keys is one envelope. All of its attributes are in
it, each in the map and under the name where it belongs, except for those whose key is the
column of a renamed one.
-/

namespace TelemetryExport

open MessagePack Encode

namespace Span

/-- The text of an array: its elements between brackets, separated by commas alone. -/
def arrayText {α : Type} (element : α → String) (values : List α) : String :=
  "[" ++ ",".intercalate (values.map element) ++ "]"

/-- The value of an attribute as it is written: a scalar as it is, an array as its text. -/
def attributeAs : AnyValue → Scalar
  | .bool value => .bool value
  | .int value => .int value
  | .double value => .double value
  | .text value => .text value
  | .bools values => .text (arrayText (fun value => if value then "true" else "false") values)
  | .ints values => .text (arrayText (fun value => toString value.toInt) values)
  | .doubles values => .text (arrayText Binary64.text values)
  | .texts values => .text (arrayText (fun value => "\"" ++ value ++ "\"") values)

theorem attributeAs_eq (value : AnyValue) : attributeAs value = toScalar value := by
  have hbool : (fun value : Bool => if value then "true" else "false") = toString := by
    funext value
    cases value <;> rfl
  cases value with
  | bools values => rw [attributeAs, hbool]; rfl
  | _ => rfl

/-- The attributes of a span with their values as they are written. -/
def attributesAs (span : Span) : List Attribute :=
  span.attributes.map fun (key, value) => ⟨key, attributeAs value⟩

theorem properties_eq (span : Span) : span.properties = span.attributesAs := by
  simp only [properties, attributesAs, attributeAs_eq]

/-- No attribute of a span lacks a value. -/
theorem isNull_of_mem_attributesAs (span : Span) :
    ∀ property ∈ span.attributesAs, property.value.isNull = false := by
  intro property hmem
  obtain ⟨⟨key, value⟩, -, rfl⟩ := List.mem_map.mp hmem
  cases value <;> rfl

theorem map_key_attributesAs (span : Span) :
    span.attributesAs.map Attribute.key = span.attributes.map (·.1) := by
  rw [attributesAs, List.map_map]
  rfl

section Fields

variable (span : Span) (table : String) (configured : List Attribute)
  (listed : Option (List String))

/-- The attributes that are written as columns: those with a column that give way to no
other, in order. -/
def writtenColumns : List Attribute :=
  SpanEncoder.columnAttributes configured listed
    (span.attributesAs.filter (!SpanEncoder.isDisplaced configured listed span.attributesAs ·))

/-- The attributes that are written into the nested map, in order. -/
def writtenDeferred : List Attribute :=
  SpanEncoder.deferredAttributes configured listed span.attributesAs

/-- The fields of a span's envelope, in order, with the given attributes as columns. -/
def fieldsWith (start : Value) (columns : List Attribute) : List (Value × Value) :=
  (.ofText "env_name", .ofText table) ::
    ((configured.filter (·.value ≠ .null)).map Attribute.entry ++
      (span.columnEntries start ++
        propertyEntries columns (span.writtenDeferred configured listed)))

/-- A span's fields follow those that open every record of its table. -/
theorem fieldsWith_eq (start : Value) (columns : List Attribute) :
    span.fieldsWith table configured listed start columns =
      (RecordTemplate.partAFields table configured).map Attribute.entry ++
        (span.columnEntries start ++
          propertyEntries columns (span.writtenDeferred configured listed)) := by
  rw [fieldsWith, Attribute.filter_ne_null]
  rfl

/-- All fields of a span's envelope, in order, with its start as it is read. -/
def fieldEntries (start : Value) : List (Value × Value) :=
  span.fieldsWith table configured listed start (span.writtenColumns configured listed)

/-- The identifiers of a span can be read. -/
theorem showsTrace_fieldEntries (start : Value) :
    ShowsTrace span.traceId span.spanId (span.fieldEntries table configured listed start) := by
  refine ⟨_, _, ?_, Value.shown?_lowerHex _, ?_, Value.shown?_lowerHex _⟩
  · simp [fieldEntries, fieldsWith, columnEntries]
  · simp [fieldEntries, fieldsWith, columnEntries]

/-- The bytes of a span's envelope. -/
def envelopeBytes : List UInt8 :=
  RecordTemplate.recordBytes table configured span.endTime
    (span.columnEntries (.ofTime span.startTime) ++
      propertyEntries (span.writtenColumns configured listed)
        (span.writtenDeferred configured listed)).length
    (span.columns.flatMap columnBytes ++
      propertyBytes (span.writtenColumns configured listed)
        (span.writtenDeferred configured listed))

end Fields

end Span

namespace SpanEncoder

variable {configured : List Attribute} {listed : Option (List String)}

section Placed

variable (table : String) {span : Span}

/-- An encoded span is one envelope, whatever its attributes are and wherever they are
placed. -/
theorem emits_placed (hstart : span.startTime.inCalendar = true)
    (hend : span.endTime.inCalendar = true) {columns deferred : List Attribute}
    (hcolumns : (RecordTemplate.ofParts table configured).placedColumns
      (choose ⟨RecordTemplate.ofParts table configured, listed⟩) span.properties = columns)
    (hdeferred : (RecordTemplate.ofParts table configured).placedDeferred
      (choose ⟨RecordTemplate.ofParts table configured, listed⟩) span.properties = deferred) :
    Emits (encode ⟨RecordTemplate.ofParts table configured, listed⟩ span)
      (RecordTemplate.recordBytes table configured span.endTime
        (span.columnEntries (.ofTime span.startTime) ++ propertyEntries columns deferred).length
        (span.columns.flatMap Span.columnBytes ++ propertyBytes columns deferred))
      (envelope table (.ofTime span.endTime)
        ((RecordTemplate.partAFields table configured).map Attribute.entry ++
          (span.columnEntries (.ofTime span.startTime) ++ propertyEntries columns deferred))) := by
  have hproperties := (RecordTemplate.ofParts table configured).adds_properties
    (choose ⟨RecordTemplate.ofParts table configured, listed⟩) span.properties
  rw [hcolumns, hdeferred] at hproperties
  have hbody := (Span.adds_columns hstart).bind hproperties
  have hrecord := RecordTemplate.emits_openRecord table configured hend hbody
  simp only [bind_assoc] at hrecord
  exact hrecord

theorem placedColumns_span (hkeys : (span.attributes.map (·.1)).Nodup) :
    (RecordTemplate.ofParts table configured).placedColumns
        (choose ⟨RecordTemplate.ofParts table configured, listed⟩) span.properties =
      span.writtenColumns configured listed := by
  rw [← span.map_key_attributesAs] at hkeys
  rw [RecordTemplate.placedColumns, span.properties_eq,
    placements_span configured listed table span.isNull_of_mem_attributesAs hkeys,
    columns_map_placed]
  rfl

theorem placedDeferred_span (hkeys : (span.attributes.map (·.1)).Nodup) :
    (RecordTemplate.ofParts table configured).placedDeferred
        (choose ⟨RecordTemplate.ofParts table configured, listed⟩) span.properties =
      span.writtenDeferred configured listed := by
  rw [← span.map_key_attributesAs] at hkeys
  rw [RecordTemplate.placedDeferred, span.properties_eq,
    placements_span configured listed table span.isNull_of_mem_attributesAs hkeys,
    deferred_map_placed, deferredAttributes_kept]
  rfl

end Placed

/-- An encoded span is one envelope, whose fields follow from the span and the
configuration. -/
theorem emits_encode (table : String) {span : Span}
    (hstart : span.startTime.inCalendar = true) (hend : span.endTime.inCalendar = true)
    (hkeys : (span.attributes.map (·.1)).Nodup) :
    Emits (encode ⟨RecordTemplate.ofParts table configured, listed⟩ span)
      (span.envelopeBytes table configured listed)
      (envelope table (.ofTime span.endTime)
        (span.fieldEntries table configured listed (.ofTime span.startTime))) := by
  rw [Span.fieldEntries, Span.fieldsWith_eq]
  exact emits_placed table hstart hend (placedColumns_span table hkeys)
    (placedDeferred_span table hkeys)

/-- Only a span whose start and end lie in the calendar is ever written. -/
theorem inCalendar_of_encode {encoder : SpanEncoder} {span : Span} {buffer after : Buffer}
    (hok : encoder.encode span buffer = .ok () after) :
    span.startTime.inCalendar = true ∧ span.endTime.inCalendar = true := by
  obtain ⟨_, _, hopen, hok⟩ := exists_of_bind_ok hok
  obtain ⟨_, _, hcolumns, -⟩ := exists_of_bind_ok hok
  have hstart : (Column.startTime, SpanCell.time span.startTime) ∈ span.columns := by
    simp [Span.columns]
  exact ⟨Span.inCalendar_of_writeColumns hcolumns _ hstart,
    RecordTemplate.inCalendar_of_openRecord hopen⟩

theorem eq_of_make {table : String} {encoder : SpanEncoder}
    (hmake : make table configured listed = .ok encoder) :
    encoder = ⟨RecordTemplate.ofParts table configured, listed⟩ := by
  obtain ⟨template, htemplate, hmake⟩ := exists_of_except_bind hmake
  cases hmake
  rw [RecordTemplate.eq_ofParts_of_make htemplate]

/-- What a span appends is read, to its end, as one envelope of the encoder's table and the
span's end, with all of the span's fields in order. -/
theorem read_encoded_span {table : String} {encoder : SpanEncoder}
    (hmake : make table configured listed = .ok encoder) {span : Span}
    (hkeys : (span.attributes.map (·.1)).Nodup) {buffer after : Buffer} (hvalid : buffer.Valid)
    (hencode : encoder.encode span buffer = .ok () after) :
    ∃ bytes stamp start fields, after.bytes = buffer.bytes ++ bytes ∧
      Value.timestamp? stamp = some (span.endTime.seconds.toInt, span.endTime.nanoseconds.val) ∧
      Value.timestamp? start =
        some (span.startTime.seconds.toInt, span.startTime.nanoseconds.val) ∧
      Value.read bytes = some (envelope table stamp fields, []) ∧
      fields = span.fieldEntries table configured listed start ∧
      ShowsTrace span.traceId span.spanId fields := by
  obtain ⟨hstart, hend⟩ := inCalendar_of_encode hencode
  rw [eq_of_make hmake] at hencode
  obtain ⟨hbytes, hread⟩ := (emits_encode table hstart hend hkeys).read_of_ok hvalid hencode
  exact ⟨_, .ofTime span.endTime, .ofTime span.startTime, _, hbytes,
    Value.timestamp?_ofTime span.endTime, Value.timestamp?_ofTime span.startTime, hread, rfl,
    span.showsTrace_fieldEntries table _ _ _⟩

/-! ### A span with links, whose attributes go to all places -/

theorem make_eq {table : String} (hname : TableName.check table = .ok ())
    (hfields : RecordTemplate.checkFieldNames [] configured = .ok ())
    (hfits : ((RecordTemplate.partAFields table configured).flatMap
      Attribute.entryBytes).length ≤ maxPayloadSize) :
    make table configured listed = .ok ⟨RecordTemplate.ofParts table configured, listed⟩ := by
  rw [make, except_bind_of_ok (RecordTemplate.make_eq hname hfields hfits)]
  rfl

def sampleFields : List Attribute := [⟨"cloud.role", .text "api"⟩, ⟨"dbName", .null⟩]

def sampleLinks : List SpanLink :=
  [⟨⟨Vector.replicate 16 3⟩, ⟨Vector.replicate 8 4⟩⟩, ⟨⟨Vector.replicate 16 171⟩, .invalid⟩]

def sampleSpan : Span where
  traceId := ⟨Vector.replicate 16 1⟩
  spanId := ⟨Vector.replicate 8 2⟩
  parentId := ⟨Vector.replicate 8 254⟩
  name := "GET /"
  kind := .client
  startTime := ⟨-1, ⟨999999999, by decide⟩⟩
  endTime := { Time.epoch with seconds := 1 }
  status := .error "timeout"
  links := sampleLinks
  attributes := [("httpMethod", .text "PUT"), ("http.method", .text "GET"), ("user", .int 1),
    ("retries", .ints [1, 2]), ("db.name", .text "orders")]

theorem make_sample : make "Span" sampleFields (some ["httpMethod", "user"]) =
    .ok ⟨RecordTemplate.ofParts "Span" sampleFields, some ["httpMethod", "user"]⟩ := by
  have hlength : ((RecordTemplate.partAFields "Span" sampleFields).flatMap
      Attribute.entryBytes).length = 29 := by decide
  apply make_eq rfl rfl
  change _ ≤ 65360
  omega

/-- One attribute is renamed and takes the place of another, and one gives way to a
configured field. -/
theorem read_encoded_sampleSpan :
    ∃ after, encode ⟨RecordTemplate.ofParts "Span" sampleFields, some ["httpMethod", "user"]⟩
        sampleSpan (Buffer.withCapacity 600) = .ok () after ∧
      ∃ bytes stamp start, after.bytes = (Buffer.withCapacity 600).bytes ++ bytes ∧
        Value.timestamp? stamp = some (1, 0) ∧
        Value.timestamp? start = some (-1, 999999999) ∧
        Value.read bytes = some (envelope "Span" stamp
          [(.ofText "env_name", .ofText "Span"), (.ofText "cloud.role", .ofText "api"),
            (.ofText "env_dt_traceId", .ofText "01010101010101010101010101010101"),
            (.ofText "env_dt_spanId", .ofText "0202020202020202"),
            (.ofText "parentId", .ofText "fefefefefefefefe"),
            (.ofText "name", .ofText "GET /"), (.ofText "kind", .int 2),
            (.ofText "startTime", start), (.ofText "success", .bool false),
            (.ofText "statusMessage", .ofText "timeout"),
            (.ofText "links", .array
              [.map [(.ofText "toTraceId", .ofText "03030303030303030303030303030303"),
                  (.ofText "toSpanId", .ofText "0404040404040404")],
                .map [(.ofText "toTraceId", .ofText "abababababababababababababababab"),
                  (.ofText "toSpanId", .ofText "0000000000000000")]]),
            (.ofText "httpMethod", .ofText "GET"), (.ofText "user", .int 1),
            (.ofText "env_properties", .map
              [(.ofText "retries", .ofText "[1,2]"), (.ofText "db.name", .ofText "orders")])],
          []) := by
  have hkeys : (sampleSpan.attributes.map (·.1)).Nodup := by decide
  have hlength : (sampleSpan.envelopeBytes "Span" sampleFields
      (some ["httpMethod", "user"])).length ≤ 600 := by decide +kernel
  have hencode := (emits_encode "Span" (by decide) (by decide) hkeys).ok_withCapacity hlength
    (by decide)
  obtain ⟨bytes, stamp, start, fields, hbytes, hstamp, hstart, hread, hfields, -⟩ :=
    read_encoded_span make_sample hkeys (Buffer.withCapacity_valid 600) hencode
  refine ⟨_, hencode, bytes, stamp, start, hbytes, hstamp, hstart, hread.trans ?_⟩
  rw [hfields]
  rfl

/-! ### Two attributes for one column -/

/-- Two envelopes that are read alike have the same fields. -/
theorem fields_eq_of_envelope_eq {table other : String} {stamp otherStamp : Value}
    {fields otherFields : List (Value × Value)}
    (hsame : envelope table stamp fields = envelope other otherStamp otherFields) :
    fields = otherFields := by
  simp only [envelope, Value.array.injEq, List.cons.injEq, Value.map.injEq, and_true] at hsame
  exact hsame.2.2

def collidingSpan : Span where
  traceId := .invalid
  spanId := .invalid
  parentId := .invalid
  name := "query"
  kind := .client
  startTime := .epoch
  endTime := .epoch
  status := .unset
  links := []
  attributes := [("db.system", .text "mysql"), ("dbSystem", .text "other")]

theorem make_colliding :
    make "Span" [] none = .ok ⟨RecordTemplate.ofParts "Span" [], none⟩ := by
  have hlength : ((RecordTemplate.partAFields "Span" []).flatMap
      Attribute.entryBytes).length = 14 := by decide
  apply make_eq rfl rfl
  change _ ≤ 65360
  omega

theorem emits_colliding :
    Emits (encode ⟨RecordTemplate.ofParts "Span" [], none⟩ collidingSpan)
      (collidingSpan.envelopeBytes "Span" [] none)
      (envelope "Span" (.ofTime .epoch)
        (collidingSpan.fieldEntries "Span" [] none (.ofTime .epoch))) :=
  emits_encode "Span" (by decide) (by decide) (by decide)

/-- Not every attribute that has a column is in the envelope: one of two that go to the
same column is left out. -/
theorem not_forall_attributes_read :
    ¬ ∀ (table : String) (configured : List Attribute) (listed : Option (List String))
      (encoder : SpanEncoder) (span : Span) (buffer after : Buffer),
      make table configured listed = .ok encoder → span.startTime.inCalendar = true →
      span.endTime.inCalendar = true → (span.attributes.map (·.1)).Nodup → buffer.Valid →
      encoder.encode span buffer = .ok () after →
      ∃ bytes stamp start, after.bytes = buffer.bytes ++ bytes ∧
        Value.timestamp? stamp =
          some (span.endTime.seconds.toInt, span.endTime.nanoseconds.val) ∧
        Value.timestamp? start =
          some (span.startTime.seconds.toInt, span.startTime.nanoseconds.val) ∧
        Value.read bytes = some (envelope table stamp
          (span.fieldsWith table configured listed start
            (columnAttributes configured listed span.attributesAs)), []) := by
  intro hall
  have hlength : (collidingSpan.envelopeBytes "Span" [] none).length ≤ 300 := by decide +kernel
  have hencode := emits_colliding.ok_withCapacity hlength (by decide)
  have hvalid := Buffer.withCapacity_valid 300
  obtain ⟨hbytes, hread⟩ := emits_colliding.read_of_ok hvalid hencode
  obtain ⟨bytes, stamp, start, hclaimed, -, -, hclaim⟩ := hall "Span" [] none _ collidingSpan _ _
    make_colliding (by decide) (by decide) (by decide) hvalid hencode
  obtain rfl := List.append_cancel_left (hbytes.symm.trans hclaimed)
  rw [hread] at hclaim
  -- The envelope that is read has one attribute, and the claimed one has two.
  have hfields := fields_eq_of_envelope_eq (congrArg Prod.fst (Option.some.inj hclaim))
  have hcount := congrArg List.length hfields
  have hcolumns : ∀ start, (collidingSpan.columnEntries start).length = 6 := fun _ => rfl
  have hwritten : (propertyEntries (collidingSpan.writtenColumns [] none)
      (collidingSpan.writtenDeferred [] none)).length = 1 := by decide +kernel
  have hlisted : (propertyEntries (columnAttributes [] none collidingSpan.attributesAs)
      (collidingSpan.writtenDeferred [] none)).length = 2 := by decide +kernel
  simp only [Span.fieldEntries, Span.fieldsWith, List.length_cons, List.length_append, hcolumns,
    hwritten, hlisted] at hcount
  omega

end SpanEncoder

end TelemetryExport
