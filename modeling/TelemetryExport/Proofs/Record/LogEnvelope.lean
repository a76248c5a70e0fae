import TelemetryExport.Proofs.Record.Routing

/-! # Log records as they are read

What a record appends is one envelope of the table to which its category goes. All fields of
the envelope follow from the record and from what the encoder was made with.
-/

namespace TelemetryExport

open MessagePack Encode

/-- The identifiers of a record in a trace can be read. -/
theorem LogRecord.showsTrace_fieldEntries {record : LogRecord} {context : TraceContext}
    (hcontext : record.trace = some context) (table : String) (configured : List Attribute)
    (listed : Option (List String)) :
    ShowsTrace context.traceId context.spanId (record.fieldEntries table configured listed) := by
  refine ⟨_, _, ?_, Value.shown?_lowerHex _, ?_, Value.shown?_lowerHex _⟩
  · simp [fieldEntries, ownEntries, columnEntries, hcontext, traceEntries]
  · simp [fieldEntries, ownEntries, columnEntries, hcontext, traceEntries]

namespace LogEncoder

/-- What a record appends is read, to its end, as one envelope of the record's table and
time, with all of the record's fields in order. -/
theorem read_encoded_log {table : String} {mappings : List (String × String)}
    {configured : List Attribute} {listed : Option (List String)} {encoder : LogEncoder}
    (hmake : make table mappings configured listed = .ok encoder) {record : LogRecord}
    {buffer after : Buffer} (hvalid : buffer.Valid)
    (hencode : encoder.encode record buffer = .ok () after) :
    ∃ bytes stamp fields, after.bytes = buffer.bytes ++ bytes ∧
      Value.timestamp? stamp = some (record.time.seconds.toInt, record.time.nanoseconds.val) ∧
      Value.read bytes =
        some (envelope (tableFor table mappings record.category) stamp fields, []) ∧
      fields = record.fieldEntries (tableFor table mappings record.category) configured listed ∧
      ∀ context, record.trace = some context →
        ShowsTrace context.traceId context.spanId fields := by
  have hemits := (configured_of_make hmake).emits_encode (inCalendar_of_encode hencode)
  rw [(routed_of_make hmake).tableOf_eq] at hemits
  obtain ⟨hbytes, hread⟩ := hemits.read_of_ok hvalid hencode
  exact ⟨_, .ofTime record.time, _, hbytes, Value.timestamp?_ofTime record.time, hread, rfl,
    fun _ hcontext => LogRecord.showsTrace_fieldEntries hcontext _ _ _⟩

/-- Of the user's three values the last that is one is written. The name is the record's own
column already, and columns are listed, so that two properties are left to the nested map. -/
theorem read_encoded_sampleRecord :
    ∃ after, sampleEncoder.encode sampleRecord (Buffer.withCapacity 400) = .ok () after ∧
      ∃ bytes stamp, after.bytes = (Buffer.withCapacity 400).bytes ++ bytes ∧
        Value.timestamp? stamp = some (-1, 500000000) ∧
        Value.read bytes = some (envelope "Log" stamp
          [(.ofText "env_name", .ofText "Log"), (.ofText "cloud.role", .ofText "api"),
            (.ofText "env_dt_traceId", .ofText "abababababababababababababababab"),
            (.ofText "env_dt_spanId", .ofText "0c0c0c0c0c0c0c0c"),
            (.ofText "env_dt_traceFlags", .int 1), (.ofText "severityText", .ofText "Warning"),
            (.ofText "severityNumber", .int 13), (.ofText "name", .ofText "Db"),
            (.ofText "eventId", .int 7), (.ofText "user", .int (-200)),
            (.ofText "env_properties", .map
              [(.ofText "name", .ofText "x"), (.ofText "size", .bool true)])], []) := by
  have htime : sampleRecord.time.inCalendar = true := by decide
  have htable : sampleEncoder.tableOf sampleRecord = "Log" := rfl
  have hemits := (configured_of_make make_sample).emits_encode htime
  rw [htable] at hemits
  have hlength : (sampleRecord.envelopeBytes "Log" sampleFields (some ["user"])).length ≤ 400 := by
    decide +kernel
  have hencode := hemits.ok_withCapacity hlength (by decide)
  obtain ⟨bytes, stamp, fields, hbytes, hstamp, hread, hfields, -⟩ :=
    read_encoded_log make_sample (Buffer.withCapacity_valid 400) hencode
  refine ⟨_, hencode, bytes, stamp, hbytes, hstamp, hread.trans ?_⟩
  rw [hfields]
  rfl

end LogEncoder

end TelemetryExport
