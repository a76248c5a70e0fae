import TelemetryExport.Record.LogEncoder
import TelemetryExport.Proofs.Record.Placement
import TelemetryExport.Proofs.Text.Hex

/-! # Envelopes of log records

A log record is read back as one envelope. Its fields are listed here from the record and
the configuration alone: the constant fields, what the record itself says, and the last
property of each key, those without a column in one nested map.
-/

namespace TelemetryExport

open MessagePack Encode

/-! ## Identifiers -/

/-- The bytes that a text shows in hexadecimal digits. -/
def MessagePack.Value.shown? (value : Value) : Option (List UInt8) :=
  value.string?.bind fun text => Text.ofHex? text.toList

theorem MessagePack.Value.shown?_lowerHex (bytes : List UInt8) :
    (Value.ofText (Text.lowerHex bytes)).shown? = some bytes := by
  rw [shown?, string?_ofText, Option.bind_some, ← Text.hex_eq_lowerHex, Text.ofHex?_hex]

/-- A reader of hexadecimal digits finds the identifiers in the fields. -/
def ShowsTrace (traceId : TraceId) (spanId : SpanId) (fields : List (Value × Value)) : Prop :=
  ∃ trace span : Value,
    (.ofText "env_dt_traceId", trace) ∈ fields ∧ trace.shown? = some traceId.bytes.toList ∧
    (.ofText "env_dt_spanId", span) ∈ fields ∧ span.shown? = some spanId.bytes.toList

/-! ## The fields of a record -/

/-- The properties of which no later one has the same key. -/
def lastOfEach : List Attribute → List Attribute
  | [] => []
  | property :: rest =>
      if rest.any (·.key == property.key) then lastOfEach rest else property :: lastOfEach rest

namespace LogRecord

/-- Whether a property of a record goes to the nested map: the record writes its key
itself, or columns are listed and its key is none of them. -/
def isDeferred (configured : List Attribute) (listed : Option (List String))
    (property : Attribute) : Bool :=
  isTaken configured property.key || listed.any (!·.contains property.key)

/-- The trace context of a record. -/
def traceEntries : Option TraceContext → List (Value × Value)
  | some context =>
      [(.ofText "env_dt_traceId", .ofText (Text.lowerHex context.traceId.bytes.toList)),
        (.ofText "env_dt_spanId", .ofText (Text.lowerHex context.spanId.bytes.toList)),
        (.ofText "env_dt_traceFlags", .int context.flags.toNat)]
  | none => []

/-- The exception of a record. -/
def exceptionEntries : Option ExceptionInfo → List (Value × Value)
  | some exception =>
      [(.ofText "env_ex_type", .ofText exception.typeName),
        (.ofText "env_ex_msg", .ofText exception.message)]
  | none => []

/-- The name and the number of a severity. -/
def severityAs : Severity → String × Int
  | .trace => ("Trace", 1)
  | .debug => ("Debug", 5)
  | .information => ("Information", 9)
  | .warning => ("Warning", 13)
  | .error => ("Error", 17)
  | .critical => ("Critical", 21)

/-- What a record says besides its properties. -/
def columnEntries (record : LogRecord) (table : String) : List (Value × Value) :=
  traceEntries record.trace ++
    [(.ofText "severityText", .ofText (severityAs record.severity).1),
      (.ofText "severityNumber", .int (severityAs record.severity).2),
      (.ofText "name", .ofText (record.category.getD table))] ++
    optionalEntry "eventId" (record.eventId.map fun id => .int id.toInt) ++
    optionalEntry "eventName" (record.eventName.map .ofText) ++
    optionalEntry "body" (record.body.map .ofText) ++
    exceptionEntries record.exception

/-- The properties that are written: of each key the last one that has a value, in the
record and then in its scopes, outermost first. -/
def lastProperties (record : LogRecord) : List Attribute :=
  lastOfEach ((record.ownProperties ++ record.scopes.flatten).filter (·.value ≠ .null))

/-- The written properties that have a column of their own. -/
def dedicatedProperties (record : LogRecord) (configured : List Attribute)
    (listed : Option (List String)) : List Attribute :=
  record.lastProperties.filter (!isDeferred configured listed ·)

/-- The written properties that have none. -/
def deferredProperties (record : LogRecord) (configured : List Attribute)
    (listed : Option (List String)) : List Attribute :=
  record.lastProperties.filter (isDeferred configured listed)

/-- The fields of a record behind the constant ones, in order. -/
def ownEntries (record : LogRecord) (table : String) (configured : List Attribute)
    (listed : Option (List String)) : List (Value × Value) :=
  record.columnEntries table ++
    propertyEntries (record.dedicatedProperties configured listed)
      (record.deferredProperties configured listed)

/-- All fields of a record's envelope, in order. -/
def fieldEntries (record : LogRecord) (table : String) (configured : List Attribute)
    (listed : Option (List String)) : List (Value × Value) :=
  (.ofText "env_name", .ofText table) ::
    ((configured.filter (·.value ≠ .null)).map Attribute.entry ++
      record.ownEntries table configured listed)

/-- A record's fields follow those that open every record of its table. -/
theorem fieldEntries_eq (record : LogRecord) (table : String) (configured : List Attribute)
    (listed : Option (List String)) : record.fieldEntries table configured listed =
      (RecordTemplate.partAFields table configured).map Attribute.entry ++
        record.ownEntries table configured listed := by
  rw [fieldEntries, Attribute.filter_ne_null]
  rfl

/-- The bytes of a record's envelope. -/
def envelopeBytes (record : LogRecord) (table : String) (configured : List Attribute)
    (listed : Option (List String)) : List UInt8 :=
  RecordTemplate.recordBytes table configured record.time
    (record.ownEntries table configured listed).length
    ((record.columns table).flatMap Attribute.entryBytes ++
      propertyBytes (record.dedicatedProperties configured listed)
        (record.deferredProperties configured listed))

theorem ofScalar_byte (byte : UInt8) : Value.ofScalar (toScalar byte) = .int byte.toNat :=
  congrArg Value.int (toInt_toInt64_of_byte byte)

theorem ofScalar_eventId (id : Int32) : Value.ofScalar (toScalar id) = .int id.toInt :=
  congrArg Value.int id.toInt_toInt64

theorem map_entry_trace (trace : Option TraceContext) :
    (trace.elim [] traceColumns).map Attribute.entry = traceEntries trace := by
  cases trace with
  | none => rfl
  | some context =>
      simp only [Option.elim_some, traceColumns, List.map_cons, List.map_nil, Attribute.entry,
        ofScalar_byte, TraceId.hex, SpanId.hex, Text.hex_eq_lowerHex]
      rfl

theorem severityAs_eq (severity : Severity) :
    severityAs severity = (severity.text, (severity.number.toNat : Int)) := by
  cases severity <;> rfl

theorem map_entry_exception (exception : Option ExceptionInfo) :
    (exception.elim [] exceptionColumns).map Attribute.entry = exceptionEntries exception := by
  cases exception with
  | none => rfl
  | some exception => rfl

theorem map_entry_columns (record : LogRecord) (table : String) :
    (record.columns table).map Attribute.entry = record.columnEntries table := by
  have heventId := map_entry_optional Column.eventId record.eventId
  have heventName := map_entry_optional Column.eventName record.eventName
  have hbody := map_entry_optional Column.body record.body
  simp only [columns, List.map_append, map_entry_trace, map_entry_exception, heventId,
    heventName, hbody, List.map_cons, List.map_nil, Attribute.entry, ofScalar_byte,
    ofScalar_eventId]
  rw [columnEntries, severityAs_eq]
  rfl

/-- No column of a record lacks a value. -/
theorem isNull_of_mem_columns (record : LogRecord) (table : String) :
    ∀ column ∈ record.columns table, column.value.isNull = false := by
  simp only [columns, List.forall_mem_append]
  refine ⟨⟨⟨⟨⟨?_, ?_⟩, ?_⟩, ?_⟩, ?_⟩, ?_⟩
  · cases record.trace with
    | none => exact List.forall_mem_nil _
    | some context => simp [traceColumns, toScalar, Scalar.isNull]
  · simp [toScalar, Scalar.isNull]
  · cases record.eventId <;> simp [toScalar, Scalar.isNull]
  · cases record.eventName <;> simp [toScalar, Scalar.isNull]
  · cases record.body <;> simp [toScalar, Scalar.isNull]
  · cases record.exception <;> simp [exceptionColumns, toScalar, Scalar.isNull]

end LogRecord

/-! ## Placing without renaming -/

namespace Placed

/-- Without renaming, the last entry of each destination is that of the last property
with its key. -/
theorem keepLast_map {place : Attribute → Placed}
    (hplace : ∀ property other,
      (place property).destination = (place other).destination ↔ property.key = other.key)
    (properties : List Attribute) :
    keepLast (properties.map place) = (lastOfEach properties).map place := by
  induction properties with
  | nil => rfl
  | cons property rest ih =>
      rw [List.map_cons, lastOfEach]
      by_cases hrepeated : rest.any (·.key == property.key) = true
      · obtain ⟨later, hmem, hsame⟩ := List.any_eq_true.mp hrepeated
        rw [if_pos hrepeated, keepLast_cons_of_repeated, ih]
        exact ⟨place later, List.mem_map_of_mem hmem, (hplace _ _).mpr (beq_iff_eq.mp hsame)⟩
      · rw [if_neg hrepeated, keepLast_cons_of_last, ih, List.map_cons]
        intro placed hmem hsame
        obtain ⟨later, hlater, rfl⟩ := List.mem_map.mp hmem
        exact hrepeated (List.any_eq_true.mpr
          ⟨later, hlater, beq_iff_eq.mpr ((hplace _ _).mp hsame)⟩)

theorem survivors_of_kept {entries : List Placed}
    (hkept : ∀ entry ∈ entries, entry.renamed = false) : survivors entries = keepLast entries := by
  have hnone : ∀ entry ∈ entries, (!isDisplaced entries entry) = true := by
    intro entry _
    have hany : (entries.any fun other =>
        other.renamed && other.destination == entry.destination) = false := by
      rw [List.any_eq_false]
      intro other hmem
      rw [hkept other hmem, Bool.false_and]
      exact Bool.false_ne_true
    rw [isDisplaced, hany, Bool.and_false]
    rfl
  rw [survivors_eq, List.filter_eq_self.mpr hnone]

end Placed

/-- A key that is not listed is deferred. -/
theorem chooseListed_eq (listed : Option (List String)) (key : String) :
    chooseListed listed key = if listed.any (!·.contains key) then .deferred else .dedicated := by
  cases listed with
  | none => rfl
  | some names =>
      rw [Option.any_some]
      by_cases hlisted : names.contains key = true
      · simp only [chooseListed, hlisted, Bool.not_true, if_true, if_neg Bool.false_ne_true]
      · simp only [chooseListed, Bool.eq_false_iff.mpr hlisted, Bool.not_false, if_true,
          if_neg Bool.false_ne_true]

namespace RecordTemplate

/-! ## Properties of log records -/

variable (table : String) (configured : List Attribute) (listed : Option (List String))

/-- A property of a log record keeps its key, wherever it goes. -/
theorem place_log (property : Attribute) :
    Placed.place (ofParts table configured).claims (chooseListed listed) property =
      ⟨⟨LogRecord.isDeferred configured listed property, property.key⟩, property.value, false⟩ := by
  rw [Placed.place, claims_ofParts, LogRecord.isDeferred]
  by_cases htaken : isTaken configured property.key = true
  · rw [if_pos htaken, htaken, Bool.true_or]
  · rw [if_neg htaken, Bool.eq_false_iff.mpr htaken, Bool.false_or]
    by_cases hlisted : listed.any (!·.contains property.key) = true
    · rw [chooseListed_eq, if_pos hlisted, hlisted]
    · rw [chooseListed_eq, if_neg hlisted, Bool.eq_false_iff.mpr hlisted]

/-- A log record writes the last property of each key, in the map where its key belongs. -/
theorem placements_log (properties : List Attribute) :
    (ofParts table configured).placements (chooseListed listed) properties =
      (lastOfEach (properties.filter (!·.value.isNull))).map fun property =>
        ⟨⟨LogRecord.isDeferred configured listed property, property.key⟩, property.value,
          false⟩ := by
  have hplace := funext (place_log table configured listed)
  rw [placements, hplace, Placed.survivors_of_kept, Placed.keepLast_map]
  · intro property other
    constructor
    · intro hsame
      exact congrArg Destination.key hsame
    · intro hkey
      rw [LogRecord.isDeferred, LogRecord.isDeferred, hkey]
  · intro entry hmem
    obtain ⟨property, -, rfl⟩ := List.mem_map.mp hmem
    rfl

/-- A placed property of a log record is the property itself. -/
theorem map_toAttribute_log (properties : List Attribute) :
    properties.map (Placed.toAttribute ∘ fun property =>
      ⟨⟨LogRecord.isDeferred configured listed property, property.key⟩, property.value,
        false⟩) = properties :=
  List.map_id properties

theorem placedColumns_log (record : LogRecord) :
    (ofParts table configured).placedColumns (chooseListed listed) record.properties =
      record.dedicatedProperties configured listed := by
  rw [placedColumns, placements_log, ← Attribute.filter_ne_null]
  simp only [List.filter_map, List.map_map, map_toAttribute_log]
  rfl

theorem placedDeferred_log (record : LogRecord) :
    (ofParts table configured).placedDeferred (chooseListed listed) record.properties =
      record.deferredProperties configured listed := by
  rw [placedDeferred, placements_log, ← Attribute.filter_ne_null]
  simp only [List.filter_map, List.map_map, map_toAttribute_log]
  rfl

theorem adds_logProperties (record : LogRecord) :
    OpenMap.Adds
      (fun map => (ofParts table configured).writeProperties map (chooseListed listed)
        record.properties)
      (propertyBytes (record.dedicatedProperties configured listed)
        (record.deferredProperties configured listed))
      (propertyEntries (record.dedicatedProperties configured listed)
        (record.deferredProperties configured listed)) := by
  have hadds := (ofParts table configured).adds_properties (chooseListed listed) record.properties
  rw [placedColumns_log, placedDeferred_log] at hadds
  exact hadds

end RecordTemplate

end TelemetryExport
