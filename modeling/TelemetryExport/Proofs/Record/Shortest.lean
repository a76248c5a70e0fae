import TelemetryExport.Proofs.Record.Append
import TelemetryExport.Proofs.Record.Construction

/-! # The shortest records

A template knows the length of a record without fields of its own. No such record is ever
written: every log record has a severity and a name, and every span its identity, its name,
its kind, its start and whether it succeeded. Here is what these add at least, and a record
that has nothing else.
-/

namespace TelemetryExport

open MessagePack Encode

/-! ## Texts -/

theorem length_textBytes (text : String) :
    (textBytes text).length = (textHeader text.utf8ByteSize).length + text.utf8ByteSize := by
  rw [textBytes, List.length_append, Array.length_toList]
  rfl

/-- A text has a header, if nothing else. -/
theorem one_le_length_textBytes (text : String) : 1 ≤ (textBytes text).length := by
  have hheader : 1 ≤ (textHeader text.utf8ByteSize).length := by
    unfold textHeader
    split
    · exact Nat.le_refl 1
    · split
      · exact Nat.le_succ 1
      · split <;> exact Nat.succ_pos _
  rw [length_textBytes]
  omega

namespace Text

theorem isAlphanum_of_mem_hexByte (byte : UInt8) : ∀ c ∈ hexByte byte, c.isAlphanum = true := by
  have hdigit : ∀ n < 16, (hexDigit n).isAlphanum = true := by decide
  have hlow : byte.toNat % 16 < 16 := Nat.mod_lt _ (by decide)
  have hhigh : byte.toNat / 16 < 16 := by
    have hbyte := byte.toNat_lt
    omega
  simp only [hexByte, List.forall_mem_cons]
  exact ⟨hdigit _ hhigh, hdigit _ hlow, List.forall_mem_nil _⟩

theorem length_flatMap_hexByte (bytes : List UInt8) :
    (bytes.flatMap hexByte).length = 2 * bytes.length := by
  induction bytes with
  | nil => rfl
  | cons byte rest ih =>
      have hbyte : (hexByte byte).length = 2 := rfl
      rw [List.flatMap_cons, List.length_append, ih, hbyte, List.length_cons]
      omega

theorem utf8ByteSize_hex (bytes : List UInt8) :
    (hex bytes).utf8ByteSize = 2 * bytes.length := by
  have hchars : ∀ c ∈ bytes.flatMap hexByte, c.isAlphanum = true := by
    intro c hmem
    obtain ⟨byte, -, hc⟩ := List.mem_flatMap.mp hmem
    exact isAlphanum_of_mem_hexByte byte c hc
  rw [hex, utf8ByteSize_ofList hchars, length_flatMap_hexByte]

end Text

theorem TraceId.length_textBytes_hex (id : TraceId) : (textBytes id.hex).length = 34 := by
  have hsize : id.hex.utf8ByteSize = 32 := by
    rw [TraceId.hex, Text.utf8ByteSize_hex, Vector.length_toList]
  rw [length_textBytes, hsize]
  rfl

theorem SpanId.length_textBytes_hex (id : SpanId) : (textBytes id.hex).length = 17 := by
  have hsize : id.hex.utf8ByteSize = 16 := by
    rw [SpanId.hex, Text.utf8ByteSize_hex, Vector.length_toList]
  rw [length_textBytes, hsize]
  rfl

/-! ## Log records -/

namespace LogRecord

/-- The least length of the severity and of the name. -/
def leastLength (name : String) : Nat := 40 + (textBytes name).length

theorem length_columnKeys : (textBytes Column.severityText).length = 13 ∧
    (textBytes Column.severityNumber).length = 15 ∧ (textBytes Column.name).length = 5 := by
  decide

theorem leastLength_le_columns (record : LogRecord) (table : String) :
    leastLength (record.category.getD table) ≤
      ((record.columns table).flatMap Attribute.entryBytes).length := by
  have hkeys := length_columnKeys
  have htext : 6 ≤ (scalarBytes (toScalar record.severity.text)).length := by
    cases record.severity <;> decide
  have hnumber : (scalarBytes (toScalar record.severity.number)).length = 1 := by
    cases record.severity <;> decide
  have hname : (scalarBytes (toScalar (record.category.getD table))).length =
      (textBytes (record.category.getD table)).length := rfl
  simp only [columns, List.flatMap_append, List.flatMap_cons, List.flatMap_nil,
    List.length_append, List.length_nil, Attribute.entryBytes, leastLength]
  omega

/-- A record that says nothing that can be left out. -/
def shortest (category : Option String) : LogRecord where
  time := .epoch
  category
  severity := .error

theorem length_columns_shortest (category : Option String) (table : String) :
    (((shortest category).columns table).flatMap Attribute.entryBytes).length =
      leastLength (category.getD table) := by
  have hkeys := length_columnKeys
  have htext : (scalarBytes (toScalar Severity.error.text)).length = 6 := by decide
  have hnumber : (scalarBytes (toScalar Severity.error.number)).length = 1 := by decide
  have hname : (scalarBytes (toScalar (category.getD table))).length =
      (textBytes (category.getD table)).length := rfl
  have hcolumns : (shortest category).columns table =
      [⟨Column.severityText, toScalar Severity.error.text⟩,
        ⟨Column.severityNumber, toScalar Severity.error.number⟩,
        ⟨Column.name, toScalar (category.getD table)⟩] := rfl
  simp only [hcolumns, List.flatMap_cons, List.flatMap_nil, List.length_append, List.length_nil,
    Attribute.entryBytes, leastLength]
  omega

variable (table : String) (configured : List Attribute) (listed : Option (List String))

theorem le_length_envelopeBytes (record : LogRecord) :
    (RecordTemplate.ofParts table configured).minRecordLength +
        leastLength (record.category.getD table) ≤
      (record.envelopeBytes table configured listed).length := by
  have hcolumns := record.leastLength_le_columns table
  rw [envelopeBytes, RecordTemplate.length_recordBytes, List.length_append]
  omega

theorem length_envelopeBytes_shortest (category : Option String) :
    ((shortest category).envelopeBytes table configured listed).length =
      (RecordTemplate.ofParts table configured).minRecordLength +
        leastLength (category.getD table) := by
  rw [envelopeBytes, RecordTemplate.length_recordBytes, List.length_append,
    length_columns_shortest]
  rfl

end LogRecord

/-! ## Spans -/

namespace Span

/-- The length of what every span has, where its name is empty. -/
def leastLength : Nat := 126

theorem leastLength_le_columns (span : Span) :
    leastLength ≤ (span.columns.flatMap columnBytes).length := by
  have hkeys : (textBytes Column.traceId).length = 15 ∧ (textBytes Column.spanId).length = 14 ∧
      (textBytes Column.name).length = 5 ∧ (textBytes Column.kind).length = 5 ∧
      (textBytes Column.startTime).length = 10 ∧ (textBytes Column.success).length = 8 := by
    decide
  have htrace : (scalarBytes (toScalar span.traceId.hex)).length = 34 :=
    span.traceId.length_textBytes_hex
  have hspan : (scalarBytes (toScalar span.spanId.hex)).length = 17 :=
    span.spanId.length_textBytes_hex
  have hname : 1 ≤ (scalarBytes (toScalar span.name)).length := one_le_length_textBytes span.name
  have hkind : (scalarBytes (toScalar span.kind.number)).length = 1 := by
    cases span.kind <;> decide
  have hstart : (timeBytes span.startTime).length = 15 :=
    RecordTemplate.length_timeBytes span.startTime
  have hsuccess : (scalarBytes (toScalar (!span.status.isError))).length = 1 := rfl
  simp only [columns, List.flatMap_append, List.flatMap_cons, List.flatMap_nil,
    List.length_append, List.length_nil, columnBytes, SpanCell.bytes, leastLength]
  omega

/-- A span that says nothing that can be left out. -/
def shortest : Span where
  traceId := .invalid
  spanId := .invalid
  parentId := .invalid
  name := ""
  kind := .internal
  startTime := .epoch
  endTime := .epoch
  status := .unset
  links := []
  attributes := []

theorem length_columns_shortest :
    (shortest.columns.flatMap columnBytes).length = leastLength := by
  decide +kernel

end Span

namespace SpanEncoder

variable (encoder : SpanEncoder) (table : String) (configured : List Attribute)

theorem le_length_placedBytes (span : Span) :
    (RecordTemplate.ofParts table configured).minRecordLength + Span.leastLength ≤
      (encoder.placedBytes table configured span).length := by
  have hcolumns := span.leastLength_le_columns
  simp only [placedBytes, RecordTemplate.length_recordBytes, List.length_append]
  omega

theorem length_placedBytes_shortest :
    (encoder.placedBytes table configured .shortest).length =
      (RecordTemplate.ofParts table configured).minRecordLength + Span.leastLength := by
  simp only [placedBytes, RecordTemplate.length_recordBytes, List.length_append,
    Span.length_columns_shortest]
  rfl

end SpanEncoder

end TelemetryExport
