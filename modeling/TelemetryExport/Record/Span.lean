import TelemetryExport.Record.Log

/-! # Spans

A finished span, the columns it fills besides its attributes, and its envelope,
which bears the time at which the span ended.
-/

namespace TelemetryExport

open MessagePack

inductive SpanKind where
  | internal
  | server
  | client
  | producer
  | consumer
  deriving DecidableEq, Repr

def SpanKind.number : SpanKind → Int64
  | .internal => 0
  | .server => 1
  | .client => 2
  | .producer => 3
  | .consumer => 4

inductive SpanStatus where
  | unset
  | ok
  | error (description : String)
  deriving DecidableEq, Repr

namespace SpanStatus

def isError : SpanStatus → Bool
  | .error _ => true
  | _ => false

/-- The description of an error, unless it is empty. -/
def message? : SpanStatus → Option String
  | .error description => if description.isEmpty then none else some description
  | _ => none

end SpanStatus

/-- A reference to another span. -/
structure SpanLink where
  traceId : TraceId
  spanId : SpanId
  deriving DecidableEq, Repr

/-- The attributes of a span, each under its key. -/
abbrev SpanAttributes := List (String × AnyValue)

structure Span where
  traceId : TraceId
  spanId : SpanId
  /-- The span around this one, or the invalid identifier. -/
  parentId : SpanId
  name : String
  kind : SpanKind
  startTime : Time
  endTime : Time
  status : SpanStatus
  links : List SpanLink
  /-- The attributes, whose keys differ. -/
  attributes : SpanAttributes
  deriving DecidableEq, Repr

/-- The content of a span's column. -/
inductive SpanCell where
  | scalar (value : Scalar)
  | time (value : Time)
  | links (values : List SpanLink)

namespace SpanCell

/-- Appends a link as a map of two texts. -/
def writeLink (link : SpanLink) : Encode Unit := do
  writeSmallMapHeader 2
  writeText Column.toTraceId
  writeText link.traceId.hex
  writeText Column.toSpanId
  writeText link.spanId.hex

def write : SpanCell → Encode Unit
  | scalar value => writeScalar value
  | time value => writeTime value
  | links values => do
      writeArrayHeader values.length
      values.forM writeLink

end SpanCell

namespace Span

/-- The columns that the span fills, in order. A span without a parent, without
a description of its error or without links lacks that column. -/
def columns (span : Span) : List (String × SpanCell) :=
  [(Column.traceId, .scalar (toScalar span.traceId.hex)),
    (Column.spanId, .scalar (toScalar span.spanId.hex))]
    ++ (if span.parentId = SpanId.invalid then []
      else [(Column.parentId, .scalar (toScalar span.parentId.hex))])
    ++ [(Column.name, .scalar (toScalar span.name)),
      (Column.kind, .scalar (toScalar span.kind.number)),
      (Column.startTime, .time span.startTime),
      (Column.success, .scalar (toScalar (!span.status.isError)))]
    ++ (span.status.message?.map fun text =>
      (Column.statusMessage, SpanCell.scalar (toScalar text))).toList
    ++ (if span.links.isEmpty then [] else [(Column.links, .links span.links)])

/-- The attributes as properties of the record. -/
def properties (span : Span) : List Attribute :=
  span.attributes.map fun (key, value) => ⟨key, toScalar value⟩

end Span

/-- Writes spans as envelopes of one table. -/
structure SpanEncoder where
  template : RecordTemplate
  /-- The attributes that get a column under their own name, if not all do. -/
  customColumns : Option (List String)

namespace SpanEncoder

/-- The encoder for a table and the fields that every span gets. -/
def make (table : String) (fields : List Attribute) (customColumns : Option (List String)) :
    Except ConfigError SpanEncoder := do
  return ⟨← RecordTemplate.make table fields, customColumns⟩

/-- The choice of a column for an attribute. Well-known attributes are renamed
whatever the configuration lists. -/
def choose (encoder : SpanEncoder) (key : String) : ColumnChoice :=
  match Column.spanAttributeColumns.lookup key with
  | some column => .renamed column
  | none => chooseListed encoder.customColumns key

/-- Writes the columns of a span into its field map. -/
def writeColumns (map : OpenMap) (columns : List (String × SpanCell)) : Encode OpenMap :=
  columns.foldlM (fun map (key, cell) => map.entry key cell.write) map

/-- Appends the envelope of a span. -/
def encode (encoder : SpanEncoder) (span : Span) : Encode Unit := do
  let map ← encoder.template.openRecord span.endTime
  let map ← writeColumns map span.columns
  let map ← encoder.template.writeProperties map encoder.choose span.properties
  encoder.template.closeRecord map

end SpanEncoder

end TelemetryExport
