import TelemetryExport.Record.Template
import TelemetryExport.TraceContext

/-! # Log records

A log record and the columns it fills besides its properties.
-/

namespace TelemetryExport

inductive Severity where
  | trace
  | debug
  | information
  | warning
  | error
  | critical
  deriving DecidableEq, Repr

namespace Severity

def number : Severity → UInt8
  | trace => 1
  | debug => 5
  | information => 9
  | warning => 13
  | error => 17
  | critical => 21

def text : Severity → String
  | trace => "Trace"
  | debug => "Debug"
  | information => "Information"
  | warning => "Warning"
  | error => "Error"
  | critical => "Critical"

end Severity

structure ExceptionInfo where
  typeName : String
  message : String
  deriving DecidableEq, Repr

structure LogRecord where
  time : Time
  category : Option String := none
  severity : Severity := .information
  eventId : Option Int32 := none
  eventName : Option String := none
  body : Option String := none
  trace : Option TraceContext := none
  ownProperties : List Attribute := []
  /-- The properties of the scopes in which the record was written, outermost first. -/
  scopes : List (List Attribute) := []
  exception : Option ExceptionInfo := none
  deriving DecidableEq, Repr

namespace LogRecord

/-- The columns of a trace context. -/
def traceColumns (context : TraceContext) : List Attribute :=
  [⟨Column.traceId, toScalar context.traceId.hex⟩,
    ⟨Column.spanId, toScalar context.spanId.hex⟩,
    ⟨Column.traceFlags, toScalar context.flags⟩]

/-- The columns of an exception. -/
def exceptionColumns (exception : ExceptionInfo) : List Attribute :=
  [⟨Column.exceptionType, toScalar exception.typeName⟩,
    ⟨Column.exceptionMessage, toScalar exception.message⟩]

/-- The columns that the record fills, in order. The name is the category's, or
the table's where the record has no category. -/
def columns (record : LogRecord) (table : String) : List Attribute :=
  record.trace.elim [] traceColumns
    ++ [⟨Column.severityText, toScalar record.severity.text⟩,
      ⟨Column.severityNumber, toScalar record.severity.number⟩,
      ⟨Column.name, toScalar (record.category.getD table)⟩]
    ++ (record.eventId.map fun id => ⟨Column.eventId, toScalar id⟩).toList
    ++ (record.eventName.map fun name => ⟨Column.eventName, toScalar name⟩).toList
    ++ (record.body.map fun body => ⟨Column.body, toScalar body⟩).toList
    ++ record.exception.elim [] exceptionColumns

/-- The record's own properties, then those of its scopes. An inner scope comes
after the ones around it. -/
def properties (record : LogRecord) : List Attribute :=
  record.ownProperties ++ record.scopes.flatten

end LogRecord

/-- The choice of a column for a key when only the listed names get their own,
or all do when there is no list. -/
def chooseListed (columns : Option (List String)) (key : String) : ColumnChoice :=
  match columns with
  | some names => if names.contains key then .dedicated else .deferred
  | none => .dedicated

end TelemetryExport
