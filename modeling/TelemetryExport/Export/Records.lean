import TelemetryExport.Export.Tally
import TelemetryExport.Record.LogEncoder
import TelemetryExport.Record.Span

/-! # Exporting logs and spans

Each log record and each span is a payload of its own. A unit that cannot be
encoded or sent is counted and skipped, and the rest of the batch goes on. Only
a time outside the calendar, which no caller may hand in, ends the export.

The exporters of one kind share a buffer. An export takes it at the capacity it
needs and gives it back; an export that starts while another is sending has no
access to it and brings a buffer of its own.
-/

namespace TelemetryExport

variable {m : Type → Type} [Monad m] {α : Type}

/-- Encodes and sends units one by one, and returns the outcome and the buffer. -/
def sendEach (transport : Transport m) (kind : UnitKind) (encode : α → Encode Unit) :
    List α → Tally → Buffer → m (Outcome × Buffer)
  | [], tally, buffer => return (tally.outcome, buffer)
  | unit :: rest, tally, buffer =>
      match encode unit buffer.reset with
      | .ok () buffer => do
          let tally ← tally.send transport 1 buffer.written
          sendEach transport kind encode rest tally buffer
      | .error .timeOutOfRange buffer => return (.error (.encode .timeOutOfRange), buffer)
      | .error cause buffer => do
          let tally ← tally.drop transport kind cause
          sendEach transport kind encode rest tally buffer

/-- Sends units unless nobody listens. -/
def exportEach (transport : Transport m) (kind : UnitKind) (encode : α → Encode Unit)
    (capacity : Nat) (units : List α) (shared : Buffer) : m (Outcome × Buffer) := do
  if ← transport.isEnabled then
    sendEach transport kind encode units (Tally.start units.length) (shared.sizedTo capacity)
  else
    return (.ok (), shared)

/-- Sends each log record as one envelope. -/
structure LogExporter where
  encoder : LogEncoder
  capacity : Nat

/-- Exports log records through the shared buffer. -/
def LogExporter.exportRecords (exporter : LogExporter) (transport : Transport m)
    (records : List LogRecord) (shared : Buffer) : m (Outcome × Buffer) :=
  exportEach transport .logRecord exporter.encoder.encode exporter.capacity records shared

/-- Sends each finished span as one envelope. -/
structure SpanExporter where
  encoder : SpanEncoder
  capacity : Nat

/-- Exports spans through the shared buffer. -/
def SpanExporter.exportSpans (exporter : SpanExporter) (transport : Transport m)
    (spans : List Span) (shared : Buffer) : m (Outcome × Buffer) :=
  exportEach transport .span exporter.encoder.encode exporter.capacity spans shared

end TelemetryExport
