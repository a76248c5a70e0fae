import TelemetryExport.Text.Hex

/-! # Trace identity

Identifiers of traces and spans, and the context that ties a log record to the
span in which it was written.
-/

namespace TelemetryExport

structure TraceId where
  bytes : Vector UInt8 16
  deriving DecidableEq, Repr

structure SpanId where
  bytes : Vector UInt8 8
  deriving DecidableEq, Repr

/-- The identifier of no trace. -/
def TraceId.invalid : TraceId := ⟨Vector.replicate 16 0⟩

def TraceId.hex (id : TraceId) : String := Text.hex id.bytes.toList

/-- The identifier of no span. -/
def SpanId.invalid : SpanId := ⟨Vector.replicate 8 0⟩

def SpanId.hex (id : SpanId) : String := Text.hex id.bytes.toList

structure TraceContext where
  traceId : TraceId
  spanId : SpanId
  flags : UInt8
  deriving DecidableEq, Repr

end TelemetryExport
