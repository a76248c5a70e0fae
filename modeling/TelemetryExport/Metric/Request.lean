import TelemetryExport.Buffer.SlotStack
import TelemetryExport.Metric.Point

/-! # Metrics export requests

A request is written in one pass. Four messages are open around the data points
of a metric: the resource's, the scope's, the metric's and the instrument's; a
fifth is open while a point is written. After every point the headers of all open
messages get their lengths so far, so that the buffer always ends in a complete
request and can be sent as soon as the next point does not fit.
-/

namespace TelemetryExport

/-- The resource that every request of an exporter describes. -/
structure RequestFormat where
  /-- The field that holds the resource, with its header. -/
  resource : ByteArray

/-! The levels at which the messages of a request are open, from the outside in. -/

namespace Level

def resource : Nat := 0
def scope : Nat := 1
def metric : Nat := 2
def instrument : Nat := 3
def dataPoint : Nat := 4

/-- The number of levels. -/
def count : Nat := 5

end Level

/-- A request in the making. -/
structure RequestEncoder where
  buffer : Buffer
  resource : ByteArray
  /-- The headers of the open messages. -/
  levels : SlotStack Level.count
  /-- The instrument whose message is open. -/
  instrument : Option Instrument

/-- The position and the open messages of a request, for taking it back there. -/
structure RequestCheckpoint where
  position : Checkpoint
  levels : SlotStack Level.count
  instrument : Option Instrument

namespace RequestFormat

/-- The format for a resource with the given attributes. -/
def make (properties : List Attribute) : Except ConfigError RequestFormat := do
  let field := Encode.message Schema.ResourceMetrics.resource
    (writeProperties Schema.Resource.properties properties)
  let ((), resource) ← field.run.mapError .resourceTooLarge
  return ⟨resource⟩

/-- The length of a request that holds only the resource. -/
def resourceLength (format : RequestFormat) : Nat :=
  Slot.messageWidth + format.resource.size

/-- An empty request at the beginning of a buffer. -/
def start (format : RequestFormat) (buffer : Buffer) : RequestEncoder where
  buffer := buffer.reset
  resource := format.resource
  levels := .empty
  instrument := none

end RequestFormat

/-- A computation that appends to a request. -/
abbrev EncodeRequest := EStateM EncodeError RequestEncoder

namespace RequestEncoder

/-- The number of open messages. -/
def depth (encoder : RequestEncoder) : Nat := encoder.levels.depth

/-- The request so far. It is complete whenever no point is half-written. -/
def payload (encoder : RequestEncoder) : ByteArray := encoder.buffer.written

def checkpoint (encoder : RequestEncoder) : RequestCheckpoint :=
  ⟨encoder.buffer.checkpoint, encoder.levels, encoder.instrument⟩

/-- Takes the request back. Messages closed since are open again. -/
def rewind (encoder : RequestEncoder) (checkpoint : RequestCheckpoint) : RequestEncoder :=
  { encoder with
    buffer := encoder.buffer.rewind checkpoint.position
    levels := checkpoint.levels
    instrument := checkpoint.instrument }

/-- Drops the request and starts an empty one. -/
def reset (encoder : RequestEncoder) : RequestEncoder :=
  { encoder with
    buffer := encoder.buffer.reset
    levels := encoder.levels.clear
    instrument := none }

/-- Closes the messages at `depth` and deeper. Their headers hold their lengths already. -/
def closeTo (encoder : RequestEncoder) (depth : Nat) : RequestEncoder :=
  { encoder with
    levels := encoder.levels.truncate depth
    instrument := if depth ≤ Level.instrument then none else encoder.instrument }

/-- The field of its parent that the message at a level is. -/
def fieldAt (instrument : Option Instrument) (level : Nat) : Nat :=
  if level = Level.resource then Schema.Request.resourceMetrics
  else if level = Level.scope then Schema.ResourceMetrics.scopeMetrics
  else if level = Level.metric then Schema.ScopeMetrics.metrics
  else if level = Level.instrument then
    Schema.Metric.instrument (instrument.getD .gauge)
  else Schema.Instrument.dataPoints

/-- Runs a computation on the request's buffer. -/
def onBuffer {α : Type} (action : Encode α) : EncodeRequest α
  | ⟨buffer, resource, levels, instrument⟩ =>
    match action buffer with
    | .ok result buffer => .ok result ⟨buffer, resource, levels, instrument⟩
    | .error fault buffer => .error fault ⟨buffer, resource, levels, instrument⟩

/-- Puts a reserved header on the stack of open ones. -/
def pushLevel (slot : Slot) : EncodeRequest Unit := fun encoder =>
  match encoder.levels.push slot with
  | .ok levels => .ok () { encoder with levels }
  | .error fault => .error fault encoder

/-- Takes the innermost header off the stack of open ones. -/
def popLevel : EncodeRequest (Option Slot) := fun encoder =>
  let (slot, levels) := encoder.levels.pop
  .ok slot { encoder with levels }

/-- Opens a message inside the innermost open one. -/
def openLevel : EncodeRequest Unit := do
  pushLevel (← onBuffer Encode.reserveMessage)

/-- Opens the message of the resource and writes the resource. -/
def beginResource : EncodeRequest Unit := do
  openLevel
  onBuffer (Encode.write (← get).resource)

/-- Appends the description of a scope. -/
def writeScope (scope : Scope) : Encode Unit :=
  Encode.message Schema.ScopeMetrics.scope do
    Field.writeText Schema.Scope.name scope.name
    match scope.version with
    | some version => Field.writeText Schema.Scope.version version
    | none => pure ()
    writeProperties Schema.Scope.properties scope.properties

/-- Opens the message of a scope and writes its description. -/
def beginScope (scope : Scope) : EncodeRequest Unit := do
  openLevel
  onBuffer (writeScope scope)

/-- Appends the name of a metric, and its description and unit unless empty. -/
def writeMetricHeader (metric : Metric) : Encode Unit := do
  Field.writeText Schema.Metric.name metric.name
  unless metric.description.isEmpty do
    Field.writeText Schema.Metric.description metric.description
  unless metric.unit.isEmpty do
    Field.writeText Schema.Metric.unit metric.unit

/-- Opens the message of a metric and writes its header. -/
def beginMetric (metric : Metric) : EncodeRequest Unit := do
  openLevel
  onBuffer (writeMetricHeader metric)

/-- Appends a temporality, unless it is the default. -/
def writeTemporality : Temporality → Encode Unit
  | .unspecified => pure ()
  | .delta => Field.writeVarint Schema.Instrument.temporality 1
  | .cumulative => Field.writeVarint Schema.Instrument.temporality 2

/-- Appends what an instrument says about all of its points. -/
def writeInstrumentHeader : MetricData → Encode Unit
  | .gauge _ => pure ()
  | .sum _ temporality monotonic => do
      writeTemporality temporality
      if monotonic then
        Field.writeBool Schema.Instrument.monotonic true
  | .histogram _ temporality => writeTemporality temporality
  | .exponential _ temporality => writeTemporality temporality

/-- Opens the message of an instrument and writes its header. -/
def beginInstrument (data : MetricData) : EncodeRequest Unit := do
  openLevel
  modify ({ · with instrument := some (Instrument.ofData data) })
  onBuffer (writeInstrumentHeader data)

/-- Gives the headers of open messages, from a level inward, their lengths so far. -/
def patchFrom (instrument : Option Instrument) : Nat → List Slot → Encode Unit
  | _, [] => pure ()
  | level, slot :: deeper => do
      Encode.patchMessage slot (fieldAt instrument level)
      patchFrom instrument (level + 1) deeper

/-- Gives the headers of all open messages their lengths so far, outermost first. -/
def patchLevels : EncodeRequest Unit := do
  let encoder ← get
  onBuffer (patchFrom encoder.instrument 0 encoder.levels.toList)

/-- Writes a data point into the open instrument and completes the request. On a
fault the point stays half-written until the request is taken back. -/
def emit (point : DataPoint) : EncodeRequest Unit := do
  openLevel
  onBuffer point.write
  match ← popLevel with
  | some slot => onBuffer (Encode.patchMessage slot Schema.Instrument.dataPoints)
  | none => pure ()
  patchLevels

end RequestEncoder

end TelemetryExport
