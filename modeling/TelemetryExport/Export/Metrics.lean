import TelemetryExport.Export.Tally
import TelemetryExport.Metric.Group
import TelemetryExport.Metric.Request

/-! # Exporting metrics

The data points of a batch are packed into as few requests as the buffer allows.
A batch that outgrows one request is cut between points, and each request repeats
the resource and the headers of the scopes and metrics whose points it carries.
A point that does not fit even alone, or has no form in the schema, is left out.
-/

namespace TelemetryExport

/-- The scope group and the metric whose messages are open. -/
structure OpenLevels where
  group : Option Nat
  metric : Option Nat
  deriving DecidableEq, Repr

def OpenLevels.none : OpenLevels := ⟨.none, .none⟩

/-- The request in the making of one export. -/
structure Packer where
  encoder : RequestEncoder
  levels : OpenLevels
  /-- The data points in the request. -/
  points : Nat
  tally : Tally

namespace Packer

/-- Runs a computation on the request. -/
def onEncoder {α : Type} (action : EncodeRequest α) : EStateM EncodeError Packer α
  | ⟨encoder, levels, points, tally⟩ =>
    match action encoder with
    | .ok result encoder => .ok result ⟨encoder, levels, points, tally⟩
    | .error fault encoder => .error fault ⟨encoder, levels, points, tally⟩

/-- Closes the messages at a depth and deeper. -/
def closeTo (depth : Nat) : EStateM EncodeError Packer Unit :=
  modify fun packer => { packer with encoder := packer.encoder.closeTo depth }

/-- Opens the message of the resource if nothing is open. -/
def openResource : EStateM EncodeError Packer Unit := do
  if (← get).encoder.depth = 0 then
    onEncoder RequestEncoder.beginResource
    modify ({ · with levels := .none })

/-- Opens the message of the point's scope unless it is open. -/
def openScope (item : PlacedPoint) : EStateM EncodeError Packer Unit := do
  if (← get).levels.group ≠ some item.group then
    closeTo Level.scope
    modify fun packer => { packer with levels := { packer.levels with metric := none } }
    onEncoder (RequestEncoder.beginScope item.scope)
    modify fun packer => { packer with levels := { packer.levels with group := item.group } }

/-- Opens the messages of the point's metric and instrument unless they are open. -/
def openMetric (item : PlacedPoint) : EStateM EncodeError Packer Unit := do
  if (← get).levels.metric ≠ some item.index then
    closeTo Level.metric
    onEncoder (RequestEncoder.beginMetric item.metric)
    onEncoder (RequestEncoder.beginInstrument item.metric.data)
    modify fun packer => { packer with levels := { packer.levels with metric := item.index } }

/-- Opens whatever messages around the point are not open yet and writes it. -/
def append (item : PlacedPoint) : EStateM EncodeError Packer Unit := do
  openResource
  openScope item
  openMetric item
  onEncoder (RequestEncoder.emit item.point)

/-- Writes a point into the request. On a fault the request is left as it was. -/
def tryWrite (item : PlacedPoint) : EStateM EncodeError Packer Unit := fun packer =>
  let checkpoint := packer.encoder.checkpoint
  let levels := packer.levels
  match append item packer with
  | .ok () packer => .ok () { packer with points := packer.points + 1 }
  | .error fault packer =>
      .error fault { packer with encoder := packer.encoder.rewind checkpoint, levels }

/-- The packer with an empty request. -/
def restart (packer : Packer) : Packer :=
  { packer with encoder := packer.encoder.reset, levels := .none, points := 0 }

variable {m : Type → Type} [Monad m]

/-- Sends the request, if it holds a point, and starts an empty one. -/
def flush (transport : Transport m) (packer : Packer) : m Packer := do
  if packer.points = 0 then
    return packer
  let payload := packer.encoder.payload
  transport.report (.sending packer.points payload.size)
  let tally ← packer.tally.send transport packer.points payload
  return { packer with tally }.restart

/-- Leaves a point out. -/
def drop (transport : Transport m) (cause : EncodeError) (packer : Packer) : m Packer := do
  let tally ← packer.tally.drop transport .dataPoint cause
  return { packer with tally }

/-- Writes a point. When the request is too full for it, sends the request and
tries again with an empty one; when that fails too, leaves the point out. -/
def write (transport : Transport m) (packer : Packer) (item : PlacedPoint) : m Packer := do
  match tryWrite item packer with
  | .ok () packer => return packer
  | .error cause packer =>
      if cause.isOverflow && 0 < packer.points then
        let packer ← packer.flush transport
        match tryWrite item packer with
        | .ok () packer => return packer
        | .error cause packer => packer.drop transport cause
      else
        packer.drop transport cause

/-- Writes points in order and sends what remains. -/
def writeAll (transport : Transport m) (packer : Packer) (items : List PlacedPoint) :
    m Packer := do
  let packer ← items.foldlM (write transport) packer
  packer.flush transport

/-- The packer at the start of an export, over a buffer. -/
def start (format : RequestFormat) (buffer : Buffer) (total : Nat) : Packer where
  encoder := format.start buffer
  levels := .none
  points := 0
  tally := Tally.start total

end Packer

/-- Sends batches of metrics as requests. -/
structure MetricExporter where
  format : RequestFormat
  /-- The buffer of every request, whose capacity bounds the payloads. -/
  buffer : Buffer

namespace MetricExporter

variable {m : Type → Type} [Monad m]

/-- Exports a batch and returns the outcome and the exporter for the next one. -/
def exportMetrics (exporter : MetricExporter) (transport : Transport m) (batch : List Metric) :
    m (Outcome × MetricExporter) := do
  if ← transport.isEnabled then
    let packer := Packer.start exporter.format exporter.buffer (Metric.countPoints batch)
    let packer ← packer.writeAll transport (PlacedPoint.ofBatch batch)
    return (packer.tally.outcome, { exporter with buffer := packer.encoder.buffer })
  else
    return (.ok (), exporter)

end MetricExporter

end TelemetryExport
