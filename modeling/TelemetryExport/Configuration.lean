import TelemetryExport.Export.Metrics
import TelemetryExport.Export.Records

/-! # Configuring exporters

One configuration describes the exporters of all three signals. An exporter is
made only if its capacity is within the payload limit and holds at least the
constant part of what the exporter sends.
-/

namespace TelemetryExport

namespace Default

/-- The table of log records whose category is not mapped. -/
def logTable : String := "Log"

/-- The table of spans. -/
def spanTable : String := "Span"

end Default

/-! How payloads appear to those who listen on the system's event tracing. -/

namespace EventTracing

/-- The group of providers that relay telemetry. -/
def groupId : String := "e60ec51a-8e54-5a4f-2fb2-60a4f9213b3a"

/-- The event that carries a payload, and its one field. -/
def eventName : String := "OpenTelemetryPayload"
def payloadField : String := "Payload"

end EventTracing

/-- What can be configured about exporters. -/
structure ExporterConfig where
  logTable : String := Default.logTable
  spanTable : String := Default.spanTable
  /-- Pairs of a log category and the table of its records. -/
  mappings : List (String × String) := []
  /-- Fields that every log record and every span gets. -/
  prepopulated : List Attribute := []
  /-- The properties that get a column of their own, if not all do. -/
  customColumns : Option (List String) := none
  /-- Attributes of the resource that metrics describe. -/
  resource : List Attribute := []
  /-- The bound on every payload. -/
  capacity : Nat := maxPayloadSize

namespace ExporterConfig

/-- The capacity, if it is within the limit and holds a header of the given size. -/
def checkedCapacity (config : ExporterConfig) (header : Nat) : Except ConfigError Nat :=
  if maxPayloadSize < config.capacity then
    .error (.capacityAboveLimit config.capacity maxPayloadSize)
  else if config.capacity < header then
    .error (.capacityBelowHeader config.capacity header)
  else .ok config.capacity

def logEncoder (config : ExporterConfig) : Except ConfigError LogEncoder :=
  LogEncoder.make config.logTable config.mappings config.prepopulated config.customColumns

def spanEncoder (config : ExporterConfig) : Except ConfigError SpanEncoder :=
  SpanEncoder.make config.spanTable config.prepopulated config.customColumns

def requestFormat (config : ExporterConfig) : Except ConfigError RequestFormat :=
  RequestFormat.make config.resource

/-- The length of the longest of the shortest records of the tables. -/
def longestHeader (templates : List RecordTemplate) : Nat :=
  templates.foldl (fun longest template => max longest template.minRecordLength) 0

def logExporter (config : ExporterConfig) : Except ConfigError LogExporter := do
  let encoder ← config.logEncoder
  let capacity ← config.checkedCapacity (longestHeader encoder.templates)
  return ⟨encoder, capacity⟩

def spanExporter (config : ExporterConfig) : Except ConfigError SpanExporter := do
  let encoder ← config.spanEncoder
  let capacity ← config.checkedCapacity encoder.template.minRecordLength
  return ⟨encoder, capacity⟩

def metricExporter (config : ExporterConfig) : Except ConfigError MetricExporter := do
  let format ← config.requestFormat
  let capacity ← config.checkedCapacity format.resourceLength
  return ⟨format, Buffer.withCapacity capacity⟩

end ExporterConfig

/-- Exporters of an encoder for payloads of any admitted size. -/
def LogExporter.ofEncoder (encoder : LogEncoder) : LogExporter := ⟨encoder, maxPayloadSize⟩

def SpanExporter.ofEncoder (encoder : SpanEncoder) : SpanExporter := ⟨encoder, maxPayloadSize⟩

def MetricExporter.ofFormat (format : RequestFormat) : MetricExporter := ⟨format, Buffer.empty⟩

end TelemetryExport
