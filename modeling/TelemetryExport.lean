import TelemetryExport.Attribute
import TelemetryExport.Buffer.Basic
import TelemetryExport.Buffer.Slot
import TelemetryExport.Buffer.SlotStack
import TelemetryExport.Bytes
import TelemetryExport.Configuration
import TelemetryExport.Error
import TelemetryExport.Export.Metrics
import TelemetryExport.Export.Records
import TelemetryExport.Export.Tally
import TelemetryExport.Export.Transport
import TelemetryExport.MessagePack.OpenMap
import TelemetryExport.MessagePack.Reader
import TelemetryExport.MessagePack.Writer
import TelemetryExport.Metric.Basic
import TelemetryExport.Metric.Field
import TelemetryExport.Metric.Group
import TelemetryExport.Metric.Point
import TelemetryExport.Metric.Request
import TelemetryExport.Metric.Schema
import TelemetryExport.Number.Binary64
import TelemetryExport.Number.Shortest
import TelemetryExport.Proofs.Attribute
import TelemetryExport.Proofs.Buffer.Aligned
import TelemetryExport.Proofs.Buffer.Discipline
import TelemetryExport.Proofs.Buffer.OpenHeaders
import TelemetryExport.Proofs.Buffer.Storage
import TelemetryExport.Proofs.Buffer.Writes
import TelemetryExport.Proofs.Export.Accepting
import TelemetryExport.Proofs.Export.Accounting
import TelemetryExport.Proofs.Export.Alike
import TelemetryExport.Proofs.Export.Appending
import TelemetryExport.Proofs.Export.Asserting
import TelemetryExport.Proofs.Export.Atomic
import TelemetryExport.Proofs.Export.Capacity
import TelemetryExport.Proofs.Export.Cargo
import TelemetryExport.Proofs.Export.Delivery
import TelemetryExport.Proofs.Export.Draft
import TelemetryExport.Proofs.Export.Encoding
import TelemetryExport.Proofs.Export.Fate
import TelemetryExport.Proofs.Export.Fewest
import TelemetryExport.Proofs.Export.Grouping
import TelemetryExport.Proofs.Export.History
import TelemetryExport.Proofs.Export.Invariant
import TelemetryExport.Proofs.Export.Packing
import TelemetryExport.Proofs.Export.Partition
import TelemetryExport.Proofs.Export.Records
import TelemetryExport.Proofs.Export.Run
import TelemetryExport.Proofs.Export.Scripted
import TelemetryExport.Proofs.Export.Shipping
import TelemetryExport.Proofs.Export.Undeliverable
import TelemetryExport.Proofs.MessagePack.Containers
import TelemetryExport.Proofs.MessagePack.Encoding
import TelemetryExport.Proofs.MessagePack.Formats
import TelemetryExport.Proofs.MessagePack.Integers
import TelemetryExport.Proofs.Metric.Aligned
import TelemetryExport.Proofs.Metric.Asserting
import TelemetryExport.Proofs.Metric.Contents
import TelemetryExport.Proofs.Metric.Decoding
import TelemetryExport.Proofs.Metric.Draft
import TelemetryExport.Proofs.Metric.Fields
import TelemetryExport.Proofs.Metric.Holds
import TelemetryExport.Proofs.Metric.Message
import TelemetryExport.Proofs.Metric.Operations
import TelemetryExport.Proofs.Metric.Rewinding
import TelemetryExport.Proofs.Metric.Session
import TelemetryExport.Proofs.Metric.Tree
import TelemetryExport.Proofs.Number.Signed
import TelemetryExport.Proofs.Number.Zigzag
import TelemetryExport.Proofs.Protobuf.Asserting
import TelemetryExport.Proofs.Protobuf.Backpatching
import TelemetryExport.Proofs.Protobuf.Merge
import TelemetryExport.Proofs.Protobuf.MessageTree
import TelemetryExport.Proofs.Protobuf.OpenMessages
import TelemetryExport.Proofs.Protobuf.Wire
import TelemetryExport.Proofs.Protobuf.Writers
import TelemetryExport.Proofs.Record.Aligned
import TelemetryExport.Proofs.Record.Append
import TelemetryExport.Proofs.Record.Construction
import TelemetryExport.Proofs.Record.DistinctKeys
import TelemetryExport.Proofs.Record.KeyOrder
import TelemetryExport.Proofs.Record.Log
import TelemetryExport.Proofs.Record.LogEncoder
import TelemetryExport.Proofs.Record.LogEnvelope
import TelemetryExport.Proofs.Record.PassThrough
import TelemetryExport.Proofs.Record.Placement
import TelemetryExport.Proofs.Record.RenamedColumns
import TelemetryExport.Proofs.Record.Reordered
import TelemetryExport.Proofs.Record.Repeats
import TelemetryExport.Proofs.Record.Resolution
import TelemetryExport.Proofs.Record.Routing
import TelemetryExport.Proofs.Record.Shortest
import TelemetryExport.Proofs.Record.Span
import TelemetryExport.Proofs.Record.SpanEncoder
import TelemetryExport.Proofs.Record.TableName
import TelemetryExport.Proofs.Record.Tables
import TelemetryExport.Proofs.Record.Template
import TelemetryExport.Proofs.Text.Ascii
import TelemetryExport.Proofs.Text.Hex
import TelemetryExport.Proofs.Varint
import TelemetryExport.Proofs.Varint.Codec
import TelemetryExport.Record.Column
import TelemetryExport.Record.KeyOrder
import TelemetryExport.Record.Log
import TelemetryExport.Record.LogEncoder
import TelemetryExport.Record.Placement
import TelemetryExport.Record.Span
import TelemetryExport.Record.TableName
import TelemetryExport.Record.Template
import TelemetryExport.Text.Hex
import TelemetryExport.Text.Printable
import TelemetryExport.Text.Quoted
import TelemetryExport.Time
import TelemetryExport.TraceContext
import TelemetryExport.Varint
