import TelemetryExport.Metric.Field
import TelemetryExport.Metric.Schema

/-! # Data points

Appends attributes, exemplars and the fields of data points. A histogram whose
bucket counts do not go with its bounds and an exponential histogram whose scale
is out of range are refused, after the fields before the offending one have been
written.
-/

namespace TelemetryExport

/-- Appends the value of an attribute as the one field of its message. -/
def writeAnyValue : Scalar → Encode Unit
  | .text value => Field.writeText Schema.AnyValue.text value
  | .bool value => Field.writeBool Schema.AnyValue.bool value
  | .int value => Field.writeInt64 Schema.AnyValue.int value
  | .double value => Field.writeDouble Schema.AnyValue.double value
  | .null => pure ()

/-- Appends an attribute as field `field` of the enclosing message. A null value
writes nothing. -/
def writeKeyValue (field : Nat) (key : String) (value : Scalar) : Encode Unit := do
  unless value.isNull do
    Encode.message field do
      Field.writeText Schema.KeyValue.key key
      Encode.message Schema.KeyValue.value (writeAnyValue value)

/-- Appends attributes in order, each as field `field` of the enclosing message. -/
def writeProperties (field : Nat) (properties : List Attribute) : Encode Unit :=
  properties.forM fun property => writeKeyValue field property.key property.value

namespace Number

/-- Appends the number under the field of its kind. -/
def write (doubleField intField : Nat) : Number → Encode Unit
  | double value => Field.writeDouble doubleField value
  | int value => Field.writeSignedFixed64 intField value

end Number

/-- Appends a double under a field, if there is one. -/
def writeOptionalDouble (field : Nat) : Option Binary64 → Encode Unit
  | some value => Field.writeDouble field value
  | none => pure ()

/-- Appends bytes under a field, if there are any. -/
def writeOptionalBytes (field : Nat) : Option (List UInt8) → Encode Unit
  | some bytes => Field.writeBytes field bytes.toByteArray
  | none => pure ()

namespace Exemplar

/-- Appends the fields of an exemplar. -/
def write (exemplar : Exemplar) : Encode Unit := do
  Field.writeFixed64 Schema.Exemplar.time exemplar.time.unixNanos
  exemplar.value.write Schema.Exemplar.double Schema.Exemplar.int
  writeOptionalBytes Schema.Exemplar.spanId (exemplar.spanId.map (·.bytes.toList))
  writeOptionalBytes Schema.Exemplar.traceId (exemplar.traceId.map (·.bytes.toList))
  writeProperties Schema.Exemplar.properties exemplar.properties

/-- Appends exemplars in order, each as field `field` of the enclosing message. -/
def writeAll (field : Nat) (exemplars : List Exemplar) : Encode Unit :=
  exemplars.forM fun exemplar => Encode.message field exemplar.write

end Exemplar

def NumberPoint.write (point : NumberPoint) : Encode Unit := do
  Field.writeFixed64 Schema.NumberPoint.startTime point.startTime.unixNanos
  Field.writeFixed64 Schema.NumberPoint.time point.time.unixNanos
  point.value.write Schema.NumberPoint.double Schema.NumberPoint.int
  Exemplar.writeAll Schema.NumberPoint.exemplars point.exemplars
  writeProperties Schema.NumberPoint.properties point.properties

namespace HistogramPoint

/-- Whether there are no bucket counts, or one more than bounds. -/
def hasValidBuckets (point : HistogramPoint) : Bool :=
  point.counts.isEmpty || point.counts.length == point.bounds.length + 1

def invalidBuckets : EncodeError :=
  .invalidDataPoint "histogram needs exactly one more bucket count than explicit bounds"

def write (point : HistogramPoint) : Encode Unit := do
  Field.writeFixed64 Schema.HistogramPoint.startTime point.startTime.unixNanos
  Field.writeFixed64 Schema.HistogramPoint.time point.time.unixNanos
  Field.writeFixed64 Schema.HistogramPoint.count point.count
  writeOptionalDouble Schema.HistogramPoint.sum point.sum
  unless point.hasValidBuckets do
    throw invalidBuckets
  Field.writePackedFixed64 Schema.HistogramPoint.counts point.counts
  Field.writePackedDouble Schema.HistogramPoint.bounds point.bounds
  Exemplar.writeAll Schema.HistogramPoint.exemplars point.exemplars
  writeOptionalDouble Schema.HistogramPoint.min point.min
  writeOptionalDouble Schema.HistogramPoint.max point.max
  writeProperties Schema.HistogramPoint.properties point.properties

end HistogramPoint

namespace ExponentialBuckets

/-- Whether reading no message at all gives the same buckets. -/
def isDefault (buckets : ExponentialBuckets) : Bool :=
  buckets.counts.isEmpty && buckets.offset == 0

/-- Appends the buckets as field `field`, unless they are the default. -/
def write (field : Nat) (buckets : ExponentialBuckets) : Encode Unit := do
  unless buckets.isDefault do
    Encode.message field do
      unless buckets.offset == 0 do
        Field.writeSignedInt32 Schema.Buckets.offset buckets.offset
      Field.writePackedVarint Schema.Buckets.counts buckets.counts

end ExponentialBuckets

namespace ExponentialPoint

/-- The least and the greatest scale of an exponential histogram. -/
def scaleRange : Int × Int := (-10, 20)

def hasValidScale (point : ExponentialPoint) : Bool :=
  decide (scaleRange.1 ≤ point.scale.toInt ∧ point.scale.toInt ≤ scaleRange.2)

def invalidScale : EncodeError :=
  .invalidDataPoint "exponential histogram scale is outside [-10, 20]"

def write (point : ExponentialPoint) : Encode Unit := do
  writeProperties Schema.ExponentialPoint.properties point.properties
  Field.writeFixed64 Schema.ExponentialPoint.startTime point.startTime.unixNanos
  Field.writeFixed64 Schema.ExponentialPoint.time point.time.unixNanos
  Field.writeFixed64 Schema.ExponentialPoint.count point.count
  writeOptionalDouble Schema.ExponentialPoint.sum point.sum
  unless point.hasValidScale do
    throw invalidScale
  Field.writeSignedInt32 Schema.ExponentialPoint.scale point.scale
  Field.writeFixed64 Schema.ExponentialPoint.zeroCount point.zeroCount
  point.positive.write Schema.ExponentialPoint.positive
  point.negative.write Schema.ExponentialPoint.negative
  writeOptionalDouble Schema.ExponentialPoint.min point.min
  writeOptionalDouble Schema.ExponentialPoint.max point.max
  unless point.zeroThreshold.isZero do
    Field.writeDouble Schema.ExponentialPoint.zeroThreshold point.zeroThreshold

end ExponentialPoint

namespace DataPoint

def write : DataPoint → Encode Unit
  | number point => point.write
  | histogram point => point.write
  | exponential point => point.write

end DataPoint

end TelemetryExport
