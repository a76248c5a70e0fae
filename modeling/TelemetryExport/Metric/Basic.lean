import TelemetryExport.Attribute
import TelemetryExport.Time
import TelemetryExport.TraceContext

/-! # Metrics

A metric is a stream of data points of one instrument, with the instrumentation
scope that produced it. The data points of an instrument are all of one kind.
-/

namespace TelemetryExport

/-- The instrumentation that produced a metric. -/
structure Scope where
  name : String
  version : Option String
  properties : List Attribute
  deriving DecidableEq, Repr

/-- Whether two scopes have the same name and the same version. An empty version
differs from none. -/
def Scope.sameAs (scope other : Scope) : Bool :=
  scope.name == other.name && scope.version == other.version

/-- How the points of a stream relate to the points before them. -/
inductive Temporality where
  | unspecified
  | delta
  | cumulative
  deriving DecidableEq, Repr

/-- A measured number. -/
inductive Number where
  | int (value : Int64)
  | double (value : Binary64)
  deriving DecidableEq, Repr

/-- A sample measurement behind a data point. -/
structure Exemplar where
  properties : List Attribute
  time : Time
  value : Number
  spanId : Option SpanId
  traceId : Option TraceId
  deriving DecidableEq, Repr

structure NumberPoint where
  properties : List Attribute
  startTime : Time
  time : Time
  value : Number
  exemplars : List Exemplar
  deriving DecidableEq, Repr

structure HistogramPoint where
  properties : List Attribute
  startTime : Time
  time : Time
  count : UInt64
  sum : Option Binary64
  /-- The counts of the buckets, one more than there are bounds, or none at all. -/
  counts : List UInt64
  bounds : List Binary64
  min : Option Binary64
  max : Option Binary64
  exemplars : List Exemplar
  deriving DecidableEq, Repr

/-- The buckets of an exponential histogram on one side of zero. -/
structure ExponentialBuckets where
  offset : Int32
  counts : List UInt64
  deriving DecidableEq, Repr

structure ExponentialPoint where
  properties : List Attribute
  startTime : Time
  time : Time
  count : UInt64
  sum : Option Binary64
  scale : Int32
  zeroCount : UInt64
  positive : ExponentialBuckets
  negative : ExponentialBuckets
  min : Option Binary64
  max : Option Binary64
  zeroThreshold : Binary64
  deriving DecidableEq, Repr

/-- A data point of any kind. -/
inductive DataPoint where
  | number (point : NumberPoint)
  | histogram (point : HistogramPoint)
  | exponential (point : ExponentialPoint)
  deriving DecidableEq, Repr

/-- An instrument with its data points. -/
inductive MetricData where
  | gauge (points : List NumberPoint)
  | sum (points : List NumberPoint) (temporality : Temporality) (monotonic : Bool)
  | histogram (points : List HistogramPoint) (temporality : Temporality)
  | exponential (points : List ExponentialPoint) (temporality : Temporality)
  deriving DecidableEq, Repr

namespace MetricData

/-- The data points in order. -/
def points : MetricData → List DataPoint
  | gauge points => points.map .number
  | sum points _ _ => points.map .number
  | histogram points _ => points.map .histogram
  | exponential points _ => points.map .exponential

/-- How many data points there are. -/
def pointCount : MetricData → Nat
  | gauge points => points.length
  | sum points _ _ => points.length
  | histogram points _ => points.length
  | exponential points _ => points.length

end MetricData

structure Metric where
  scope : Scope
  name : String
  description : String
  unit : String
  data : MetricData
  deriving DecidableEq, Repr

/-- How many data points metrics have together. -/
def Metric.countPoints : List Metric → Nat
  | [] => 0
  | metric :: rest => metric.data.pointCount + countPoints rest

/-- The instrument without its data. -/
inductive Instrument where
  | gauge
  | sum
  | histogram
  | exponentialHistogram
  deriving DecidableEq, Repr

namespace Instrument

def ofData : MetricData → Instrument
  | .gauge .. => gauge
  | .sum .. => sum
  | .histogram .. => histogram
  | .exponential .. => exponentialHistogram

def name : Instrument → String
  | gauge => "Gauge"
  | sum => "Sum"
  | histogram => "Histogram"
  | exponentialHistogram => "ExponentialHistogram"

end Instrument

end TelemetryExport
