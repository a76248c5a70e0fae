import TelemetryExport.Metric.Basic

/-! # The metrics schema

The numbers of the fields in the messages of a metrics export request. Every
field that holds a message has a number below 16, so that its tag is one byte.
-/

namespace TelemetryExport.Schema

namespace Request
def resourceMetrics : Nat := 1
end Request

namespace ResourceMetrics
def resource : Nat := 1
def scopeMetrics : Nat := 2
end ResourceMetrics

namespace Resource
def properties : Nat := 1
end Resource

namespace ScopeMetrics
def scope : Nat := 1
def metrics : Nat := 2
end ScopeMetrics

namespace Scope
def name : Nat := 1
def version : Nat := 2
def properties : Nat := 3
end Scope

namespace Metric
def name : Nat := 1
def description : Nat := 2
def unit : Nat := 3

/-- The field that holds the instrument, which tells its kind. -/
def instrument : Instrument → Nat
  | .gauge => 5
  | .sum => 7
  | .histogram => 9
  | .exponentialHistogram => 10
end Metric

namespace Instrument
def dataPoints : Nat := 1
def temporality : Nat := 2
def monotonic : Nat := 3
end Instrument

namespace NumberPoint
def startTime : Nat := 2
def time : Nat := 3
def double : Nat := 4
def exemplars : Nat := 5
def int : Nat := 6
def properties : Nat := 7
end NumberPoint

namespace HistogramPoint
def startTime : Nat := 2
def time : Nat := 3
def count : Nat := 4
def sum : Nat := 5
def counts : Nat := 6
def bounds : Nat := 7
def exemplars : Nat := 8
def properties : Nat := 9
def min : Nat := 11
def max : Nat := 12
end HistogramPoint

namespace ExponentialPoint
def properties : Nat := 1
def startTime : Nat := 2
def time : Nat := 3
def count : Nat := 4
def sum : Nat := 5
def scale : Nat := 6
def zeroCount : Nat := 7
def positive : Nat := 8
def negative : Nat := 9
def min : Nat := 12
def max : Nat := 13
def zeroThreshold : Nat := 14
end ExponentialPoint

namespace Buckets
def offset : Nat := 1
def counts : Nat := 2
end Buckets

namespace Exemplar
def time : Nat := 2
def double : Nat := 3
def spanId : Nat := 4
def traceId : Nat := 5
def int : Nat := 6
def properties : Nat := 7
end Exemplar

namespace KeyValue
def key : Nat := 1
def value : Nat := 2
end KeyValue

namespace AnyValue
def text : Nat := 1
def bool : Nat := 2
def int : Nat := 3
def double : Nat := 4
end AnyValue

end TelemetryExport.Schema
