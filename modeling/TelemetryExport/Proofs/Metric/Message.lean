import TelemetryExport.Metric.Point
import TelemetryExport.Proofs.Protobuf.Wire

/-! # Messages of the metrics schema

What a receiver of metrics makes of a request. Every message has a step that
takes one field into it: the last of several scalars counts, repeated fields are
collected, a message that occurs again is merged into the first, and fields that
the schema does not know are skipped. A field of the wrong wire type and a text
that is not valid make the whole unreadable. The numbers are those of the schema
as it is published.

For each thing that is exported stands here also the message that should arrive.
-/

namespace TelemetryExport

namespace WireValue

def varint? : WireValue → Option UInt64
  | varint value => some value
  | _ => none

def fixed64? : WireValue → Option UInt64
  | fixed64 value => some value
  | _ => none

def bytes? : WireValue → Option (List UInt8)
  | bytes content => some content
  | _ => none

def text? (value : WireValue) : Option String := do
  String.fromUTF8? (← value.bytes?).toByteArray

def double? (value : WireValue) : Option Binary64 :=
  value.fixed64?.map Binary64.mk

def bool? (value : WireValue) : Option Bool :=
  value.varint?.map (· != 0)

def int64? (value : WireValue) : Option Int64 :=
  value.varint?.map UInt64.toInt64

/-- A signed integer in eight bytes. -/
def signedFixed64? (value : WireValue) : Option Int64 :=
  value.fixed64?.map UInt64.toInt64

/-- A signed integer of which the low 32 bits count. -/
def int32? (value : WireValue) : Option Int32 :=
  value.varint?.map fun n => n.toUInt32.toInt32

/-- A signed integer folded onto an unsigned one, of which the low 32 bits count. -/
def foldedInt32? (value : WireValue) : Option Int32 :=
  value.varint?.map fun n =>
    let half := (n.toUInt32 / 2).toInt32
    if n.toUInt32 % 2 = 0 then half else -half - 1

/-- A message, read from nothing. -/
def message? {α : Type} (step : α → Nat → WireValue → Option α) (empty : α) (value : WireValue) :
    Option α := do
  Wire.merge step empty (← value.bytes?)

/-- Numbers of eight bytes each that make up all of the bytes. -/
def packedFixed64? : List UInt8 → Option (List UInt64)
  | [] => some []
  | b0 :: b1 :: b2 :: b3 :: b4 :: b5 :: b6 :: b7 :: rest =>
      (packedFixed64? rest).map
        (UInt64.ofNat (Bytes.value [b0, b1, b2, b3, b4, b5, b6, b7]) :: ·)
  | _ => none

/-- At most so many varints that make up all of the bytes. -/
def packedVarints? : Nat → List UInt8 → Option (List UInt64)
  | _, [] => some []
  | 0, _ :: _ => none
  | fuel + 1, byte :: tail => do
      let (value, rest) ← Wire.varint? (byte :: tail)
      return UInt64.ofNat value :: (← packedVarints? fuel rest)

/-- The numbers that one occurrence of a repeated field of eight-byte numbers adds. -/
def repeatedFixed64? : WireValue → Option (List UInt64)
  | fixed64 value => some [value]
  | bytes content => packedFixed64? content
  | _ => none

/-- The numbers that one occurrence of a repeated field of varints adds. -/
def repeatedVarint? : WireValue → Option (List UInt64)
  | varint value => some [value]
  | bytes content => packedVarints? content.length content
  | _ => none

end WireValue

namespace Message

/-! ## Attributes -/

structure KeyValue where
  key : String := ""
  value : Option Scalar := none
  deriving DecidableEq

/-- Takes a field into the value of an attribute. -/
def anyValueField (message : Scalar) : Nat → WireValue → Option Scalar
  | 1, value => value.text?.map .text
  | 2, value => value.bool?.map .bool
  | 3, value => value.int64?.map .int
  | 4, value => value.double?.map .double
  | _, _ => some message

def KeyValue.field (message : KeyValue) : Nat → WireValue → Option KeyValue
  | 1, value => do return { message with key := ← value.text? }
  | 2, value => do
      let content ← value.bytes?
      return { message with
        value := some (← Wire.merge anyValueField (message.value.getD .null) content) }
  | _, _ => some message

def keyValue? : WireValue → Option KeyValue := WireValue.message? KeyValue.field {}

/-! ## Data points -/

structure Exemplar where
  attributes : List KeyValue := []
  time : UInt64 := 0
  value : Option Number := none
  spanId : List UInt8 := []
  traceId : List UInt8 := []
  deriving DecidableEq

def Exemplar.field (message : Exemplar) : Nat → WireValue → Option Exemplar
  | 2, value => do return { message with time := ← value.fixed64? }
  | 3, value => do return { message with value := some (.double (← value.double?)) }
  | 4, value => do return { message with spanId := ← value.bytes? }
  | 5, value => do return { message with traceId := ← value.bytes? }
  | 6, value => do return { message with value := some (.int (← value.signedFixed64?)) }
  | 7, value => do return { message with attributes := message.attributes ++ [← keyValue? value] }
  | _, _ => some message

def exemplar? : WireValue → Option Exemplar := WireValue.message? Exemplar.field {}

structure NumberPoint where
  attributes : List KeyValue := []
  startTime : UInt64 := 0
  time : UInt64 := 0
  value : Option Number := none
  exemplars : List Exemplar := []
  deriving DecidableEq

def NumberPoint.field (message : NumberPoint) : Nat → WireValue → Option NumberPoint
  | 2, value => do return { message with startTime := ← value.fixed64? }
  | 3, value => do return { message with time := ← value.fixed64? }
  | 4, value => do return { message with value := some (.double (← value.double?)) }
  | 5, value => do return { message with exemplars := message.exemplars ++ [← exemplar? value] }
  | 6, value => do return { message with value := some (.int (← value.signedFixed64?)) }
  | 7, value => do return { message with attributes := message.attributes ++ [← keyValue? value] }
  | _, _ => some message

structure HistogramPoint where
  attributes : List KeyValue := []
  startTime : UInt64 := 0
  time : UInt64 := 0
  count : UInt64 := 0
  sum : Option Binary64 := none
  counts : List UInt64 := []
  bounds : List Binary64 := []
  exemplars : List Exemplar := []
  min : Option Binary64 := none
  max : Option Binary64 := none
  deriving DecidableEq

def HistogramPoint.field (message : HistogramPoint) : Nat → WireValue → Option HistogramPoint
  | 2, value => do return { message with startTime := ← value.fixed64? }
  | 3, value => do return { message with time := ← value.fixed64? }
  | 4, value => do return { message with count := ← value.fixed64? }
  | 5, value => do return { message with sum := some (← value.double?) }
  | 6, value => do return { message with counts := message.counts ++ (← value.repeatedFixed64?) }
  | 7, value => do
      let bounds ← value.repeatedFixed64?
      return { message with bounds := message.bounds ++ bounds.map Binary64.mk }
  | 8, value => do return { message with exemplars := message.exemplars ++ [← exemplar? value] }
  | 9, value => do return { message with attributes := message.attributes ++ [← keyValue? value] }
  | 11, value => do return { message with min := some (← value.double?) }
  | 12, value => do return { message with max := some (← value.double?) }
  | _, _ => some message

structure Buckets where
  offset : Int32 := 0
  counts : List UInt64 := []
  deriving DecidableEq

def Buckets.field (message : Buckets) : Nat → WireValue → Option Buckets
  | 1, value => do return { message with offset := ← value.foldedInt32? }
  | 2, value => do return { message with counts := message.counts ++ (← value.repeatedVarint?) }
  | _, _ => some message

structure ExponentialPoint where
  attributes : List KeyValue := []
  startTime : UInt64 := 0
  time : UInt64 := 0
  count : UInt64 := 0
  sum : Option Binary64 := none
  scale : Int32 := 0
  zeroCount : UInt64 := 0
  positive : Option Buckets := none
  negative : Option Buckets := none
  min : Option Binary64 := none
  max : Option Binary64 := none
  zeroThreshold : Binary64 := .zero
  deriving DecidableEq

/-- Merges an occurrence of buckets into those already there. -/
def mergeBuckets (buckets : Option Buckets) (value : WireValue) : Option Buckets :=
  WireValue.message? Buckets.field (buckets.getD {}) value

def ExponentialPoint.field (message : ExponentialPoint) :
    Nat → WireValue → Option ExponentialPoint
  | 1, value => do return { message with attributes := message.attributes ++ [← keyValue? value] }
  | 2, value => do return { message with startTime := ← value.fixed64? }
  | 3, value => do return { message with time := ← value.fixed64? }
  | 4, value => do return { message with count := ← value.fixed64? }
  | 5, value => do return { message with sum := some (← value.double?) }
  | 6, value => do return { message with scale := ← value.foldedInt32? }
  | 7, value => do return { message with zeroCount := ← value.fixed64? }
  | 8, value => do return { message with positive := some (← mergeBuckets message.positive value) }
  | 9, value => do return { message with negative := some (← mergeBuckets message.negative value) }
  | 12, value => do return { message with min := some (← value.double?) }
  | 13, value => do return { message with max := some (← value.double?) }
  | 14, value => do return { message with zeroThreshold := ← value.double? }
  | _, _ => some message

/-! ## Instruments and their surroundings -/

/-- An instrument with its points, and the temporality and monotonicity it says. -/
inductive Data where
  | gauge (points : List NumberPoint)
  | sum (points : List NumberPoint) (temporality : Int32) (monotonic : Bool)
  | histogram (points : List HistogramPoint) (temporality : Int32)
  | exponential (points : List ExponentialPoint) (temporality : Int32)
  deriving DecidableEq

def numberPoint? : WireValue → Option NumberPoint := WireValue.message? NumberPoint.field {}

def histogramPoint? : WireValue → Option HistogramPoint :=
  WireValue.message? HistogramPoint.field {}

def exponentialPoint? : WireValue → Option ExponentialPoint :=
  WireValue.message? ExponentialPoint.field {}

def Data.field : Data → Nat → WireValue → Option Data
  | gauge points, 1, value => do return gauge (points ++ [← numberPoint? value])
  | sum points temporality monotonic, 1, value => do
      return sum (points ++ [← numberPoint? value]) temporality monotonic
  | sum points _ monotonic, 2, value => do return sum points (← value.int32?) monotonic
  | sum points temporality _, 3, value => do return sum points temporality (← value.bool?)
  | histogram points temporality, 1, value => do
      return histogram (points ++ [← histogramPoint? value]) temporality
  | histogram points _, 2, value => do return histogram points (← value.int32?)
  | exponential points temporality, 1, value => do
      return exponential (points ++ [← exponentialPoint? value]) temporality
  | exponential points _, 2, value => do return exponential points (← value.int32?)
  | data, _, _ => some data

/-- The instrument of a kind that says nothing and has no points. -/
def Data.empty : Instrument → Data
  | .gauge => gauge []
  | .sum => sum [] 0 false
  | .histogram => histogram [] 0
  | .exponentialHistogram => exponential [] 0

def Data.instrument : Data → Instrument
  | gauge .. => .gauge
  | sum .. => .sum
  | histogram .. => .histogram
  | exponential .. => .exponentialHistogram

structure Metric where
  name : String := ""
  description : String := ""
  unit : String := ""
  data : Option Data := none
  deriving DecidableEq

/-- Merges an occurrence of an instrument into the metric's, if that is of the
same kind, and replaces it otherwise. -/
def mergeData (data : Option Data) (instrument : Instrument) (value : WireValue) : Option Data :=
  let earlier := (data.filter (·.instrument == instrument)).getD (.empty instrument)
  WireValue.message? Data.field earlier value

def Metric.field (message : Metric) : Nat → WireValue → Option Metric
  | 1, value => do return { message with name := ← value.text? }
  | 2, value => do return { message with description := ← value.text? }
  | 3, value => do return { message with unit := ← value.text? }
  | 5, value => do return { message with data := some (← mergeData message.data .gauge value) }
  | 7, value => do return { message with data := some (← mergeData message.data .sum value) }
  | 9, value => do return { message with data := some (← mergeData message.data .histogram value) }
  | 10, value => do
      return { message with data := some (← mergeData message.data .exponentialHistogram value) }
  | _, _ => some message

structure Scope where
  name : String := ""
  version : String := ""
  attributes : List KeyValue := []
  deriving DecidableEq

def Scope.field (message : Scope) : Nat → WireValue → Option Scope
  | 1, value => do return { message with name := ← value.text? }
  | 2, value => do return { message with version := ← value.text? }
  | 3, value => do return { message with attributes := message.attributes ++ [← keyValue? value] }
  | _, _ => some message

structure ScopeMetrics where
  scope : Option Scope := none
  metrics : List Metric := []
  deriving DecidableEq

def ScopeMetrics.field (message : ScopeMetrics) : Nat → WireValue → Option ScopeMetrics
  | 1, value => do
      let scope ← WireValue.message? Scope.field (message.scope.getD {}) value
      return { message with scope := some scope }
  | 2, value => do
      let metric ← WireValue.message? Metric.field {} value
      return { message with metrics := message.metrics ++ [metric] }
  | _, _ => some message

structure Resource where
  attributes : List KeyValue := []
  deriving DecidableEq

def Resource.field (message : Resource) : Nat → WireValue → Option Resource
  | 1, value => do return { message with attributes := message.attributes ++ [← keyValue? value] }
  | _, _ => some message

structure ResourceMetrics where
  resource : Option Resource := none
  scopes : List ScopeMetrics := []
  deriving DecidableEq

def ResourceMetrics.field (message : ResourceMetrics) : Nat → WireValue → Option ResourceMetrics
  | 1, value => do
      let resource ← WireValue.message? Resource.field (message.resource.getD {}) value
      return { message with resource := some resource }
  | 2, value => do
      let scope ← WireValue.message? ScopeMetrics.field {} value
      return { message with scopes := message.scopes ++ [scope] }
  | _, _ => some message

/-- A metrics export request. -/
structure Request where
  resources : List ResourceMetrics := []
  deriving DecidableEq

def Request.field (message : Request) : Nat → WireValue → Option Request
  | 1, value => do
      let resource ← WireValue.message? ResourceMetrics.field {} value
      return { message with resources := message.resources ++ [resource] }
  | _, _ => some message

/-- The request that makes up all of the bytes. -/
def Request.decode (payload : ByteArray) : Option Request :=
  Wire.merge Request.field {} payload.data.toList

/-! ## What should arrive -/

/-- Attributes with a value, in order. -/
def keyValues (properties : List Attribute) : List KeyValue :=
  (properties.filter (·.value ≠ .null)).map fun property => ⟨property.key, some property.value⟩

/-- Nanoseconds since the epoch, as far as 64 bits without a sign go. -/
def nanoseconds (time : Time) : UInt64 :=
  UInt64.ofNat (min (time.seconds.toInt * 1000000000 + time.nanoseconds.val).toNat
    18446744073709551615)

end Message

def Exemplar.message (exemplar : Exemplar) : Message.Exemplar where
  attributes := Message.keyValues exemplar.properties
  time := Message.nanoseconds exemplar.time
  value := some exemplar.value
  spanId := exemplar.spanId.elim [] (·.bytes.toList)
  traceId := exemplar.traceId.elim [] (·.bytes.toList)

def NumberPoint.message (point : NumberPoint) : Message.NumberPoint where
  attributes := Message.keyValues point.properties
  startTime := Message.nanoseconds point.startTime
  time := Message.nanoseconds point.time
  value := some point.value
  exemplars := point.exemplars.map Exemplar.message

def HistogramPoint.message (point : HistogramPoint) : Message.HistogramPoint where
  attributes := Message.keyValues point.properties
  startTime := Message.nanoseconds point.startTime
  time := Message.nanoseconds point.time
  count := point.count
  sum := point.sum
  counts := point.counts
  bounds := point.bounds
  exemplars := point.exemplars.map Exemplar.message
  min := point.min
  max := point.max

/-- Buckets without an offset and without counts leave no trace. -/
def ExponentialBuckets.message? (buckets : ExponentialBuckets) : Option Message.Buckets :=
  if buckets.offset = 0 ∧ buckets.counts = [] then none
  else some ⟨buckets.offset, buckets.counts⟩

/-- A zero threshold of either sign, whose bits differ in the first alone, arrives as zero. -/
def ExponentialPoint.message (point : ExponentialPoint) : Message.ExponentialPoint where
  attributes := Message.keyValues point.properties
  startTime := Message.nanoseconds point.startTime
  time := Message.nanoseconds point.time
  count := point.count
  sum := point.sum
  scale := point.scale
  zeroCount := point.zeroCount
  positive := point.positive.message?
  negative := point.negative.message?
  min := point.min
  max := point.max
  zeroThreshold :=
    if point.zeroThreshold.bits = 0 ∨ point.zeroThreshold.bits = 0x8000000000000000 then .zero
    else point.zeroThreshold

namespace Message

/-- The number of a temporality in the schema. -/
def temporality : Temporality → Int32
  | .unspecified => 0
  | .delta => 1
  | .cumulative => 2

/-- The instrument of a metric, without any points. -/
def Data.ofInstrument : MetricData → Data
  | .gauge _ => gauge []
  | .sum _ kind monotonic => sum [] (Message.temporality kind) monotonic
  | .histogram _ kind => histogram [] (Message.temporality kind)
  | .exponential _ kind => exponential [] (Message.temporality kind)

/-- The instrument with one more point, if the point is of its kind. -/
def Data.addPoint? : Data → DataPoint → Option Data
  | gauge points, .number point => some (gauge (points ++ [point.message]))
  | sum points kind monotonic, .number point =>
      some (sum (points ++ [point.message]) kind monotonic)
  | histogram points kind, .histogram point => some (histogram (points ++ [point.message]) kind)
  | exponential points kind, .exponential point =>
      some (exponential (points ++ [point.message]) kind)
  | _, _ => none

/-- A scope without an empty version arrives as one with it. -/
def Scope.ofScope (scope : TelemetryExport.Scope) : Scope where
  name := scope.name
  version := scope.version.getD ""
  attributes := keyValues scope.properties

/-- A metric before its instrument is known. -/
def Metric.ofHeader (metric : TelemetryExport.Metric) : Metric where
  name := metric.name
  description := metric.description
  unit := metric.unit

end Message

end TelemetryExport
