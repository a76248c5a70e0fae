import TelemetryExport.Metric.Request
import TelemetryExport.Proofs.Protobuf.Writers

/-! # The fields that are written for metrics

For every part of a request the list of fields that its writer appends, down to
the data points. A point without a form in the schema is refused after the fields
before the offending one, whatever room there is.
-/

namespace TelemetryExport

open Encode WrittenField

/-! ## Attributes -/

/-- The one field of an attribute's value. -/
def Scalar.fields : Scalar → List WrittenField
  | .text value => [.bytes Schema.AnyValue.text value.toUTF8.data.toList]
  | .bool value => [.varint Schema.AnyValue.bool (if value then 1 else 0)]
  | .int value => [.varint Schema.AnyValue.int value.toUInt64]
  | .double value => [.fixed64 Schema.AnyValue.double value.bits]
  | .null => []

theorem writesFields_writeAnyValue (value : Scalar) :
    WritesFields (writeAnyValue value) value.fields := by
  cases value with
  | text value => exact Field.writesFields_writeText _ value
  | bool value => exact Field.writesFields_writeVarint _ _
  | int value => exact Field.writesFields_writeVarint _ _
  | double value => exact Field.writesFields_writeFixed64 _ _
  | null => exact writesFields_pure

/-- The fields of an attribute's message. -/
def Attribute.fields (property : Attribute) : List WrittenField :=
  [.bytes Schema.KeyValue.key property.key.toUTF8.data.toList,
    .message Schema.KeyValue.value (encodeAll property.value.fields)]

/-- Attributes with a value, each as field `field` of the enclosing message. -/
def propertyFields (field : Nat) (properties : List Attribute) : List WrittenField :=
  (properties.filter (!·.value.isNull)).map fun property =>
    .message field (encodeAll property.fields)

theorem writesFields_writeKeyValue (field : Nat) (property : Attribute) :
    WritesFields (writeKeyValue field property.key property.value)
      (if property.value.isNull then [] else [.message field (encodeAll property.fields)]) := by
  apply WritesFields.unless
  intro _
  apply WritesFields.message
  exact (Field.writesFields_writeText _ _).seq
    (WritesFields.message _ (writesFields_writeAnyValue property.value))

theorem propertyFields_eq (field : Nat) (properties : List Attribute) :
    propertyFields field properties = properties.flatMap fun property =>
      if property.value.isNull then [] else [.message field (encodeAll property.fields)] := by
  induction properties with
  | nil => rfl
  | cons property rest ih =>
      rw [List.flatMap_cons, ← ih, propertyFields, propertyFields, List.filter_cons]
      cases property.value.isNull <;> rfl

theorem writesFields_writeProperties (field : Nat) (properties : List Attribute) :
    WritesFields (writeProperties field properties) (propertyFields field properties) := by
  rw [propertyFields_eq]
  exact WritesFields.forM fun property _ => writesFields_writeKeyValue field property

/-! ## Exemplars and optional values -/

def Number.field (doubleField intField : Nat) : Number → WrittenField
  | double value => .fixed64 doubleField value.bits
  | int value => .fixed64 intField value.toUInt64

theorem Number.writesFields (doubleField intField : Nat) (number : Number) :
    WritesFields (number.write doubleField intField) [number.field doubleField intField] := by
  cases number with
  | int value => exact Field.writesFields_writeFixed64 _ _
  | double value => exact Field.writesFields_writeFixed64 _ _

def doubleFields (field : Nat) (value : Option Binary64) : List WrittenField :=
  value.elim [] fun value => [.fixed64 field value.bits]

theorem writesFields_writeOptionalDouble (field : Nat) (value : Option Binary64) :
    WritesFields (writeOptionalDouble field value) (doubleFields field value) := by
  cases value with
  | none => exact writesFields_pure
  | some value => exact Field.writesFields_writeFixed64 _ _

def bytesFields (field : Nat) (value : Option (List UInt8)) : List WrittenField :=
  value.elim [] fun bytes => [.bytes field bytes]

theorem writesFields_writeOptionalBytes (field : Nat) (value : Option (List UInt8)) :
    WritesFields (writeOptionalBytes field value) (bytesFields field value) := by
  cases value with
  | none => exact writesFields_pure
  | some bytes =>
      have hwrites := Field.writesFields_writeBytes field bytes.toByteArray
      rw [Bytes.toList_toByteArray] at hwrites
      exact hwrites

namespace Exemplar

def fields (exemplar : Exemplar) : List WrittenField :=
  [.fixed64 Schema.Exemplar.time exemplar.time.unixNanos]
    ++ ([exemplar.value.field Schema.Exemplar.double Schema.Exemplar.int]
    ++ (bytesFields Schema.Exemplar.spanId (exemplar.spanId.map (·.bytes.toList))
    ++ (bytesFields Schema.Exemplar.traceId (exemplar.traceId.map (·.bytes.toList))
    ++ propertyFields Schema.Exemplar.properties exemplar.properties)))

theorem writesFields (exemplar : Exemplar) : WritesFields exemplar.write exemplar.fields :=
  (Field.writesFields_writeFixed64 _ _).seq <|
    (exemplar.value.writesFields _ _).seq <|
    (writesFields_writeOptionalBytes _ _).seq <|
    (writesFields_writeOptionalBytes _ _).seq <|
    writesFields_writeProperties _ _

/-- Exemplars in order, each as field `field` of the enclosing message. -/
def fieldsAll (field : Nat) (exemplars : List Exemplar) : List WrittenField :=
  exemplars.map fun exemplar => .message field (encodeAll exemplar.fields)

theorem writesFields_writeAll (field : Nat) (exemplars : List Exemplar) :
    WritesFields (writeAll field exemplars) (fieldsAll field exemplars) := by
  rw [fieldsAll, List.map_eq_flatMap]
  exact WritesFields.forM fun exemplar _ => WritesFields.message field exemplar.writesFields

end Exemplar

/-! ## Data points -/

namespace NumberPoint

def fields (point : NumberPoint) : List WrittenField :=
  [.fixed64 Schema.NumberPoint.startTime point.startTime.unixNanos]
    ++ ([.fixed64 Schema.NumberPoint.time point.time.unixNanos]
    ++ ([point.value.field Schema.NumberPoint.double Schema.NumberPoint.int]
    ++ (Exemplar.fieldsAll Schema.NumberPoint.exemplars point.exemplars
    ++ propertyFields Schema.NumberPoint.properties point.properties)))

theorem writesFields (point : NumberPoint) : WritesFields point.write point.fields :=
  (Field.writesFields_writeFixed64 _ _).seq <|
    (Field.writesFields_writeFixed64 _ _).seq <|
    (point.value.writesFields _ _).seq <|
    (Exemplar.writesFields_writeAll _ _).seq <|
    writesFields_writeProperties _ _

end NumberPoint

/-- Numbers of eight bytes each in one field. -/
def packedFixed64Fields (field : Nat) (values : List UInt64) : List WrittenField :=
  if values.isEmpty then []
  else [.bytes field (values.flatMap fun value => Bytes.digits 8 value.toNat)]

/-- Varints in one field. -/
def packedVarintFields (field : Nat) (values : List UInt64) : List WrittenField :=
  if values.isEmpty then []
  else [.bytes field (values.flatMap fun value => Varint.groups value.toNat)]

namespace HistogramPoint

def fields (point : HistogramPoint) : List WrittenField :=
  [.fixed64 Schema.HistogramPoint.startTime point.startTime.unixNanos]
    ++ ([.fixed64 Schema.HistogramPoint.time point.time.unixNanos]
    ++ ([.fixed64 Schema.HistogramPoint.count point.count]
    ++ (doubleFields Schema.HistogramPoint.sum point.sum
    ++ (packedFixed64Fields Schema.HistogramPoint.counts point.counts
    ++ (packedFixed64Fields Schema.HistogramPoint.bounds (point.bounds.map (·.bits))
    ++ (Exemplar.fieldsAll Schema.HistogramPoint.exemplars point.exemplars
    ++ (doubleFields Schema.HistogramPoint.min point.min
    ++ (doubleFields Schema.HistogramPoint.max point.max
    ++ propertyFields Schema.HistogramPoint.properties point.properties))))))))

theorem writesFields {point : HistogramPoint} (hvalid : point.hasValidBuckets = true) :
    WritesFields point.write point.fields := by
  simp only [write, hvalid, if_true]
  exact (Field.writesFields_writeFixed64 _ _).seq <|
    (Field.writesFields_writeFixed64 _ _).seq <|
    (Field.writesFields_writeFixed64 _ _).seq <|
    (writesFields_writeOptionalDouble _ _).seq <|
    (Field.writesFields_writePackedFixed64 _ _).seq <|
    (Field.writesFields_writePackedFixed64 _ _).seq <|
    (Exemplar.writesFields_writeAll _ _).seq <|
    (writesFields_writeOptionalDouble _ _).seq <|
    (writesFields_writeOptionalDouble _ _).seq <|
    writesFields_writeProperties _ _

/-- The fields in front of the buckets. -/
def leadingFields (point : HistogramPoint) : List WrittenField :=
  [.fixed64 Schema.HistogramPoint.startTime point.startTime.unixNanos]
    ++ ([.fixed64 Schema.HistogramPoint.time point.time.unixNanos]
    ++ ([.fixed64 Schema.HistogramPoint.count point.count]
    ++ doubleFields Schema.HistogramPoint.sum point.sum))

/-- Buckets that do not go with the bounds are found after the sum was written. -/
theorem refuses {point : HistogramPoint} (hinvalid : point.hasValidBuckets = false) :
    Refuses point.write (encodeAll point.leadingFields).length invalidBuckets := by
  simp only [write, hinvalid, Bool.false_eq_true, if_false, leadingFields, encodeAll_append,
    List.length_append]
  exact (Field.writesFields_writeFixed64 _ _).seq_refuses <|
    (Field.writesFields_writeFixed64 _ _).seq_refuses <|
    (Field.writesFields_writeFixed64 _ _).seq_refuses <|
    (writesFields_writeOptionalDouble _ _).seq_refuses <|
    (refuses_throw _).bind

end HistogramPoint

namespace ExponentialBuckets

def fields (buckets : ExponentialBuckets) : List WrittenField :=
  (if buckets.offset == 0 then []
    else [.varint Schema.Buckets.offset (Varint.zigzag buckets.offset.toInt64)])
    ++ packedVarintFields Schema.Buckets.counts buckets.counts

/-- The field that holds the buckets on one side of zero. -/
def sideFields (field : Nat) (buckets : ExponentialBuckets) : List WrittenField :=
  if buckets.isDefault then [] else [.message field (encodeAll buckets.fields)]

theorem writesFields (field : Nat) (buckets : ExponentialBuckets) :
    WritesFields (buckets.write field) (buckets.sideFields field) := by
  apply WritesFields.unless
  intro _
  apply WritesFields.message
  by_cases hoffset : (buckets.offset == 0) = true
  · simp only [fields, hoffset, if_true]
    exact Field.writesFields_writePackedVarint _ _
  · simp only [fields, hoffset, if_false, Bool.false_eq_true]
    exact (Field.writesFields_writeVarint _ _).seq (Field.writesFields_writePackedVarint _ _)

end ExponentialBuckets

namespace ExponentialPoint

def fields (point : ExponentialPoint) : List WrittenField :=
  propertyFields Schema.ExponentialPoint.properties point.properties
    ++ ([.fixed64 Schema.ExponentialPoint.startTime point.startTime.unixNanos]
    ++ ([.fixed64 Schema.ExponentialPoint.time point.time.unixNanos]
    ++ ([.fixed64 Schema.ExponentialPoint.count point.count]
    ++ (doubleFields Schema.ExponentialPoint.sum point.sum
    ++ ([.varint Schema.ExponentialPoint.scale (Varint.zigzag point.scale.toInt64)]
    ++ ([.fixed64 Schema.ExponentialPoint.zeroCount point.zeroCount]
    ++ (point.positive.sideFields Schema.ExponentialPoint.positive
    ++ (point.negative.sideFields Schema.ExponentialPoint.negative
    ++ (doubleFields Schema.ExponentialPoint.min point.min
    ++ (doubleFields Schema.ExponentialPoint.max point.max
    ++ (if point.zeroThreshold.isZero then []
      else [.fixed64 Schema.ExponentialPoint.zeroThreshold point.zeroThreshold.bits])))))))))))

theorem writesFields {point : ExponentialPoint} (hvalid : point.hasValidScale = true) :
    WritesFields point.write point.fields := by
  simp only [write, hvalid, if_true]
  exact (writesFields_writeProperties _ _).seq <|
    (Field.writesFields_writeFixed64 _ _).seq <|
    (Field.writesFields_writeFixed64 _ _).seq <|
    (Field.writesFields_writeFixed64 _ _).seq <|
    (writesFields_writeOptionalDouble _ _).seq <|
    (Field.writesFields_writeVarint _ _).seq <|
    (Field.writesFields_writeFixed64 _ _).seq <|
    (point.positive.writesFields _).seq <|
    (point.negative.writesFields _).seq <|
    (writesFields_writeOptionalDouble _ _).seq <|
    (writesFields_writeOptionalDouble _ _).seq <|
    WritesFields.unless _ fun _ => Field.writesFields_writeFixed64 _ _

/-- The fields in front of the scale. -/
def leadingFields (point : ExponentialPoint) : List WrittenField :=
  propertyFields Schema.ExponentialPoint.properties point.properties
    ++ ([.fixed64 Schema.ExponentialPoint.startTime point.startTime.unixNanos]
    ++ ([.fixed64 Schema.ExponentialPoint.time point.time.unixNanos]
    ++ ([.fixed64 Schema.ExponentialPoint.count point.count]
    ++ doubleFields Schema.ExponentialPoint.sum point.sum)))

/-- A scale out of range is found after the sum was written. -/
theorem refuses {point : ExponentialPoint} (hinvalid : point.hasValidScale = false) :
    Refuses point.write (encodeAll point.leadingFields).length invalidScale := by
  simp only [write, hinvalid, Bool.false_eq_true, if_false, leadingFields, encodeAll_append,
    List.length_append]
  exact (writesFields_writeProperties _ _).seq_refuses <|
    (Field.writesFields_writeFixed64 _ _).seq_refuses <|
    (Field.writesFields_writeFixed64 _ _).seq_refuses <|
    (Field.writesFields_writeFixed64 _ _).seq_refuses <|
    (writesFields_writeOptionalDouble _ _).seq_refuses <|
    (refuses_throw _).bind

end ExponentialPoint

namespace DataPoint

/-- Whether the point has a form in the schema. -/
def isValid : DataPoint → Bool
  | number _ => true
  | histogram point => point.counts = [] ∨ point.counts.length = point.bounds.length + 1
  | exponential point => -10 ≤ point.scale.toInt ∧ point.scale.toInt ≤ 20

theorem isValid_histogram (point : HistogramPoint) :
    (histogram point).isValid = point.hasValidBuckets := by
  rw [isValid, Bool.eq_iff_iff]
  simp [HistogramPoint.hasValidBuckets]

def fields : DataPoint → List WrittenField
  | number point => point.fields
  | histogram point => point.fields
  | exponential point => point.fields

theorem writesFields {point : DataPoint} (hvalid : point.isValid = true) :
    WritesFields point.write point.fields := by
  cases point with
  | number point => exact point.writesFields
  | histogram point =>
      rw [isValid_histogram] at hvalid
      exact HistogramPoint.writesFields hvalid
  | exponential point => exact ExponentialPoint.writesFields hvalid

/-- The fields that are written before the form of the point is checked. -/
def leadingFields : DataPoint → List WrittenField
  | number point => point.fields
  | histogram point => point.leadingFields
  | exponential point => point.leadingFields

theorem refuses {point : DataPoint} (hinvalid : point.isValid = false) :
    ∃ reason, Refuses point.write (encodeAll point.leadingFields).length
      (.invalidDataPoint reason) := by
  cases point with
  | number point => cases hinvalid
  | histogram point =>
      rw [isValid_histogram] at hinvalid
      exact ⟨_, HistogramPoint.refuses hinvalid⟩
  | exponential point => exact ⟨_, ExponentialPoint.refuses hinvalid⟩

/-- The length of what is written of the point, with its header, where there is room for it:
all of the point, or what comes before the fault in its form. -/
def leading (point : DataPoint) : Nat :=
  Slot.messageWidth +
    (encodeAll (if point.isValid then point.fields else point.leadingFields)).length

end DataPoint

/-! ## Headers of scopes, metrics and instruments -/

/-- A text as field `field`, unless it is empty. -/
def textFields (field : Nat) (text : String) : List WrittenField :=
  if text.isEmpty then [] else [.bytes field text.toUTF8.data.toList]

/-- The fields of a scope's description. -/
def Scope.fields (scope : Scope) : List WrittenField :=
  [.bytes Schema.Scope.name scope.name.toUTF8.data.toList]
    ++ (bytesFields Schema.Scope.version (scope.version.map (·.toUTF8.data.toList))
    ++ propertyFields Schema.Scope.properties scope.properties)

/-- The fields of a metric before its instrument. -/
def Metric.headerFields (metric : Metric) : List WrittenField :=
  [.bytes Schema.Metric.name metric.name.toUTF8.data.toList]
    ++ (textFields Schema.Metric.description metric.description
    ++ textFields Schema.Metric.unit metric.unit)

def Temporality.fields : Temporality → List WrittenField
  | .unspecified => []
  | .delta => [.varint Schema.Instrument.temporality 1]
  | .cumulative => [.varint Schema.Instrument.temporality 2]

/-- The fields of an instrument before its points. -/
def MetricData.headerFields : MetricData → List WrittenField
  | .gauge _ => []
  | .sum _ temporality monotonic =>
      temporality.fields ++ (if monotonic then [.varint Schema.Instrument.monotonic 1] else [])
  | .histogram _ temporality => temporality.fields
  | .exponential _ temporality => temporality.fields

/-- The field that describes a scope. -/
def Scope.field (scope : Scope) : WrittenField :=
  .message Schema.ScopeMetrics.scope (encodeAll scope.fields)

namespace RequestEncoder

theorem writesFields_writeScope (scope : Scope) :
    WritesFields (writeScope scope) [scope.field] := by
  apply WritesFields.message
  simp only [Scope.fields]
  apply (Field.writesFields_writeText _ _).seq
  cases scope.version with
  | none => exact writesFields_writeProperties _ _
  | some version =>
      exact (Field.writesFields_writeText _ _).seq (writesFields_writeProperties _ _)

theorem writesFields_writeMetricHeader (metric : Metric) :
    WritesFields (writeMetricHeader metric) metric.headerFields := by
  have hunit : WritesFields
      (unless metric.unit.isEmpty do Field.writeText Schema.Metric.unit metric.unit)
      (textFields Schema.Metric.unit metric.unit) :=
    WritesFields.unless _ fun _ => Field.writesFields_writeText _ _
  apply (Field.writesFields_writeText _ _).seq
  by_cases hdescription : metric.description.isEmpty = true
  · simp only [textFields, hdescription, if_true] at hunit ⊢
    exact hunit
  · simp only [textFields, hdescription, if_false, Bool.false_eq_true] at hunit ⊢
    exact (Field.writesFields_writeText _ _).seq hunit

theorem writesFields_writeTemporality (temporality : Temporality) :
    WritesFields (writeTemporality temporality) temporality.fields := by
  cases temporality with
  | unspecified => exact writesFields_pure
  | delta => exact Field.writesFields_writeVarint _ _
  | cumulative => exact Field.writesFields_writeVarint _ _

theorem writesFields_writeInstrumentHeader (data : MetricData) :
    WritesFields (writeInstrumentHeader data) data.headerFields := by
  cases data with
  | gauge points => exact writesFields_pure
  | sum points temporality monotonic =>
      apply (writesFields_writeTemporality temporality).seq
      cases monotonic with
      | false => exact writesFields_pure
      | true => exact Field.writesFields_writeVarint _ _
  | histogram points temporality => exact writesFields_writeTemporality temporality
  | exponential points temporality => exact writesFields_writeTemporality temporality

end RequestEncoder

namespace RequestFormat

/-- The field that describes a resource. -/
def resourceField (properties : List Attribute) : WrittenField :=
  .message Schema.ResourceMetrics.resource
    (encodeAll (propertyFields Schema.Resource.properties properties))

theorem writesFields_resource (properties : List Attribute) :
    WritesFields (Encode.message Schema.ResourceMetrics.resource
      (writeProperties Schema.Resource.properties properties)) [resourceField properties] :=
  WritesFields.message _ (writesFields_writeProperties _ properties)

/-- A format holds the field that describes its resource. -/
theorem toList_resource_of_make {properties : List Attribute} {format : RequestFormat}
    (hmake : make properties = .ok format) :
    format.resource.data.toList = encodeAll [resourceField properties] := by
  cases hrun : Encode.run (Encode.message Schema.ResourceMetrics.resource
      (writeProperties Schema.Resource.properties properties)) with
  | error fault =>
      simp only [make, hrun] at hmake
      cases hmake
  | ok result =>
      obtain ⟨-, -, hwritten⟩ := (writesFields_resource properties).of_run hrun
      simp only [make, hrun] at hmake
      cases hmake
      rw [hwritten, Bytes.toList_toByteArray]

/-- There is a format for every resource that fits into a payload. -/
theorem make_of_le {properties : List Attribute}
    (hlength : (encodeAll [resourceField properties]).length ≤ maxPayloadSize) :
    make properties = .ok ⟨(encodeAll [resourceField properties]).toByteArray⟩ := by
  simp only [make, (writesFields_resource properties).run_eq hlength]
  rfl

end RequestFormat

end TelemetryExport
