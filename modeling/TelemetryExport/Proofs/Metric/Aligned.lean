import TelemetryExport.Metric.Request
import TelemetryExport.Proofs.Buffer.Aligned

/-! # Requests do not depend on what the storage held before

Every writer of a request does the same on aligned buffers, and so does every
operation on requests that agree in everything but the contents of their storages.
What an operation appends is therefore decided by the open messages and the room
alone, and so is the fault with which it ends.
-/

namespace TelemetryExport

open Encode Buffer

/-! ## Fields -/

namespace Field

theorem respects_writeTag (field : Nat) (wireType : WireType) :
    Respects Aligned (writeTag field wireType) :=
  Encode.respects_writeVarint _

theorem respects_writeVarint (field : Nat) (value : UInt64) :
    Respects Aligned (writeVarint field value) :=
  (respects_writeTag _ _).seq (Encode.respects_writeVarint _)

theorem respects_writeFixed64 (field : Nat) (value : UInt64) :
    Respects Aligned (writeFixed64 field value) :=
  (respects_writeTag _ _).seq (respects_writeLittleEndian _ _)

theorem respects_writeBytes (field : Nat) (value : ByteArray) :
    Respects Aligned (writeBytes field value) :=
  (respects_writeTag _ _).seq ((Encode.respects_writeVarint _).seq (respects_write _))

theorem respects_writePackedFixed64 (field : Nat) (values : List UInt64) :
    Respects Aligned (writePackedFixed64 field values) :=
  (respects_pure ()).ite <|
    (respects_writeTag _ _).seq <|
    (Encode.respects_writeVarint _).seq <|
    Respects.forM values fun _ => respects_writeLittleEndian _ _

theorem respects_writePackedVarint (field : Nat) (values : List UInt64) :
    Respects Aligned (writePackedVarint field values) :=
  (respects_pure ()).ite <|
    (respects_writeTag _ _).seq <|
    (Encode.respects_writeVarint _).seq <|
    Respects.forM values Encode.respects_writeVarint

end Field

/-! ## Parts of a request -/

theorem respects_writeAnyValue (value : Scalar) : Respects Aligned (writeAnyValue value) := by
  cases value with
  | text value => exact Field.respects_writeBytes _ _
  | bool value => exact Field.respects_writeVarint _ _
  | int value => exact Field.respects_writeVarint _ _
  | double value => exact Field.respects_writeFixed64 _ _
  | null => exact respects_pure ()

theorem respects_writeProperties (field : Nat) (properties : List Attribute) :
    Respects Aligned (writeProperties field properties) :=
  Respects.forM properties fun _ =>
    (respects_pure ()).ite <| respects_message _ <|
      (Field.respects_writeBytes _ _).seq (respects_message _ (respects_writeAnyValue _))

theorem Number.respects_write (doubleField intField : Nat) (number : Number) :
    Respects Aligned (number.write doubleField intField) := by
  cases number with
  | int value => exact Field.respects_writeFixed64 _ _
  | double value => exact Field.respects_writeFixed64 _ _

theorem respects_writeOptionalDouble (field : Nat) (value : Option Binary64) :
    Respects Aligned (writeOptionalDouble field value) := by
  cases value with
  | none => exact respects_pure ()
  | some value => exact Field.respects_writeFixed64 _ _

theorem respects_writeOptionalBytes (field : Nat) (value : Option (List UInt8)) :
    Respects Aligned (writeOptionalBytes field value) := by
  cases value with
  | none => exact respects_pure ()
  | some bytes => exact Field.respects_writeBytes _ _

theorem Exemplar.respects_writeAll (field : Nat) (exemplars : List Exemplar) :
    Respects Aligned (writeAll field exemplars) :=
  Respects.forM exemplars fun exemplar => respects_message _ <|
    (Field.respects_writeFixed64 _ _).seq <|
    (exemplar.value.respects_write _ _).seq <|
    (respects_writeOptionalBytes _ _).seq <|
    (respects_writeOptionalBytes _ _).seq <|
    respects_writeProperties _ _

theorem NumberPoint.respects_write (point : NumberPoint) : Respects Aligned point.write :=
  (Field.respects_writeFixed64 _ _).seq <|
    (Field.respects_writeFixed64 _ _).seq <|
    (point.value.respects_write _ _).seq <|
    (Exemplar.respects_writeAll _ _).seq <|
    respects_writeProperties _ _

theorem HistogramPoint.respects_write (point : HistogramPoint) :
    Respects Aligned point.write := by
  refine (Field.respects_writeFixed64 _ _).seq <|
    (Field.respects_writeFixed64 _ _).seq <|
    (Field.respects_writeFixed64 _ _).seq <|
    (respects_writeOptionalDouble _ _).seq ?_
  -- Buckets without a form end the point here.
  refine Respects.ite ?_ ((respects_throw _).bind fun _ => ?_) <;>
  exact (Field.respects_writePackedFixed64 _ _).seq <|
    (Field.respects_writePackedFixed64 _ _).seq <|
    (Exemplar.respects_writeAll _ _).seq <|
    (respects_writeOptionalDouble _ _).seq <|
    (respects_writeOptionalDouble _ _).seq <|
    respects_writeProperties _ _

theorem ExponentialBuckets.respects_write (field : Nat) (buckets : ExponentialBuckets) :
    Respects Aligned (buckets.write field) := by
  refine (respects_pure ()).ite (respects_message _ ?_)
  exact Respects.ite (Field.respects_writePackedVarint _ _)
    ((Field.respects_writeVarint _ _).seq (Field.respects_writePackedVarint _ _))

theorem ExponentialPoint.respects_write (point : ExponentialPoint) :
    Respects Aligned point.write := by
  refine (respects_writeProperties _ _).seq <|
    (Field.respects_writeFixed64 _ _).seq <|
    (Field.respects_writeFixed64 _ _).seq <|
    (Field.respects_writeFixed64 _ _).seq <|
    (respects_writeOptionalDouble _ _).seq ?_
  refine Respects.ite ?_ ((respects_throw _).bind fun _ => ?_) <;>
  exact (Field.respects_writeVarint _ _).seq <|
    (Field.respects_writeFixed64 _ _).seq <|
    (point.positive.respects_write _).seq <|
    (point.negative.respects_write _).seq <|
    (respects_writeOptionalDouble _ _).seq <|
    (respects_writeOptionalDouble _ _).seq <|
    (respects_pure ()).ite (Field.respects_writeFixed64 _ _)

theorem DataPoint.respects_write (point : DataPoint) : Respects Aligned point.write := by
  cases point with
  | number point => exact point.respects_write
  | histogram point => exact point.respects_write
  | exponential point => exact point.respects_write

namespace RequestEncoder

theorem respects_writeScope (scope : Scope) : Respects Buffer.Aligned (writeScope scope) := by
  refine respects_message _ ((Field.respects_writeBytes _ _).seq ?_)
  cases scope.version with
  | none => exact respects_writeProperties _ _
  | some version => exact (Field.respects_writeBytes _ _).seq (respects_writeProperties _ _)

theorem respects_writeMetricHeader (metric : Metric) :
    Respects Buffer.Aligned (writeMetricHeader metric) := by
  have hunit : Respects Buffer.Aligned
      (unless metric.unit.isEmpty do Field.writeText Schema.Metric.unit metric.unit) :=
    (respects_pure ()).ite (Field.respects_writeBytes _ _)
  exact (Field.respects_writeBytes _ _).seq
    (hunit.ite ((Field.respects_writeBytes _ _).seq hunit))

theorem respects_writeTemporality (temporality : Temporality) :
    Respects Buffer.Aligned (writeTemporality temporality) := by
  cases temporality with
  | unspecified => exact respects_pure ()
  | delta => exact Field.respects_writeVarint _ _
  | cumulative => exact Field.respects_writeVarint _ _

theorem respects_writeInstrumentHeader (data : MetricData) :
    Respects Buffer.Aligned (writeInstrumentHeader data) := by
  cases data with
  | gauge points => exact respects_pure ()
  | sum points temporality monotonic =>
      exact (respects_writeTemporality _).seq
        ((Field.respects_writeVarint _ _).ite (respects_pure ()))
  | histogram points temporality => exact respects_writeTemporality _
  | exponential points temporality => exact respects_writeTemporality _

/-! ## Operations on requests -/

/-- The requests differ at most in the contents of their storages. -/
structure Aligned (encoder other : RequestEncoder) : Prop where
  buffer_aligned : encoder.buffer.Aligned other.buffer
  resource_eq : other.resource = encoder.resource
  levels_eq : other.levels = encoder.levels
  instrument_eq : other.instrument = encoder.instrument

theorem Aligned.closeTo {encoder other : RequestEncoder} (haligned : encoder.Aligned other)
    (depth : Nat) : (encoder.closeTo depth).Aligned (other.closeTo depth) where
  buffer_aligned := haligned.buffer_aligned
  resource_eq := haligned.resource_eq
  levels_eq := by
    rw [RequestEncoder.closeTo, RequestEncoder.closeTo, haligned.levels_eq]
  instrument_eq := by
    rw [RequestEncoder.closeTo, RequestEncoder.closeTo, haligned.instrument_eq]

theorem respects_onBuffer {α : Type} {action : Encode α}
    (haction : Respects Buffer.Aligned action) : Respects Aligned (onBuffer action) := by
  rintro ⟨buffer, _, _, _⟩ ⟨other, resource, levels, instrument⟩ ⟨hbuffer, rfl, rfl, rfl⟩
  have hrelated := haction buffer other hbuffer
  simp only [onBuffer]
  generalize action buffer = first at hrelated ⊢
  generalize action other = second at hrelated ⊢
  cases hrelated with
  | ok result hbuffers => exact .ok result ⟨hbuffers, rfl, rfl, rfl⟩
  | error fault hbuffers => exact .error fault ⟨hbuffers, rfl, rfl, rfl⟩

theorem respects_pushLevel (slot : Slot) : Respects Aligned (pushLevel slot) := by
  rintro ⟨buffer, _, _, _⟩ ⟨other, resource, levels, instrument⟩ ⟨hbuffer, rfl, rfl, rfl⟩
  simp only [pushLevel]
  cases levels.push slot with
  | ok levels => exact .ok () ⟨hbuffer, rfl, rfl, rfl⟩
  | error fault => exact .error fault ⟨hbuffer, rfl, rfl, rfl⟩

theorem respects_popLevel : Respects Aligned popLevel := by
  rintro ⟨buffer, _, _, _⟩ ⟨other, resource, levels, instrument⟩ ⟨hbuffer, rfl, rfl, rfl⟩
  exact .ok _ ⟨hbuffer, rfl, rfl, rfl⟩

theorem respects_openLevel : Respects Aligned openLevel :=
  (respects_onBuffer (respects_reserve _)).bind respects_pushLevel

theorem respects_beginResource : Respects Aligned beginResource := by
  refine respects_openLevel.seq ?_
  intro encoder other haligned
  change Related Aligned (onBuffer (Encode.write encoder.resource) encoder)
    (onBuffer (Encode.write other.resource) other)
  rw [haligned.resource_eq]
  exact respects_onBuffer (respects_write _) _ _ haligned

theorem respects_beginScope (scope : Scope) : Respects Aligned (beginScope scope) :=
  respects_openLevel.seq (respects_onBuffer (respects_writeScope scope))

theorem respects_beginMetric (metric : Metric) : Respects Aligned (beginMetric metric) :=
  respects_openLevel.seq (respects_onBuffer (respects_writeMetricHeader metric))

theorem respects_beginInstrument (data : MetricData) : Respects Aligned (beginInstrument data) := by
  refine respects_openLevel.seq (Respects.seq ?_
    (respects_onBuffer (respects_writeInstrumentHeader data)))
  refine respects_modify fun encoder other haligned => ?_
  exact ⟨haligned.buffer_aligned, haligned.resource_eq, haligned.levels_eq, rfl⟩

theorem respects_patchFrom (instrument : Option Instrument) (level : Nat) (slots : List Slot) :
    Respects Buffer.Aligned (patchFrom instrument level slots) := by
  induction slots generalizing level with
  | nil => exact respects_pure ()
  | cons slot deeper ih => exact (respects_patchMessage _ _).seq (ih _)

theorem respects_patchLevels : Respects Aligned patchLevels := by
  intro encoder other haligned
  change Related Aligned
    (onBuffer (patchFrom encoder.instrument 0 encoder.levels.toList) encoder)
    (onBuffer (patchFrom other.instrument 0 other.levels.toList) other)
  rw [haligned.instrument_eq, haligned.levels_eq]
  exact respects_onBuffer (respects_patchFrom _ _ _) _ _ haligned

theorem respects_emit (point : DataPoint) : Respects Aligned (emit point) := by
  refine respects_openLevel.seq ((respects_onBuffer point.respects_write).seq
    (respects_popLevel.bind fun popped => ?_))
  cases popped with
  | none => exact respects_patchLevels
  | some slot => exact (respects_onBuffer (respects_patchMessage _ _)).seq respects_patchLevels

end RequestEncoder

end TelemetryExport
