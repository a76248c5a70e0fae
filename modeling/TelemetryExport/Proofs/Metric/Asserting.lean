import TelemetryExport.Proofs.Protobuf.Asserting
import TelemetryExport.Proofs.Metric.Draft

/-! # Writing requests with assertions

The writers of a request are given here once more with their checks: those of every
message that they write, and that a message is opened at the depth that is meant for it.
Beside each stands that no check fails. The states in which this is so are described by
what is open, level by level, and each step says at which level it leaves the request.
-/

namespace TelemetryExport

open Encode

namespace Asserting

/-! ## Points and descriptions -/

def writeKeyValue (field : Nat) (key : String) (value : Scalar) : Asserting Buffer Unit := do
  unless value.isNull do
    message field do
      Field.writeText Schema.KeyValue.key key
      message Schema.KeyValue.value (writeAnyValue value)

def writeProperties (field : Nat) (properties : List Attribute) : Asserting Buffer Unit :=
  properties.forM fun property => writeKeyValue field property.key property.value

def writeExemplar (exemplar : Exemplar) : Asserting Buffer Unit := do
  Field.writeFixed64 Schema.Exemplar.time exemplar.time.unixNanos
  exemplar.value.write Schema.Exemplar.double Schema.Exemplar.int
  writeOptionalBytes Schema.Exemplar.spanId (exemplar.spanId.map (·.bytes.toList))
  writeOptionalBytes Schema.Exemplar.traceId (exemplar.traceId.map (·.bytes.toList))
  writeProperties Schema.Exemplar.properties exemplar.properties

def writeExemplars (field : Nat) (exemplars : List Exemplar) : Asserting Buffer Unit :=
  exemplars.forM fun exemplar => message field (writeExemplar exemplar)

def writeNumberPoint (point : NumberPoint) : Asserting Buffer Unit := do
  Field.writeFixed64 Schema.NumberPoint.startTime point.startTime.unixNanos
  Field.writeFixed64 Schema.NumberPoint.time point.time.unixNanos
  point.value.write Schema.NumberPoint.double Schema.NumberPoint.int
  writeExemplars Schema.NumberPoint.exemplars point.exemplars
  writeProperties Schema.NumberPoint.properties point.properties

def writeHistogramPoint (point : HistogramPoint) : Asserting Buffer Unit := do
  Field.writeFixed64 Schema.HistogramPoint.startTime point.startTime.unixNanos
  Field.writeFixed64 Schema.HistogramPoint.time point.time.unixNanos
  Field.writeFixed64 Schema.HistogramPoint.count point.count
  writeOptionalDouble Schema.HistogramPoint.sum point.sum
  unless point.hasValidBuckets do
    throwThe EncodeError HistogramPoint.invalidBuckets
  Field.writePackedFixed64 Schema.HistogramPoint.counts point.counts
  Field.writePackedDouble Schema.HistogramPoint.bounds point.bounds
  writeExemplars Schema.HistogramPoint.exemplars point.exemplars
  writeOptionalDouble Schema.HistogramPoint.min point.min
  writeOptionalDouble Schema.HistogramPoint.max point.max
  writeProperties Schema.HistogramPoint.properties point.properties

def writeBuckets (field : Nat) (buckets : ExponentialBuckets) : Asserting Buffer Unit := do
  unless buckets.isDefault do
    message field do
      unless buckets.offset == 0 do
        Field.writeSignedInt32 Schema.Buckets.offset buckets.offset
      Field.writePackedVarint Schema.Buckets.counts buckets.counts

def writeExponentialPoint (point : ExponentialPoint) : Asserting Buffer Unit := do
  writeProperties Schema.ExponentialPoint.properties point.properties
  Field.writeFixed64 Schema.ExponentialPoint.startTime point.startTime.unixNanos
  Field.writeFixed64 Schema.ExponentialPoint.time point.time.unixNanos
  Field.writeFixed64 Schema.ExponentialPoint.count point.count
  writeOptionalDouble Schema.ExponentialPoint.sum point.sum
  unless point.hasValidScale do
    throwThe EncodeError ExponentialPoint.invalidScale
  Field.writeSignedInt32 Schema.ExponentialPoint.scale point.scale
  Field.writeFixed64 Schema.ExponentialPoint.zeroCount point.zeroCount
  writeBuckets Schema.ExponentialPoint.positive point.positive
  writeBuckets Schema.ExponentialPoint.negative point.negative
  writeOptionalDouble Schema.ExponentialPoint.min point.min
  writeOptionalDouble Schema.ExponentialPoint.max point.max
  unless point.zeroThreshold.isZero do
    Field.writeDouble Schema.ExponentialPoint.zeroThreshold point.zeroThreshold

def writePoint : DataPoint → Asserting Buffer Unit
  | .number point => writeNumberPoint point
  | .histogram point => writeHistogramPoint point
  | .exponential point => writeExponentialPoint point

def writeScope (scope : Scope) : Asserting Buffer Unit :=
  message Schema.ScopeMetrics.scope do
    Field.writeText Schema.Scope.name scope.name
    match scope.version with
    | some version => Field.writeText Schema.Scope.version version
    | none => pure ()
    writeProperties Schema.Scope.properties scope.properties

theorem appendsSafely_writeKeyValue {field : Nat} (hfield : 0 < field ∧ field < 16) (key : String)
    (value : Scalar) :
    AppendsSafely (writeKeyValue field key value) (TelemetryExport.writeKeyValue field key value) :=
  (appendsSafely_pure ()).ite <| appendsSafely_message hfield <|
    (appendsSafely_of_writes (Field.writesFields_writeText _ _)).seq <|
    appendsSafely_message (by decide) (appendsSafely_of_writes (writesFields_writeAnyValue value))

theorem appendsSafely_writeProperties {field : Nat} (hfield : 0 < field ∧ field < 16)
    (properties : List Attribute) :
    AppendsSafely (writeProperties field properties)
      (TelemetryExport.writeProperties field properties) :=
  AppendsSafely.forM properties fun property =>
    appendsSafely_writeKeyValue hfield property.key property.value

theorem appendsSafely_writeExemplar (exemplar : Exemplar) :
    AppendsSafely (writeExemplar exemplar) exemplar.write :=
  (appendsSafely_of_writes (Field.writesFields_writeFixed64 _ _)).seq <|
    (appendsSafely_of_writes (exemplar.value.writesFields _ _)).seq <|
    (appendsSafely_of_writes (writesFields_writeOptionalBytes _ _)).seq <|
    (appendsSafely_of_writes (writesFields_writeOptionalBytes _ _)).seq <|
    appendsSafely_writeProperties (by decide) _

theorem appendsSafely_writeExemplars {field : Nat} (hfield : 0 < field ∧ field < 16)
    (exemplars : List Exemplar) :
    AppendsSafely (writeExemplars field exemplars) (Exemplar.writeAll field exemplars) :=
  AppendsSafely.forM exemplars fun exemplar =>
    appendsSafely_message hfield (appendsSafely_writeExemplar exemplar)

theorem appendsSafely_writeNumberPoint (point : NumberPoint) :
    AppendsSafely (writeNumberPoint point) point.write :=
  (appendsSafely_of_writes (Field.writesFields_writeFixed64 _ _)).seq <|
    (appendsSafely_of_writes (Field.writesFields_writeFixed64 _ _)).seq <|
    (appendsSafely_of_writes (point.value.writesFields _ _)).seq <|
    (appendsSafely_writeExemplars (by decide) _).seq <|
    appendsSafely_writeProperties (by decide) _

theorem appendsSafely_writeHistogramPoint (point : HistogramPoint) :
    AppendsSafely (writeHistogramPoint point) point.write := by
  refine (appendsSafely_of_writes (Field.writesFields_writeFixed64 _ _)).seq <|
    (appendsSafely_of_writes (Field.writesFields_writeFixed64 _ _)).seq <|
    (appendsSafely_of_writes (Field.writesFields_writeFixed64 _ _)).seq <|
    (appendsSafely_of_writes (writesFields_writeOptionalDouble _ _)).seq ?_
  -- Buckets without a form end the point here.
  refine AppendsSafely.ite ?_ ((appendsSafely_throw rfl).bind fun _ => ?_) <;>
  exact (appendsSafely_of_writes (Field.writesFields_writePackedFixed64 _ _)).seq <|
    (appendsSafely_of_writes (Field.writesFields_writePackedFixed64 _ _)).seq <|
    (appendsSafely_writeExemplars (by decide) _).seq <|
    (appendsSafely_of_writes (writesFields_writeOptionalDouble _ _)).seq <|
    (appendsSafely_of_writes (writesFields_writeOptionalDouble _ _)).seq <|
    appendsSafely_writeProperties (by decide) _

theorem appendsSafely_writeBuckets {field : Nat} (hfield : 0 < field ∧ field < 16)
    (buckets : ExponentialBuckets) :
    AppendsSafely (writeBuckets field buckets) (buckets.write field) := by
  refine (appendsSafely_pure ()).ite (appendsSafely_message hfield ?_)
  exact AppendsSafely.ite (appendsSafely_of_writes (Field.writesFields_writePackedVarint _ _))
    ((appendsSafely_of_writes (Field.writesFields_writeVarint _ _)).seq
      (appendsSafely_of_writes (Field.writesFields_writePackedVarint _ _)))

theorem appendsSafely_writeExponentialPoint (point : ExponentialPoint) :
    AppendsSafely (writeExponentialPoint point) point.write := by
  refine (appendsSafely_writeProperties (by decide) _).seq <|
    (appendsSafely_of_writes (Field.writesFields_writeFixed64 _ _)).seq <|
    (appendsSafely_of_writes (Field.writesFields_writeFixed64 _ _)).seq <|
    (appendsSafely_of_writes (Field.writesFields_writeFixed64 _ _)).seq <|
    (appendsSafely_of_writes (writesFields_writeOptionalDouble _ _)).seq ?_
  -- A scale out of range ends the point here.
  refine AppendsSafely.ite ?_ ((appendsSafely_throw rfl).bind fun _ => ?_) <;>
  exact (appendsSafely_of_writes (Field.writesFields_writeVarint _ _)).seq <|
    (appendsSafely_of_writes (Field.writesFields_writeFixed64 _ _)).seq <|
    (appendsSafely_writeBuckets (by decide) _).seq <|
    (appendsSafely_writeBuckets (by decide) _).seq <|
    (appendsSafely_of_writes (writesFields_writeOptionalDouble _ _)).seq <|
    (appendsSafely_of_writes (writesFields_writeOptionalDouble _ _)).seq <|
    (appendsSafely_pure ()).ite (appendsSafely_of_writes (Field.writesFields_writeFixed64 _ _))

theorem appendsSafely_writePoint (point : DataPoint) :
    AppendsSafely (writePoint point) point.write := by
  cases point with
  | number point => exact appendsSafely_writeNumberPoint point
  | histogram point => exact appendsSafely_writeHistogramPoint point
  | exponential point => exact appendsSafely_writeExponentialPoint point

theorem appendsSafely_writeScope (scope : Scope) :
    AppendsSafely (writeScope scope) (RequestEncoder.writeScope scope) := by
  refine appendsSafely_message (by decide)
    ((appendsSafely_of_writes (Field.writesFields_writeText _ _)).seq ?_)
  cases scope.version with
  | none => exact appendsSafely_writeProperties (by decide) _
  | some version =>
      exact (appendsSafely_of_writes (Field.writesFields_writeText _ _)).seq
        (appendsSafely_writeProperties (by decide) _)

end Asserting

/-! ## Open messages -/

namespace RequestEncoder

/-- So many messages are open, and the header of each is in its place. -/
structure OpenTo (encoder : RequestEncoder) (depth : Nat) : Prop where
  valid : encoder.buffer.Valid
  depth_eq : encoder.depth = depth
  within : ∀ slot ∈ encoder.levels.toList, slot.Within encoder.buffer

variable {encoder : RequestEncoder} {depth : Nat}

/-- Writing into a request leaves its open messages as they are. -/
theorem OpenTo.of_precedes (hopen : encoder.OpenTo depth) {buffer : Buffer}
    (hprecedes : encoder.buffer.Precedes buffer) : OpenTo { encoder with buffer } depth where
  valid := hprecedes.valid
  depth_eq := hopen.depth_eq
  within := fun slot hmem => (hopen.within slot hmem).of_precedes hprecedes

theorem OpenTo.closeTo (hopen : encoder.OpenTo depth) {remaining : Nat}
    (hremaining : remaining ≤ depth) : (encoder.closeTo remaining).OpenTo remaining where
  valid := hopen.valid
  depth_eq := by
    have hdepth := hopen.depth_eq
    rw [RequestEncoder.depth] at hdepth
    change min encoder.levels.depth remaining = remaining
    omega
  within := by
    intro slot hmem
    change slot ∈ (encoder.levels.truncate remaining).toList at hmem
    rw [SlotStack.toList_truncate] at hmem
    exact hopen.within slot (List.mem_of_mem_take hmem)

end RequestEncoder

/-! ## Opening, writing and completing messages -/

namespace Asserting

def onBuffer {α : Type} (action : Asserting Buffer α) : Asserting RequestEncoder α :=
  RequestEncoder.onBuffer action.run

/-- Opens a message where as many are open as its depth says. -/
def openLevel (depth : Nat) : Asserting RequestEncoder Unit := do
  assert ((← get).depth = depth) .depth
  RequestEncoder.openLevel

def beginResource : Asserting RequestEncoder Unit := do
  openLevel Level.resource
  onBuffer (Encode.write (← get).resource)

def beginScope (scope : Scope) : Asserting RequestEncoder Unit := do
  openLevel Level.scope
  onBuffer (writeScope scope)

def beginMetric (metric : Metric) : Asserting RequestEncoder Unit := do
  openLevel Level.metric
  onBuffer (RequestEncoder.writeMetricHeader metric)

def beginInstrument (data : MetricData) : Asserting RequestEncoder Unit := do
  openLevel Level.instrument
  modify ({ · with instrument := some (Instrument.ofData data) })
  onBuffer (RequestEncoder.writeInstrumentHeader data)

def patchFrom (instrument : Option Instrument) : Nat → List Slot → Asserting Buffer Unit
  | _, [] => pure ()
  | level, slot :: deeper => do
      patchMessage slot (RequestEncoder.fieldAt instrument level)
      patchFrom instrument (level + 1) deeper

def patchLevels : Asserting RequestEncoder Unit := do
  let encoder ← get
  onBuffer (patchFrom encoder.instrument 0 encoder.levels.toList)

def emit (point : DataPoint) : Asserting RequestEncoder Unit := do
  openLevel Level.dataPoint
  onBuffer (writePoint point)
  match ← RequestEncoder.popLevel with
  | some slot => onBuffer (patchMessage slot Schema.Instrument.dataPoints)
  | none => pure ()
  patchLevels

open RequestEncoder (OpenTo)

variable {encoder : RequestEncoder} {depth : Nat} {α : Type}

/-- Writing into the innermost message. -/
theorem leadsTo_onBuffer {action : Asserting Buffer α} {plain : Encode α}
    (hopen : encoder.OpenTo depth)
    (haction : Upholds action plain encoder.buffer (fun _ after => encoder.buffer.Precedes after)
      encoder.buffer.Precedes) :
    LeadsTo RequestEncoder.buffer (onBuffer action) (RequestEncoder.onBuffer plain) encoder
      (·.OpenTo depth) := by
  refine (Upholds.zoom RequestEncoder.onBuffer RequestEncoder.onBuffer_of_ok
    RequestEncoder.onBuffer_of_error haction).imp ?_ ?_
  · rintro result after ⟨buffer, rfl, hprecedes⟩
    exact ⟨hprecedes, hopen.of_precedes hprecedes⟩
  · rintro left ⟨buffer, rfl, hprecedes⟩
    exact hprecedes

/-- A message is opened at its depth, as long as a place is left. -/
theorem leadsTo_openLevel (hopen : encoder.OpenTo depth) (hdepth : depth < Level.count) :
    LeadsTo RequestEncoder.buffer (openLevel depth) RequestEncoder.openLevel encoder
      (·.OpenTo (depth + 1)) := by
  refine Upholds.examine (Upholds.assert hopen.depth_eq ?_)
  by_cases hroom : encoder.buffer.cursor + Slot.messageWidth ≤ encoder.buffer.capacity
  · obtain ⟨levels, hrun, hlevels⟩ := RequestEncoder.openLevel_of_le encoder
      (by rw [← hopen.depth_eq] at hdepth; exact hdepth) hroom
    have hprecedes := (Buffer.skip_extends hroom).precedes hopen.valid
    refine Upholds.of_plain ?_ ?_ <;> rw [hrun]
    · rintro _ _ ⟨⟩
      refine ⟨hprecedes, hprecedes.valid, ?_, fun slot hmem => ?_⟩
      · rw [RequestEncoder.depth, ← SlotStack.length_toList, hlevels, List.length_append,
          SlotStack.length_toList, List.length_singleton]
        exact congrArg (· + 1) hopen.depth_eq
      · change slot ∈ levels.toList at hmem
        rw [hlevels] at hmem
        rcases List.mem_append.mp hmem with hmem | hmem
        · exact (hopen.within slot hmem).of_precedes hprecedes
        · rw [List.mem_singleton.mp hmem]
          exact ⟨rfl, Nat.le_refl _⟩
    · rintro _ _ ⟨⟩
  · have hrun := RequestEncoder.openLevel_of_lt encoder (Nat.lt_of_not_le hroom)
    refine Upholds.of_plain ?_ ?_ <;> rw [hrun]
    · rintro _ _ ⟨⟩
    · rintro _ _ ⟨⟩
      exact ⟨rfl, hopen.valid.precedes_self⟩

theorem leadsTo_beginResource (hopen : encoder.OpenTo Level.resource) :
    LeadsTo RequestEncoder.buffer beginResource RequestEncoder.beginResource encoder
      (·.OpenTo Level.scope) := by
  refine (leadsTo_openLevel hopen (by decide)).bind fun _ after hafter => Upholds.get ?_
  exact leadsTo_onBuffer hafter (appendsSafely_of_writes (writes_write _) _ hafter.valid)

theorem leadsTo_beginScope (scope : Scope) (hopen : encoder.OpenTo Level.scope) :
    LeadsTo RequestEncoder.buffer (beginScope scope) (RequestEncoder.beginScope scope) encoder
      (·.OpenTo Level.metric) :=
  (leadsTo_openLevel hopen (by decide)).bind fun _ _ hafter =>
    leadsTo_onBuffer hafter (appendsSafely_writeScope scope _ hafter.valid)

theorem leadsTo_beginMetric (metric : Metric) (hopen : encoder.OpenTo Level.metric) :
    LeadsTo RequestEncoder.buffer (beginMetric metric) (RequestEncoder.beginMetric metric) encoder
      (·.OpenTo Level.instrument) :=
  (leadsTo_openLevel hopen (by decide)).bind fun _ _ hafter => leadsTo_onBuffer hafter
    (appendsSafely_of_writes (RequestEncoder.writesFields_writeMetricHeader _) _ hafter.valid)

theorem leadsTo_beginInstrument (data : MetricData) (hopen : encoder.OpenTo Level.instrument) :
    LeadsTo RequestEncoder.buffer (beginInstrument data) (RequestEncoder.beginInstrument data)
      encoder (·.OpenTo Level.dataPoint) := by
  refine (leadsTo_openLevel hopen (by decide)).bind fun _ opened hopened => Upholds.modify ?_
  exact leadsTo_onBuffer ⟨hopened.valid, hopened.depth_eq, hopened.within⟩
    (appendsSafely_of_writes (RequestEncoder.writesFields_writeInstrumentHeader _) _ hopened.valid)

theorem numbered_fieldAt (instrument : Option Instrument) (level : Nat) :
    0 < RequestEncoder.fieldAt instrument level ∧
      RequestEncoder.fieldAt instrument level < 16 := by
  simp only [RequestEncoder.fieldAt]
  repeat' split
  · decide
  · decide
  · decide
  · cases instrument.getD .gauge <;> decide
  · decide

/-- Headers in their places are filled in, from the outside in. -/
theorem upholds_patchFrom (instrument : Option Instrument) (level : Nat) {slots : List Slot}
    {buffer : Buffer} (hvalid : buffer.Valid) (hwithin : ∀ slot ∈ slots, slot.Within buffer) :
    Upholds (patchFrom instrument level slots) (RequestEncoder.patchFrom instrument level slots)
      buffer (fun _ after => buffer.Precedes after) buffer.Precedes := by
  induction slots generalizing level buffer with
  | nil => exact Upholds.pure hvalid.precedes_self
  | cons slot deeper ih =>
      refine (upholds_patchMessage hvalid (hwithin slot List.mem_cons_self)
        (numbered_fieldAt instrument level)).bind fun _ after hafter => ?_
      refine (ih (level + 1) hafter.valid fun other hmem => ?_).imp (fun _ _ => hafter.trans)
        fun _ => hafter.trans
      exact (hwithin other (List.mem_cons_of_mem _ hmem)).of_precedes hafter

theorem leadsTo_patchLevels (hopen : encoder.OpenTo depth) :
    LeadsTo RequestEncoder.buffer patchLevels RequestEncoder.patchLevels encoder
      (·.OpenTo depth) :=
  Upholds.get (leadsTo_onBuffer hopen (upholds_patchFrom encoder.instrument 0 hopen.valid
    hopen.within))

/-- The innermost header is taken off, and is in its place. -/
theorem upholds_popLevel {left : RequestEncoder → Prop} (hopen : encoder.OpenTo (depth + 1)) :
    Upholds (liftM RequestEncoder.popLevel) RequestEncoder.popLevel encoder
      (fun popped after => ∃ slot, popped = some slot ∧ slot.Within after.buffer ∧
        after.buffer = encoder.buffer ∧ after.OpenTo depth) left := by
  have hdepth : encoder.levels.toList.length = depth + 1 := by
    rw [SlotStack.length_toList]
    exact hopen.depth_eq
  obtain ⟨outer, slot, hlist⟩ := List.eq_nil_or_concat encoder.levels.toList |>.resolve_left
    fun hnil => by rw [hnil] at hdepth; cases hdepth
  rw [List.concat_eq_append] at hlist
  obtain ⟨popped, hpop, hpopped⟩ := SlotStack.pop_of_toList hlist
  have hrun : RequestEncoder.popLevel encoder =
      .ok (some slot) { encoder with levels := popped } := by
    simp only [RequestEncoder.popLevel, hpop]
  rw [hlist, List.length_append, List.length_singleton] at hdepth
  refine Upholds.of_plain ?_ ?_ <;> rw [hrun]
  · rintro _ _ ⟨⟩
    refine ⟨slot, rfl, hopen.within slot ?_, rfl, hopen.valid, ?_,
      fun other hmem => hopen.within other ?_⟩
    · rw [hlist]
      exact List.mem_append_right _ (List.mem_singleton.mpr rfl)
    · rw [RequestEncoder.depth, ← SlotStack.length_toList, hpopped]
      omega
    · change other ∈ popped.toList at hmem
      rw [hpopped] at hmem
      rw [hlist]
      exact List.mem_append_left _ hmem
  · rintro _ _ ⟨⟩

/-- A point is written into the open instrument, and every header is filled in. -/
theorem leadsTo_emit (point : DataPoint) (hopen : encoder.OpenTo Level.dataPoint) :
    LeadsTo RequestEncoder.buffer (emit point) (RequestEncoder.emit point) encoder
      (·.OpenTo Level.dataPoint) := by
  refine (leadsTo_openLevel hopen (by decide)).bind fun _ opened hopened => ?_
  refine (leadsTo_onBuffer hopened (appendsSafely_writePoint point _ hopened.valid)).bind
    fun _ written hwritten => ?_
  refine Upholds.bind (upholds_popLevel hwritten) ?_
  rintro _ popped ⟨slot, rfl, hwithin, hbuffer, hpopped⟩
  rw [← hbuffer]
  -- The header of the point is filled in before those around it.
  exact (leadsTo_onBuffer hpopped (upholds_patchMessage hpopped.valid hwithin (by decide))).bind
    fun _ _ hafter => leadsTo_patchLevels hafter

end Asserting

end TelemetryExport
