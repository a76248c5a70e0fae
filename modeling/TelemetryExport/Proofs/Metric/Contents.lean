import Mathlib.Data.List.Forall2
import TelemetryExport.Proofs.Export.Fate
import TelemetryExport.Proofs.Metric.Operations

/-! # The contents of data points

Whatever was done to an encoder before, a point that is written stands behind all that was
there as one field of its instrument, and a receiver reads from that field everything the
point is made of. Filling in the headers of the open messages does not touch it. Only a
point without a form in the schema is said to have none, and no such point is written.
-/

namespace TelemetryExport

open WrittenField Wire

/-! ## What arrives of a point -/

/-- Nanoseconds since the epoch, as far as 64 bits without a sign go. -/
def Time.ArrivesAs (time : Time) (nanoseconds : UInt64) : Prop :=
  (nanoseconds.toNat : Int) =
    max 0 (min (time.seconds.toInt * 1000000000 + time.nanoseconds.val) 18446744073709551615)

structure Attribute.ArrivesAs (property : Attribute) (keyValue : Message.KeyValue) : Prop where
  key_eq : keyValue.key = property.key
  value_eq : keyValue.value = some property.value

/-- The attributes that have a value arrive in order. -/
def Attribute.ArriveAs (properties : List Attribute) (keyValues : List Message.KeyValue) : Prop :=
  List.Forall₂ Attribute.ArrivesAs (properties.filter (·.value ≠ .null)) keyValues

/-- An identifier that there is not arrives without any bytes. -/
structure Exemplar.ArrivesAs (exemplar : Exemplar) (message : Message.Exemplar) : Prop where
  attributes : Attribute.ArriveAs exemplar.properties message.attributes
  time : exemplar.time.ArrivesAs message.time
  value_eq : message.value = some exemplar.value
  spanId_eq : message.spanId = exemplar.spanId.elim [] (·.bytes.toList)
  traceId_eq : message.traceId = exemplar.traceId.elim [] (·.bytes.toList)

structure NumberPoint.ArrivesAs (point : NumberPoint) (message : Message.NumberPoint) : Prop where
  attributes : Attribute.ArriveAs point.properties message.attributes
  startTime : point.startTime.ArrivesAs message.startTime
  time : point.time.ArrivesAs message.time
  value_eq : message.value = some point.value
  exemplars : List.Forall₂ Exemplar.ArrivesAs point.exemplars message.exemplars

structure HistogramPoint.ArrivesAs (point : HistogramPoint) (message : Message.HistogramPoint) :
    Prop where
  attributes : Attribute.ArriveAs point.properties message.attributes
  startTime : point.startTime.ArrivesAs message.startTime
  time : point.time.ArrivesAs message.time
  count_eq : message.count = point.count
  sum_eq : message.sum = point.sum
  counts_eq : message.counts = point.counts
  bounds_eq : message.bounds = point.bounds
  exemplars : List.Forall₂ Exemplar.ArrivesAs point.exemplars message.exemplars
  min_eq : message.min = point.min
  max_eq : message.max = point.max

/-- A side that is absent reads as one with offset zero and without counts, and only such
buckets are left out. -/
structure ExponentialBuckets.ArriveAs (buckets : ExponentialBuckets)
    (side : Option Message.Buckets) : Prop where
  offset_eq : (side.elim 0 fun message => message.offset) = buckets.offset
  counts_eq : (side.elim [] fun message => message.counts) = buckets.counts
  absent_iff : side = none ↔ buckets.offset = 0 ∧ buckets.counts = []

structure ExponentialPoint.ArrivesAs (point : ExponentialPoint)
    (message : Message.ExponentialPoint) : Prop where
  attributes : Attribute.ArriveAs point.properties message.attributes
  startTime : point.startTime.ArrivesAs message.startTime
  time : point.time.ArrivesAs message.time
  count_eq : message.count = point.count
  sum_eq : message.sum = point.sum
  scale_eq : message.scale = point.scale
  zeroCount_eq : message.zeroCount = point.zeroCount
  positive : point.positive.ArriveAs message.positive
  negative : point.negative.ArriveAs message.negative
  min_eq : message.min = point.min
  max_eq : message.max = point.max
  /-- The two zeros differ in the sign bit alone, and both arrive as the one without it. -/
  zeroThreshold_eq : message.zeroThreshold =
    if point.zeroThreshold.bits = 0 ∨ point.zeroThreshold.bits = 0x8000000000000000 then .zero
    else point.zeroThreshold

/-- A receiver reads the point from the bytes of a message of its kind. -/
def DataPoint.ArrivesIn (content : List UInt8) : DataPoint → Prop
  | number point => ∃ message,
      Message.numberPoint? (.bytes content) = some message ∧ point.ArrivesAs message
  | histogram point => ∃ message,
      Message.histogramPoint? (.bytes content) = some message ∧ point.ArrivesAs message
  | exponential point => ∃ message,
      Message.exponentialPoint? (.bytes content) = some message ∧ point.ArrivesAs message

/-! ### What should arrive does -/

theorem Time.arrivesAs_nanoseconds (time : Time) :
    time.ArrivesAs (Message.nanoseconds time) := by
  have hsize : UInt64.size = 18446744073709551616 := rfl
  rw [Time.ArrivesAs, Message.nanoseconds, UInt64.toNat_ofNat', Nat.mod_eq_of_lt (by omega)]
  omega

theorem Attribute.arriveAs_keyValues (properties : List Attribute) :
    Attribute.ArriveAs properties (Message.keyValues properties) := by
  rw [Attribute.ArriveAs, Message.keyValues, List.forall₂_map_right_iff, List.forall₂_same]
  exact fun property _ => ⟨rfl, rfl⟩

namespace Exemplar

theorem arrivesAs_message (exemplar : Exemplar) : exemplar.ArrivesAs exemplar.message where
  attributes := Attribute.arriveAs_keyValues _
  time := Time.arrivesAs_nanoseconds _
  value_eq := rfl
  spanId_eq := rfl
  traceId_eq := rfl

theorem forall₂_arrivesAs_message (exemplars : List Exemplar) :
    List.Forall₂ ArrivesAs exemplars (exemplars.map message) := by
  rw [List.forall₂_map_right_iff, List.forall₂_same]
  exact fun exemplar _ => exemplar.arrivesAs_message

end Exemplar

theorem NumberPoint.arrivesAs_message (point : NumberPoint) : point.ArrivesAs point.message where
  attributes := Attribute.arriveAs_keyValues _
  startTime := Time.arrivesAs_nanoseconds _
  time := Time.arrivesAs_nanoseconds _
  value_eq := rfl
  exemplars := Exemplar.forall₂_arrivesAs_message _

theorem HistogramPoint.arrivesAs_message (point : HistogramPoint) :
    point.ArrivesAs point.message where
  attributes := Attribute.arriveAs_keyValues _
  startTime := Time.arrivesAs_nanoseconds _
  time := Time.arrivesAs_nanoseconds _
  count_eq := rfl
  sum_eq := rfl
  counts_eq := rfl
  bounds_eq := rfl
  exemplars := Exemplar.forall₂_arrivesAs_message _
  min_eq := rfl
  max_eq := rfl

theorem ExponentialBuckets.arriveAs_message? (buckets : ExponentialBuckets) :
    buckets.ArriveAs buckets.message? := by
  rw [message?]
  by_cases hdefault : buckets.offset = 0 ∧ buckets.counts = []
  · rw [if_pos hdefault]
    exact ⟨hdefault.1.symm, hdefault.2.symm, iff_of_true rfl hdefault⟩
  · rw [if_neg hdefault]
    exact ⟨rfl, rfl, iff_of_false (Option.some_ne_none _) hdefault⟩

theorem ExponentialPoint.arrivesAs_message (point : ExponentialPoint) :
    point.ArrivesAs point.message where
  attributes := Attribute.arriveAs_keyValues _
  startTime := Time.arrivesAs_nanoseconds _
  time := Time.arrivesAs_nanoseconds _
  count_eq := rfl
  sum_eq := rfl
  scale_eq := rfl
  zeroCount_eq := rfl
  positive := ExponentialBuckets.arriveAs_message? _
  negative := ExponentialBuckets.arriveAs_message? _
  min_eq := rfl
  max_eq := rfl
  zeroThreshold_eq := rfl

/-- The fields that are written of a point are read as the point. -/
theorem DataPoint.arrivesIn_fields (point : DataPoint)
    (hlength : (encodeAll point.fields).length ≤ maxPayloadSize) :
    point.ArrivesIn (encodeAll point.fields) := by
  cases point with
  | number point => exact ⟨_, point.merge_fields hlength, point.arrivesAs_message⟩
  | histogram point => exact ⟨_, point.merge_fields hlength, point.arrivesAs_message⟩
  | exponential point => exact ⟨_, point.merge_fields hlength, point.arrivesAs_message⟩

/-! ## Encoders in use -/

/-- An encoder that was started on a buffer, whatever was done with it since and with
whatever outcome. It is taken back to any state in which it ever was. -/
inductive RequestEncoder.InUse (format : RequestFormat) (buffer : Buffer) :
    RequestEncoder → Prop where
  | started : InUse format buffer (format.start buffer)
  | performed {encoder : RequestEncoder} (operation : Operation)
      (hused : InUse format buffer encoder) : InUse format buffer (operation.perform encoder)
  | completed {encoder : RequestEncoder} (hused : InUse format buffer encoder) :
      InUse format buffer (Session.following patchLevels encoder)
  | rewound {encoder earlier : RequestEncoder} (hused : InUse format buffer encoder)
      (hearlier : InUse format buffer earlier) :
      InUse format buffer (encoder.rewind earlier.checkpoint)
  | reset {encoder : RequestEncoder} (hused : InUse format buffer encoder) :
      InUse format buffer encoder.reset

namespace RequestEncoder

variable {format : RequestFormat} {buffer : Buffer} {encoder after : RequestEncoder} {depth : Nat}
  {point : DataPoint}

theorem InUse.performAll (hused : InUse format buffer encoder) (operations : List Operation) :
    InUse format buffer (Operation.performAll operations encoder) := by
  induction operations generalizing encoder with
  | nil => exact hused
  | cons operation rest ih => exact ih (hused.performed operation)

theorem openTo_of_levels_eq_nil (hvalid : encoder.buffer.Valid)
    (hlevels : encoder.levels.toList = []) : encoder.OpenTo encoder.depth where
  valid := hvalid
  depth_eq := rfl
  within := by
    rw [hlevels]
    exact List.forall_mem_nil _

/-- Headers are in their places again where they were once before. -/
theorem OpenTo.rewind {earlier : RequestEncoder} (hopen : encoder.OpenTo encoder.depth)
    (hearlier : earlier.OpenTo earlier.depth)
    (hcapacity : encoder.buffer.capacity = earlier.buffer.capacity) :
    (encoder.rewind earlier.checkpoint).OpenTo earlier.depth where
  valid := ⟨hcapacity ▸ hearlier.valid.cursor_le, hopen.valid.capacity_le⟩
  depth_eq := rfl
  within := fun slot hmem =>
    ⟨(hearlier.within slot hmem).width_eq, (hearlier.within slot hmem).valueStart_le⟩

/-- The open headers of an encoder in use are in their places. -/
theorem InUse.openTo (hcapacity : buffer.capacity ≤ maxPayloadSize)
    (hused : InUse format buffer encoder) :
    encoder.OpenTo encoder.depth ∧ encoder.buffer.capacity = buffer.capacity := by
  induction hused with
  | started =>
      exact ⟨openTo_of_levels_eq_nil (Buffer.reset_valid hcapacity) List.take_zero, rfl⟩
  | performed operation _ ih =>
      have hsince := (since_self ih.1).perform operation
      exact ⟨hsince.openTo, hsince.capacity_eq.trans ih.2⟩
  | @completed encoder _ ih =>
      obtain ⟨patched, hpatch, -⟩ :=
        patchFrom_of_within encoder.instrument 0 ih.1.valid ih.1.within
      have hsince := (since_self ih.1).of_patched ih.1.valid.extends_self hpatch rfl
      rw [Session.following_of_ok (patchLevels_of_ok hpatch)]
      exact ⟨hsince.openTo, hsince.capacity_eq.trans ih.2⟩
  | rewound _ _ ih ihEarlier =>
      exact ⟨ih.1.rewind ihEarlier.1 (ih.2.trans ihEarlier.2.symm), ih.2⟩
  | @reset encoder _ ih =>
      exact ⟨openTo_of_levels_eq_nil (Buffer.reset_valid ih.1.valid.capacity_le)
        encoder.levels.toList_clear, ih.2⟩

/-! ## What is appended -/

/-- Headers in their places are filled in without touching anything behind them. -/
theorem bytes_drop_patchFrom {instrument : Option Instrument} {level start : Nat}
    {slots : List Slot} {buffer patched : Buffer} (hvalid : buffer.Valid)
    (hwithin : ∀ slot ∈ slots, slot.Within buffer)
    (hbefore : ∀ slot ∈ slots, slot.valueStart ≤ start)
    (hpatch : patchFrom instrument level slots buffer = .ok () patched) :
    patched.bytes.drop start = buffer.bytes.drop start := by
  induction slots generalizing level buffer with
  | nil =>
      cases hpatch
      rfl
  | cons slot deeper ih =>
      obtain ⟨hslot, hdeeper⟩ := List.forall_mem_cons.mp hwithin
      obtain ⟨hfirst, hrest⟩ := List.forall_mem_cons.mp hbefore
      obtain ⟨middle, hrun, hmiddle, -, hcursor, hcells⟩ :=
        patchMessage_of_within hvalid hslot (fieldAt instrument level)
      rw [patchFrom, Encode.bind_of_ok hrun] at hpatch
      rw [ih hmiddle (within_of_cursor_eq hdeeper hcursor) hrest hpatch]
      -- The header is as long as before, so that what is behind it stays in its place.
      have hlength : (buffer.cells.take slot.headerStart ++ Slot.messageHeader
          (fieldAt instrument level) (buffer.cursor - slot.valueStart)).length =
            slot.valueStart := by
        have hroom := hslot.valueStart_le
        have hwidth := hslot.width_eq
        have hle := hvalid.cursor_le
        have hcapacity := Buffer.length_cells buffer
        rw [List.length_append, List.length_take, length_messageHeader, hwidth]
        omega
      have hdrop : middle.cells.drop start = buffer.cells.drop start := by
        rw [hcells, ← Nat.add_sub_of_le hfirst, ← List.drop_drop, List.drop_left' hlength,
          List.drop_drop]
      rw [Buffer.bytes, Buffer.bytes, List.drop_take, List.drop_take, hcursor, hdrop]

/-- What it takes to write a point: a form in the schema, a level for its message, and room. -/
structure HasPlaceFor (encoder : RequestEncoder) (point : DataPoint) : Prop where
  isValid : point.isValid = true
  depth_lt : encoder.depth < Level.count
  room : encoder.buffer.cursor + (encodeAll [pointField point]).length ≤ encoder.buffer.capacity

/-- A point for which there is a place stands behind all that was there. -/
theorem HasPlaceFor.exists_emit (hplace : encoder.HasPlaceFor point)
    (hopen : encoder.OpenTo depth) : ∃ after, emit point encoder = .ok () after ∧
      after.buffer.bytes.drop encoder.buffer.cursor = encodeAll [pointField point] := by
  obtain ⟨levels, hlevels, hemit⟩ :=
    emit_eq hopen.valid hplace.isValid hplace.depth_lt hplace.room
  have hextends := Buffer.extends_append hplace.room
  have hvalid := hextends.valid hopen.valid
  have hwithin := hopen.within_of_extends hextends
  obtain ⟨patched, hpatch, -⟩ := patchFrom_of_within encoder.instrument 0 hvalid hwithin
  refine ⟨{ encoder with buffer := patched, levels }, ?_, ?_⟩
  · rw [hemit]
    apply patchLevels_of_ok
    rw [hlevels]
    exact hpatch
  · change patched.bytes.drop _ = _
    rw [bytes_drop_patchFrom hvalid hwithin
      (fun slot hmem => (hopen.within slot hmem).valueStart_le) hpatch,
      Buffer.bytes_append hplace.room, ← Buffer.length_bytes hopen.valid, List.drop_left]

/-- A point for which there is no place fails, and its form is not blamed without reason. -/
theorem emit_of_not_hasPlaceFor (hvalid : encoder.buffer.Valid)
    (hplace : ¬ encoder.HasPlaceFor point) :
    ∃ fault left, emit point encoder = .error fault left ∧
      ∀ reason, fault = .invalidDataPoint reason → point.isValid = false := by
  by_cases hroom : encoder.buffer.cursor + Slot.messageWidth ≤ encoder.buffer.capacity
  · by_cases hdepth : encoder.depth < Level.count
    · obtain ⟨levels, hopen, -⟩ := openLevel_of_le encoder hdepth hroom
      have hskipped := (Buffer.skip_extends hroom).valid hvalid
      -- The header of the point is there, so that whatever fails is the point behind it.
      have hbehind : ∀ fault left, point.write (encoder.buffer.skip Slot.messageWidth) =
          .error fault left → ∃ left, emit point encoder = .error fault left := by
        intro fault left hrun
        refine ⟨⟨left, encoder.resource, levels, encoder.instrument⟩, ?_⟩
        rw [emit, Encode.bind_of_ok hopen]
        exact Encode.bind_of_error (onBuffer_of_error hrun)
      cases hpoint : point.isValid with
      | false =>
          obtain ⟨reason, hrefuses⟩ := DataPoint.refuses hpoint
          obtain ⟨fault, written, hrun, -⟩ := hrefuses.of_run hskipped
          obtain ⟨left, hemit⟩ := hbehind fault written hrun
          exact ⟨fault, left, hemit, fun _ _ => rfl⟩
      | true =>
          have hshort : (encoder.buffer.skip Slot.messageWidth).capacity <
              (encoder.buffer.skip Slot.messageWidth).cursor + (encodeAll point.fields).length := by
            by_contra hfits
            apply hplace ⟨hpoint, hdepth, ?_⟩
            rw [Buffer.capacity_skip, Buffer.cursor_skip] at hfits
            rw [length_encodeAll_pointField]
            omega
          obtain ⟨offset, requested, written, hrun, -⟩ :=
            (DataPoint.writesFields hpoint).overflows _ hskipped hshort
          obtain ⟨left, hemit⟩ := hbehind _ written hrun
          exact ⟨_, left, hemit, by rintro _ ⟨⟩⟩
    · have hopen := openLevel_of_full (Nat.le_of_not_lt hdepth) hroom
      exact ⟨_, _, Encode.bind_of_error hopen, by rintro _ ⟨⟩⟩
  · have hopen := openLevel_of_lt encoder (Nat.lt_of_not_le hroom)
    exact ⟨_, _, Encode.bind_of_error hopen, by rintro _ ⟨⟩⟩

theorem hasPlaceFor_of_ok (hvalid : encoder.buffer.Valid)
    (hrun : emit point encoder = .ok () after) : encoder.HasPlaceFor point := by
  by_contra hplace
  obtain ⟨fault, left, hemit, -⟩ := emit_of_not_hasPlaceFor hvalid hplace
  rw [hrun] at hemit
  cases hemit

theorem not_hasPlaceFor_of_error (hopen : encoder.OpenTo depth) {fault : EncodeError}
    (hrun : emit point encoder = .error fault after) : ¬ encoder.HasPlaceFor point := by
  intro hplace
  obtain ⟨_, hemit, -⟩ := hplace.exists_emit hopen
  rw [hrun] at hemit
  cases hemit

/-! ## The contents of every point -/

/-- What a point adds to a request is one field, and the point is read from it. -/
theorem arrivesIn_of_emit (hopen : encoder.OpenTo depth)
    (hrun : emit point encoder = .ok () after) : ∃ content,
      Wire.read (after.payload.data.toList.drop encoder.payload.size) =
        some [(1, .bytes content)] ∧ point.ArrivesIn content := by
  have hplace := hasPlaceFor_of_ok hopen.valid hrun
  obtain ⟨_, hemit, hbytes⟩ := hplace.exists_emit hopen
  rw [hrun] at hemit
  cases hemit
  have hfits : (encodeAll [pointField point]).length ≤ maxPayloadSize := by
    have hroom := hplace.room
    have hmost := hopen.valid.capacity_le
    omega
  refine ⟨encodeAll point.fields, ?_, point.arrivesIn_fields ?_⟩
  · rw [payload, payload, Buffer.toList_written, Buffer.size_written hopen.valid, hbytes,
      read_encodeAll (allNumbered_singleton (numbered_of_check rfl)) hfits]
    rfl
  · rw [length_encodeAll_pointField] at hfits
    omega

theorem malformed_of_emit (hopen : encoder.OpenTo depth) {reason : String}
    (hrun : emit point encoder = .error (.invalidDataPoint reason) after) : point.Malformed := by
  obtain ⟨fault, _, hemit, hblamed⟩ :=
    emit_of_not_hasPlaceFor hopen.valid (not_hasPlaceFor_of_error hopen hrun)
  rw [hrun] at hemit
  cases hemit
  exact DataPoint.isValid_eq_false_iff.mp (hblamed reason rfl)

theorem emit_of_malformed (hvalid : encoder.buffer.Valid) (hmalformed : point.Malformed) :
    ∃ fault left, emit point encoder = .error fault left := by
  have hplace : ¬ encoder.HasPlaceFor point := by
    intro hplace
    rw [← DataPoint.isValid_eq_false_iff, hplace.isValid] at hmalformed
    cases hmalformed
  obtain ⟨fault, left, hemit, -⟩ := emit_of_not_hasPlaceFor hvalid hplace
  exact ⟨fault, left, hemit⟩

/-- What becomes of a point and of what it is made of. -/
structure Conveys (encoder : RequestEncoder) (point : DataPoint) : Prop where
  /-- What the point adds to the request is one field, and the point is read from it. -/
  arrivesIn_of_ok : ∀ after, emit point encoder = .ok () after → ∃ content,
    Wire.read (after.payload.data.toList.drop encoder.payload.size) = some [(1, .bytes content)] ∧
      point.ArrivesIn content
  /-- Only a point without a form is said to have none. -/
  malformed_of_error : ∀ reason left,
    emit point encoder = .error (.invalidDataPoint reason) left → point.Malformed
  /-- A point without a form is not written, whatever room there is. -/
  error_of_malformed : point.Malformed → ∃ fault left, emit point encoder = .error fault left
  /-- Every other point is written where there is a level and room for its message. -/
  ok_of_not_malformed : ¬ point.Malformed → encoder.depth < Level.count →
    encoder.buffer.cursor + (Slot.messageWidth + (encodeAll point.fields).length) ≤
      encoder.buffer.capacity →
    ∃ after, emit point encoder = .ok () after

/-- From every encoder in use, all that a point is made of arrives if the point is written. -/
theorem conveys_of_inUse (hcapacity : buffer.capacity ≤ maxPayloadSize)
    (hused : InUse format buffer encoder) (point : DataPoint) : encoder.Conveys point where
  arrivesIn_of_ok := fun _ hrun => arrivesIn_of_emit (hused.openTo hcapacity).1 hrun
  malformed_of_error := fun _ _ hrun => malformed_of_emit (hused.openTo hcapacity).1 hrun
  error_of_malformed := emit_of_malformed (hused.openTo hcapacity).1.valid
  ok_of_not_malformed := by
    intro hformed hdepth hroom
    rw [← DataPoint.isValid_eq_false_iff, Bool.not_eq_false] at hformed
    rw [← length_encodeAll_pointField] at hroom
    obtain ⟨after, hemit, -⟩ :=
      HasPlaceFor.exists_emit ⟨hformed, hdepth, hroom⟩ (hused.openTo hcapacity).1
    exact ⟨after, hemit⟩

/-! ### Points at the ends of what can be said -/

/-- A buffer with room for one small point. -/
def smallBuffer : Buffer := Buffer.withCapacity 100

theorem capacity_smallBuffer : smallBuffer.capacity = 100 := by
  rw [smallBuffer, Buffer.capacity_withCapacity]
  rfl

theorem capacity_smallBuffer_le : smallBuffer.capacity ≤ maxPayloadSize := by
  rw [capacity_smallBuffer]
  decide

/-- An encoder in whose instrument no point is yet. -/
def readyEncoder : RequestEncoder :=
  Operation.performAll (Session.plainOpenings.map .opened)
    (Session.plainFormat.start smallBuffer)

theorem inUse_readyEncoder : InUse Session.plainFormat smallBuffer readyEncoder :=
  InUse.started.performAll _

theorem hasPlaceFor_readyEncoder (hpoint : point.isValid = true)
    (hlength : (encodeAll point.fields).length ≤ 68) : readyEncoder.HasPlaceFor point := by
  have hplace : readyEncoder.depth = Level.dataPoint ∧ readyEncoder.buffer.cursor = 28 := by
    decide +kernel
  refine ⟨hpoint, ?_, ?_⟩
  · rw [hplace.1]
    decide
  · have hwidth : Slot.messageWidth = 4 := rfl
    rw [(inUse_readyEncoder.openTo capacity_smallBuffer_le).2, capacity_smallBuffer, hplace.2,
      length_encodeAll_pointField, hwidth]
    omega

/-- A whole number of seconds after the epoch. -/
def secondsAfter (seconds : Int64) : Time := { Time.epoch with seconds }

/-- From before the epoch to past the last nanosecond of 64 bits, with a signaling pattern,
attributes without a value, and a zero threshold of negative sign. -/
def extremePoints : List DataPoint :=
  [.number ⟨[⟨"gone", .null⟩, ⟨"", .int (-1)⟩], secondsAfter (-1), secondsAfter 18446744074,
      .double ⟨0x7ff0000000000001⟩, []⟩,
    .histogram ⟨[], secondsAfter (-1), secondsAfter 18446744074, 0xffffffffffffffff, none, [1], [],
      none, none, [⟨[⟨"gone", .null⟩], secondsAfter (-1), .int (-1), none, none⟩]⟩,
    .exponential ⟨[⟨"gone", .null⟩], secondsAfter (-1), secondsAfter 18446744074, 3, none, -10, 1,
      ⟨-3, []⟩, ⟨0, []⟩, none, some .zero, ⟨0x8000000000000000⟩⟩]

theorem conveys_extremePoints : extremePoints.Forall fun point => ∃ after content,
    emit point readyEncoder = .ok () after ∧
      Wire.read (after.payload.data.toList.drop readyEncoder.payload.size) =
        some [(1, .bytes content)] ∧ point.ArrivesIn content := by
  rw [List.forall_iff_forall_mem]
  intro point hmem
  have hfits : ∀ point ∈ extremePoints,
      point.isValid = true ∧ (encodeAll point.fields).length ≤ 68 := by
    decide +kernel
  obtain ⟨hpoint, hlength⟩ := hfits point hmem
  have hplace := hasPlaceFor_readyEncoder hpoint hlength
  have hroom := hplace.room
  rw [length_encodeAll_pointField] at hroom
  have hformed : ¬ point.Malformed := by
    rw [← DataPoint.isValid_eq_false_iff, hpoint]
    exact Bool.noConfusion
  have hconveys := conveys_of_inUse capacity_smallBuffer_le inUse_readyEncoder point
  obtain ⟨after, hrun⟩ := hconveys.ok_of_not_malformed hformed hplace.depth_lt hroom
  obtain ⟨content, hread, harrives⟩ := hconveys.arrivesIn_of_ok after hrun
  exact ⟨after, content, hrun, hread, harrives⟩

/-- A histogram without buckets has a bound too many, and is written all the same. -/
theorem not_forall_ok_not_mismatched :
    ¬ ∀ (format : RequestFormat) (buffer : Buffer) (encoder after : RequestEncoder)
        (point : DataPoint), buffer.capacity ≤ maxPayloadSize → InUse format buffer encoder →
      emit point encoder = .ok () after → ¬ point.Mismatched := by
  intro hnever
  have hplace : readyEncoder.HasPlaceFor (.histogram (MetricExporter.histogramPoint [])) :=
    hasPlaceFor_readyEncoder rfl (by decide +kernel)
  have hmismatched : (MetricExporter.histogramPoint []).counts.length ≠
      (MetricExporter.histogramPoint []).bounds.length + 1 := by
    decide
  obtain ⟨after, hrun, -⟩ :=
    hplace.exists_emit (inUse_readyEncoder.openTo capacity_smallBuffer_le).1
  exact hnever _ _ _ after _ capacity_smallBuffer_le inUse_readyEncoder hrun hmismatched

end RequestEncoder

end TelemetryExport
