import TelemetryExport.Proofs.Metric.Fields
import TelemetryExport.Proofs.Protobuf.OpenMessages

/-! # Requests in the making

`Drafts` relates the state of an encoder to the fields written so far and the
messages open at their end; `Completes` says moreover that every header is right,
so that the bytes are what they stand for. Opening a message keeps the first,
writing a point establishes the second, and closing a message keeps the second:
its header is right already. Where an operation fails, everything that was encoded
before it is still there.
-/

namespace TelemetryExport

open Encode WrittenField OpenMessage

namespace RequestEncoder

/-- The open messages are the fields that the patching of headers takes them for. -/
def NumberedFrom (instrument : Option Instrument) : Nat → List OpenMessage → Prop
  | _, [] => True
  | level, inner :: deeper =>
      inner.number = fieldAt instrument level ∧ NumberedFrom instrument (level + 1) deeper

/-- The encoder holds the fields and the messages open at their end. -/
structure Drafts (encoder : RequestEncoder) (fields : List WrittenField)
    (opens : List OpenMessage) : Prop where
  valid : encoder.buffer.Valid
  laid : Laid fields opens encoder.buffer.bytes
  slots : encoder.levels.toList = slotsFrom 0 fields opens
  numbers : NumberedFrom encoder.instrument 0 opens

/-- The encoder holds the fields and the open messages with all headers right. -/
structure Completes (encoder : RequestEncoder) (fields : List WrittenField)
    (opens : List OpenMessage) : Prop extends Drafts encoder fields opens where
  bytes_eq : encoder.buffer.bytes = encodeAll (content fields opens)

/-- Everything that was encoded before is still there. -/
structure Keeps (before after : RequestEncoder) : Prop where
  resource_eq : after.resource = before.resource
  extends_buffer : before.buffer.Extends after.buffer

/-! ## Numbers and lengths -/

theorem numberedFrom_grow (more : List WrittenField) {instrument : Option Instrument}
    {level : Nat} {fields : List WrittenField} {opens : List OpenMessage}
    (hnumbers : NumberedFrom instrument level opens) :
    NumberedFrom instrument level (grow more fields opens).2 := by
  induction opens generalizing level fields with
  | nil => exact trivial
  | cons inner deeper ih => exact ⟨hnumbers.1, ih hnumbers.2⟩

theorem numberedFrom_close {instrument : Option Instrument} {level : Nat} (depth : Nat)
    (fields : List WrittenField) {opens : List OpenMessage}
    (hnumbers : NumberedFrom instrument level opens) :
    NumberedFrom instrument level (close depth fields opens).2 := by
  induction depth generalizing level fields opens with
  | zero => exact trivial
  | succ depth ih =>
      cases opens with
      | nil => exact trivial
      | cons inner deeper => exact ⟨hnumbers.1, ih _ hnumbers.2⟩

theorem numberedFrom_opened {instrument : Option Instrument} {level : Nat}
    {opens : List OpenMessage} (fields : List WrittenField)
    (hnumbers : NumberedFrom instrument level opens) :
    NumberedFrom instrument level
      (opens ++ [⟨fieldAt instrument (level + opens.length), fields⟩]) := by
  induction opens generalizing level with
  | nil => exact ⟨rfl, trivial⟩
  | cons inner deeper ih =>
      refine ⟨hnumbers.1, ?_⟩
      have hlength : level + (inner :: deeper).length = level + 1 + deeper.length := by
        rw [List.length_cons]
        omega
      rw [hlength]
      exact ih hnumbers.2

/-- Only the number of the instrument's message depends on the instrument. -/
theorem fieldAt_congr {level : Nat} (hlevel : level ≠ Level.instrument)
    (instrument other : Option Instrument) : fieldAt instrument level = fieldAt other level := by
  simp only [fieldAt, if_neg hlevel]

theorem numberedFrom_congr {instrument : Option Instrument} (other : Option Instrument)
    {level : Nat} {opens : List OpenMessage} (hlevel : level + opens.length ≤ Level.instrument)
    (hnumbers : NumberedFrom instrument level opens) : NumberedFrom other level opens := by
  induction opens generalizing level with
  | nil => exact trivial
  | cons inner deeper ih =>
      rw [List.length_cons] at hlevel
      refine ⟨hnumbers.1.trans (fieldAt_congr (by omega) _ _), ih (by omega) hnumbers.2⟩

/-- Closing an instrument's message forgets the instrument, and closing messages inside it
does not. -/
theorem numberedFrom_closed {instrument : Option Instrument} {opens : List OpenMessage}
    (depth : Nat) (fields : List WrittenField) (hnumbers : NumberedFrom instrument 0 opens) :
    NumberedFrom (if depth ≤ Level.instrument then none else instrument) 0
      (close depth fields opens).2 := by
  have hclosed := numberedFrom_close depth fields hnumbers
  by_cases hinstrument : depth ≤ Level.instrument
  · rw [if_pos hinstrument]
    refine numberedFrom_congr _ ?_ hclosed
    rw [length_close]
    omega
  · rw [if_neg hinstrument]
    exact hclosed

namespace Drafts

variable {encoder : RequestEncoder} {fields : List WrittenField} {opens : List OpenMessage}

/-- The cursor is as far as the content is long. -/
theorem cursor_eq (hdrafts : Drafts encoder fields opens) :
    encoder.buffer.cursor = (encodeAll (content fields opens)).length := by
  rw [← Buffer.length_bytes hdrafts.valid, hdrafts.laid.length_eq]

theorem depth_eq (hdrafts : Drafts encoder fields opens) : encoder.depth = opens.length := by
  rw [depth, ← SlotStack.length_toList, hdrafts.slots, length_slotsFrom]

theorem length_content_le (hdrafts : Drafts encoder fields opens) :
    (encodeAll (content fields opens)).length ≤ maxPayloadSize := by
  rw [← hdrafts.cursor_eq]
  exact Nat.le_trans hdrafts.valid.cursor_le hdrafts.valid.capacity_le

end Drafts

theorem length_content_grow (more : List WrittenField) (fields : List WrittenField)
    (opens : List OpenMessage) :
    (encodeAll (content (grow more fields opens).1 (grow more fields opens).2)).length =
      (encodeAll (content fields opens)).length + (encodeAll more).length := by
  rw [← ((laid_content fields opens).grow more).length_eq, List.length_append]

theorem length_content_opened (number : Nat) (more fields : List WrittenField)
    (opens : List OpenMessage) :
    (encodeAll (content fields (opens ++ [⟨number, more⟩]))).length =
      (encodeAll (content fields opens)).length +
        (Slot.messageWidth + (encodeAll more).length) := by
  rw [← content_grow_message, length_content_grow, encodeAll_singleton, encode,
    List.length_append, length_messageHeader]

/-! ## Opening a message -/

variable {encoder : RequestEncoder} {fields : List WrittenField} {opens : List OpenMessage}

theorem onBuffer_of_ok {α : Type} {action : Encode α} {result : α} {buffer : Buffer}
    (haction : action encoder.buffer = .ok result buffer) :
    onBuffer action encoder = .ok result { encoder with buffer } := by
  simp only [onBuffer, haction]

theorem onBuffer_of_error {α : Type} {action : Encode α} {fault : EncodeError} {buffer : Buffer}
    (haction : action encoder.buffer = .error fault buffer) :
    onBuffer action encoder = .error fault { encoder with buffer } := by
  simp only [onBuffer, haction]

theorem openLevel_of_le (encoder : RequestEncoder) (hdepth : encoder.levels.depth < Level.count)
    (hroom : encoder.buffer.cursor + Slot.messageWidth ≤ encoder.buffer.capacity) :
    ∃ levels : SlotStack Level.count,
      openLevel encoder =
        .ok () { encoder with buffer := encoder.buffer.skip Slot.messageWidth, levels } ∧
      levels.toList = encoder.levels.toList ++
        [⟨encoder.buffer.cursor, encoder.buffer.cursor + Slot.messageWidth⟩] := by
  obtain ⟨levels, hpush, hlist⟩ := SlotStack.toList_push
    ⟨encoder.buffer.cursor, encoder.buffer.cursor + Slot.messageWidth⟩ hdepth
  refine ⟨levels, ?_, hlist⟩
  have hreserve : reserveMessage encoder.buffer = .ok _ _ := reserve_of_le hroom
  rw [openLevel, bind_of_ok (onBuffer_of_ok hreserve)]
  simp only [pushLevel, hpush]

theorem openLevel_of_lt (encoder : RequestEncoder)
    (hroom : encoder.buffer.capacity < encoder.buffer.cursor + Slot.messageWidth) :
    openLevel encoder =
      .error (.bufferOverflow encoder.buffer.cursor Slot.messageWidth encoder.buffer.capacity)
        encoder := by
  have hreserve : reserveMessage encoder.buffer = .error _ _ := reserve_of_lt hroom
  exact bind_of_error (onBuffer_of_error hreserve)

/-- A message whose header and first fields fit is opened, whatever instrument it sets. -/
theorem Drafts.opened (hdrafts : Drafts encoder fields opens) {action : Encode Unit}
    {more : List WrittenField} (hwrites : WritesFields action more)
    (instrument : Option Instrument) (hinstrument : opens.length ≤ Level.instrument)
    (hroom : (encodeAll (content fields (opens ++
      [⟨fieldAt instrument opens.length, more⟩]))).length ≤ encoder.buffer.capacity) :
    ∃ levels after,
      openLevel encoder =
        .ok () { encoder with buffer := encoder.buffer.skip Slot.messageWidth, levels } ∧
      action (encoder.buffer.skip Slot.messageWidth) = .ok () after ∧
      encoder.buffer.Extends after ∧
      Drafts ⟨after, encoder.resource, levels, instrument⟩ fields
        (opens ++ [⟨fieldAt instrument opens.length, more⟩]) := by
  rw [length_content_opened, ← hdrafts.cursor_eq] at hroom
  have hdepth := hdrafts.depth_eq
  have hskip : encoder.buffer.cursor + Slot.messageWidth ≤ encoder.buffer.capacity := by omega
  obtain ⟨levels, hopen, hlist⟩ := openLevel_of_le encoder
    (by change encoder.depth < 5; change opens.length ≤ 3 at hinstrument; omega) hskip
  have hskipped := Buffer.skip_extends hskip
  have hvalid := hskipped.valid hdrafts.valid
  have hfits := Buffer.skip_room hroom
  obtain ⟨header, hheader, hbytes⟩ := Buffer.bytes_append_skip hroom
  refine ⟨levels, _, hopen, hwrites.appends _ hvalid hfits,
    hskipped.trans (Buffer.extends_append hfits), ?_⟩
  constructor
  · exact Buffer.append_valid hvalid hfits
  · change Laid fields _ ((encoder.buffer.skip Slot.messageWidth).append (encodeAll more)).bytes
    rw [hbytes]
    exact hdrafts.laid.opened more hheader
  · change levels.toList = _
    rw [hlist, hdrafts.slots, slotsFrom_opened, Nat.zero_add, hdrafts.cursor_eq]
  · -- The messages open so far lie above the instrument's and keep their numbers.
    have hnumbers := numberedFrom_opened more
      (numberedFrom_congr instrument (by omega) hdrafts.numbers)
    rw [Nat.zero_add] at hnumbers
    exact hnumbers

/-- The operation opens a message, sets the instrument and runs the action. -/
structure OpensWith (operation : EncodeRequest Unit) (encoder : RequestEncoder)
    (action : Encode Unit) (instrument : Option Instrument) : Prop where
  of_ok : ∀ buffer levels, openLevel encoder = .ok () { encoder with buffer, levels } →
    operation encoder = onBuffer action ⟨buffer, encoder.resource, levels, instrument⟩
  of_error : ∀ fault left, openLevel encoder = .error fault left →
    operation encoder = .error fault left

theorem opensWith_beginResource (encoder : RequestEncoder) :
    OpensWith beginResource encoder (Encode.write encoder.resource) encoder.instrument where
  of_ok := fun _ _ hopen => bind_of_ok hopen
  of_error := fun _ _ hopen => bind_of_error hopen

theorem opensWith_beginScope (scope : Scope) (encoder : RequestEncoder) :
    OpensWith (beginScope scope) encoder (writeScope scope) encoder.instrument where
  of_ok := fun _ _ hopen => bind_of_ok hopen
  of_error := fun _ _ hopen => bind_of_error hopen

theorem opensWith_beginMetric (metric : Metric) (encoder : RequestEncoder) :
    OpensWith (beginMetric metric) encoder (writeMetricHeader metric) encoder.instrument where
  of_ok := fun _ _ hopen => bind_of_ok hopen
  of_error := fun _ _ hopen => bind_of_error hopen

theorem opensWith_beginInstrument (data : MetricData) (encoder : RequestEncoder) :
    OpensWith (beginInstrument data) encoder (writeInstrumentHeader data)
      (some (Instrument.ofData data)) where
  of_ok := fun _ _ hopen => bind_of_ok hopen
  of_error := fun _ _ hopen => bind_of_error hopen

/-- A message whose header and first fields fit is opened. -/
theorem Drafts.begin_of_le (hdrafts : Drafts encoder fields opens)
    {operation : EncodeRequest Unit} {action : Encode Unit} {instrument : Option Instrument}
    (hopens : OpensWith operation encoder action instrument) {more : List WrittenField}
    (hwrites : WritesFields action more) (hinstrument : opens.length ≤ Level.instrument)
    (hroom : (encodeAll (content fields (opens ++
      [⟨fieldAt instrument opens.length, more⟩]))).length ≤ encoder.buffer.capacity) :
    ∃ after, operation encoder = .ok () after ∧ Keeps encoder after ∧
      after.instrument = instrument ∧
      Drafts after fields (opens ++ [⟨fieldAt instrument opens.length, more⟩]) := by
  obtain ⟨levels, buffer, hopen, haction, hextends, hopened⟩ :=
    hdrafts.opened hwrites instrument hinstrument hroom
  refine ⟨⟨buffer, encoder.resource, levels, instrument⟩, ?_, ⟨rfl, hextends⟩, rfl, hopened⟩
  rw [hopens.of_ok _ _ hopen]
  simp only [onBuffer, haction]

/-- An opening that does not fit overflows, in the header or behind it. -/
theorem Drafts.begin_of_lt (hdrafts : Drafts encoder fields opens)
    {operation : EncodeRequest Unit} {action : Encode Unit} {instrument : Option Instrument}
    (hopens : OpensWith operation encoder action instrument) {more : List WrittenField}
    (hwrites : WritesFields action more) (hinstrument : opens.length ≤ Level.instrument)
    (hroom : encoder.buffer.capacity < (encodeAll (content fields (opens ++
      [⟨fieldAt instrument opens.length, more⟩]))).length) :
    ∃ fault left, operation encoder = .error fault left ∧ fault.isOverflow = true ∧
      Keeps encoder left := by
  rw [length_content_opened, ← hdrafts.cursor_eq] at hroom
  -- Either the header fits and the fields behind it do not, or not even the header does.
  by_cases hskip : encoder.buffer.cursor + Slot.messageWidth ≤ encoder.buffer.capacity
  · have hdepth := hdrafts.depth_eq
    obtain ⟨levels, hopen, -⟩ := openLevel_of_le encoder
      (by change encoder.depth < 5; change opens.length ≤ 3 at hinstrument; omega) hskip
    have hskipped := Buffer.skip_extends hskip
    obtain ⟨offset, requested, left, hfault, hextends, -⟩ :=
      hwrites.overflows (encoder.buffer.skip Slot.messageWidth) (hskipped.valid hdrafts.valid) (by
        rw [Buffer.cursor_skip, Buffer.capacity_skip]
        omega)
    have hrun : operation encoder =
        .error (.bufferOverflow offset requested encoder.buffer.capacity)
          ⟨left, encoder.resource, levels, instrument⟩ := by
      rw [hopens.of_ok _ _ hopen]
      simp only [onBuffer, hfault]
      rfl
    exact ⟨_, _, hrun, rfl, rfl, hskipped.trans hextends⟩
  · have hopen := openLevel_of_lt encoder (Nat.lt_of_not_le hskip)
    refine ⟨_, encoder, hopens.of_error _ _ hopen, rfl, rfl, hdrafts.valid.extends_self⟩

/-- Where an opening succeeded, the message was opened. -/
theorem Drafts.begin_of_ok (hdrafts : Drafts encoder fields opens)
    {operation : EncodeRequest Unit} {action : Encode Unit} {instrument : Option Instrument}
    (hopens : OpensWith operation encoder action instrument) {more : List WrittenField}
    (hwrites : WritesFields action more) (hinstrument : opens.length ≤ Level.instrument)
    {after : RequestEncoder} (hrun : operation encoder = .ok () after) :
    Keeps encoder after ∧ after.instrument = instrument ∧
      Drafts after fields (opens ++ [⟨fieldAt instrument opens.length, more⟩]) := by
  by_cases hroom : (encodeAll (content fields (opens ++
      [⟨fieldAt instrument opens.length, more⟩]))).length ≤ encoder.buffer.capacity
  · obtain ⟨opened, hok, hopened⟩ := hdrafts.begin_of_le hopens hwrites hinstrument hroom
    rw [hrun] at hok
    cases hok
    exact hopened
  · obtain ⟨fault, left, herror, -⟩ :=
      hdrafts.begin_of_lt hopens hwrites hinstrument (Nat.lt_of_not_le hroom)
    rw [hrun] at herror
    cases herror

/-- Where an opening failed, nothing that was there before was touched. -/
theorem Drafts.begin_of_error (hdrafts : Drafts encoder fields opens)
    {operation : EncodeRequest Unit} {action : Encode Unit} {instrument : Option Instrument}
    (hopens : OpensWith operation encoder action instrument) {more : List WrittenField}
    (hwrites : WritesFields action more) (hinstrument : opens.length ≤ Level.instrument)
    {fault : EncodeError} {left : RequestEncoder} (hrun : operation encoder = .error fault left) :
    Keeps encoder left := by
  by_cases hroom : (encodeAll (content fields (opens ++
      [⟨fieldAt instrument opens.length, more⟩]))).length ≤ encoder.buffer.capacity
  · obtain ⟨opened, hok, -⟩ := hdrafts.begin_of_le hopens hwrites hinstrument hroom
    rw [hrun] at hok
    cases hok
  · obtain ⟨_, _, herror, -, hkeeps⟩ :=
      hdrafts.begin_of_lt hopens hwrites hinstrument (Nat.lt_of_not_le hroom)
    rw [hrun] at herror
    cases herror
    exact hkeeps

/-! ## Writing a point -/

/-- Patching the headers of all open messages, whatever they held, makes them right. -/
theorem patchFrom_of_laid (instrument : Option Instrument) {level : Nat}
    {fields : List WrittenField} {opens : List OpenMessage} {before bytes : List UInt8}
    {buffer : Buffer} (hvalid : buffer.Valid) (hbytes : buffer.bytes = before ++ bytes)
    (hlaid : Laid fields opens bytes) (hnumbers : NumberedFrom instrument level opens) :
    ∃ after, patchFrom instrument level (slotsFrom before.length fields opens) buffer =
        .ok () after ∧
      after.Valid ∧ after.capacity = buffer.capacity ∧
      after.bytes = before ++ encodeAll (content fields opens) := by
  -- The outermost header is patched first. What stands before it then includes the fields of
  -- the message around it, so that the stretch before the rest is generalized.
  induction hlaid generalizing level before buffer with
  | innermost fields => exact ⟨buffer, rfl, hvalid, rfl, hbytes⟩
  | @nested fields inner deeper header bytes hheader hbelow ih =>
      have hsplit : buffer.bytes = (before ++ encodeAll fields) ++ (header ++ bytes) := by
        rw [hbytes, List.append_assoc]
      have hlength : buffer.cursor = (before ++ encodeAll fields).length + Slot.messageWidth +
          bytes.length := by
        have hcursor := Buffer.length_bytes hvalid
        rw [hsplit] at hcursor
        simp only [List.length_append, hheader] at hcursor ⊢
        omega
      have hstart : before.length + (encodeAll fields).length =
          (before ++ encodeAll fields).length := by
        rw [List.length_append]
      have hpatch : Encode.patchMessage ⟨(before ++ encodeAll fields).length,
          (before ++ encodeAll fields).length + Slot.messageWidth⟩ (fieldAt instrument level)
            buffer = .ok () _ :=
        patchMessage_eq hvalid hlength
      have hroom : (before ++ encodeAll fields).length +
          (Slot.messageHeader (fieldAt instrument level) bytes.length).length ≤ buffer.cursor := by
        change _ + Slot.messageWidth ≤ _
        omega
      have hwidth : (Slot.messageHeader (fieldAt instrument level) bytes.length).length =
          header.length :=
        hheader.symm
      have hpatched := Buffer.bytes_patch hvalid hsplit hwidth
      rw [← List.append_assoc] at hpatched
      obtain ⟨after, hafter, hafterValid, hcapacity, hafterBytes⟩ :=
        ih (Buffer.patch_valid hvalid hroom) hpatched hnumbers.2
      refine ⟨after, ?_, hafterValid, ?_, ?_⟩
      · rw [slotsFrom, patchFrom, hstart]
        rw [Encode.bind_of_ok hpatch]
        rw [List.length_append] at hafter
        exact hafter
      · rw [hcapacity]
        exact Buffer.capacity_patch (Nat.le_trans hroom hvalid.cursor_le)
      · rw [hafterBytes, content_cons, encodeAll_append, encodeAll_singleton, encode,
          hbelow.length_eq, hnumbers.1]
        simp only [List.append_assoc]

/-- Filling in the headers of the messages that are open completes the request. -/
theorem Drafts.patched (hdrafts : Drafts encoder fields opens) :
    ∃ after, patchLevels encoder = .ok () after ∧ Completes after fields opens ∧
      after.resource = encoder.resource ∧ after.instrument = encoder.instrument ∧
      after.buffer.capacity = encoder.buffer.capacity := by
  obtain ⟨buffer, hpatch, hvalid, hcapacity, hbytes⟩ :=
    patchFrom_of_laid encoder.instrument hdrafts.valid (List.nil_append _).symm hdrafts.laid
      hdrafts.numbers
  rw [List.length_nil, ← hdrafts.slots] at hpatch
  rw [List.nil_append] at hbytes
  refine ⟨{ encoder with buffer }, onBuffer_of_ok hpatch, ?_, rfl, rfl, hcapacity⟩
  refine ⟨⟨hvalid, ?_, hdrafts.slots, hdrafts.numbers⟩, hbytes⟩
  change Laid fields opens buffer.bytes
  rw [hbytes]
  exact laid_content fields opens

/-- The field of its instrument that a point is. -/
def pointField (point : DataPoint) : WrittenField :=
  .message Schema.Instrument.dataPoints (encodeAll point.fields)

theorem length_encodeAll_pointField (point : DataPoint) :
    (encodeAll [pointField point]).length =
      Slot.messageWidth + (encodeAll point.fields).length := by
  simp [pointField, encode]

/-- A message whose header is filled in behind its content is one that was stored. -/
theorem patchMessage_append_skip {buffer : Buffer} (hvalid : buffer.Valid) (number : Nat)
    {bytes : List UInt8}
    (hroom : buffer.cursor + (Slot.messageWidth + bytes.length) ≤ buffer.capacity) :
    Encode.patchMessage ⟨buffer.cursor, buffer.cursor + Slot.messageWidth⟩ number
        ((buffer.skip Slot.messageWidth).append bytes) =
      .ok () (buffer.append (encode (.message number bytes))) := by
  have hskip : buffer.cursor + Slot.messageWidth ≤ buffer.capacity := by omega
  have hskipped := (Buffer.skip_extends hskip).valid hvalid
  have happended := Buffer.append_valid hskipped (Buffer.skip_room hroom)
  rw [patchMessage_eq happended (Buffer.cursor_append _ _),
    Buffer.patch_append_skip (length_messageHeader _ _), encode]
  rw [List.length_append, length_messageHeader]
  exact hroom

/-- The header of a point's message is filled in while the point is still open. -/
theorem emit_eq (hvalid : encoder.buffer.Valid) {point : DataPoint}
    (hpoint : point.isValid = true) (hdepth : encoder.levels.depth < Level.count)
    (hroom : encoder.buffer.cursor + (encodeAll [pointField point]).length ≤
      encoder.buffer.capacity) :
    ∃ levels : SlotStack Level.count, levels.toList = encoder.levels.toList ∧
      emit point encoder = patchLevels
        { encoder with
          buffer := encoder.buffer.append (encodeAll [pointField point]), levels } := by
  rw [length_encodeAll_pointField] at hroom
  have hskip : encoder.buffer.cursor + Slot.messageWidth ≤ encoder.buffer.capacity := by omega
  obtain ⟨opened, hopen, hlist⟩ := openLevel_of_le encoder hdepth hskip
  have hskipped := (Buffer.skip_extends hskip).valid hvalid
  have hwrite := (DataPoint.writesFields hpoint).appends _ hskipped (Buffer.skip_room hroom)
  obtain ⟨popped, hpop, hpopped⟩ := SlotStack.pop_of_toList hlist
  have hpopLevel : popLevel ⟨(encoder.buffer.skip Slot.messageWidth).append
      (encodeAll point.fields), encoder.resource, opened, encoder.instrument⟩ =
        .ok (some ⟨encoder.buffer.cursor, encoder.buffer.cursor + Slot.messageWidth⟩)
          ⟨(encoder.buffer.skip Slot.messageWidth).append (encodeAll point.fields),
            encoder.resource, popped, encoder.instrument⟩ := by
    simp only [popLevel, hpop]
  have hpatch := patchMessage_append_skip hvalid Schema.Instrument.dataPoints hroom
  rw [← encodeAll_singleton] at hpatch
  refine ⟨popped, hpopped, ?_⟩
  -- The level of the point is taken off before the headers around it are filled in.
  rw [emit, bind_of_ok hopen, bind_of_ok (onBuffer_of_ok hwrite), bind_of_ok hpopLevel]
  exact bind_of_ok (onBuffer_of_ok hpatch)

/-- A point of the schema that fits is written into the innermost message, and the
request is complete. -/
theorem Drafts.emit_of_le (hdrafts : Drafts encoder fields opens) {point : DataPoint}
    (hpoint : point.isValid = true) (hdepth : opens.length < Level.count)
    (hroom : (encodeAll (content (grow [pointField point] fields opens).1
      (grow [pointField point] fields opens).2)).length ≤ encoder.buffer.capacity) :
    ∃ after, emit point encoder = .ok () after ∧
      Completes after (grow [pointField point] fields opens).1
        (grow [pointField point] fields opens).2 ∧
      after.resource = encoder.resource ∧ after.instrument = encoder.instrument ∧
      after.buffer.capacity = encoder.buffer.capacity := by
  rw [length_content_grow, ← hdrafts.cursor_eq] at hroom
  have hlevel := hdrafts.depth_eq
  obtain ⟨levels, hlevels, hemit⟩ := emit_eq hdrafts.valid hpoint
    (by change encoder.depth < Level.count; omega) hroom
  have hgrown : Drafts { encoder with
      buffer := encoder.buffer.append (encodeAll [pointField point]), levels }
      (grow [pointField point] fields opens).1 (grow [pointField point] fields opens).2 := by
    constructor
    · exact Buffer.append_valid hdrafts.valid hroom
    · change Laid _ _ (encoder.buffer.append (encodeAll [pointField point])).bytes
      rw [Buffer.bytes_append hroom]
      exact hdrafts.laid.grow _
    · change levels.toList = _
      rw [hlevels, hdrafts.slots, slotsFrom_grow]
    · exact numberedFrom_grow _ hdrafts.numbers
  obtain ⟨after, hafter, hcompletes, hresource, hinstrument, hcapacity⟩ := hgrown.patched
  refine ⟨after, hemit.trans hafter, hcompletes, hresource, hinstrument, ?_⟩
  rw [hcapacity]
  exact Buffer.capacity_append hroom

/-- A point that does not fit, or has no form in the schema, is not written. No header
was touched before that shows. -/
theorem Drafts.emit_error (hdrafts : Drafts encoder fields opens) {point : DataPoint}
    (hdepth : opens.length < Level.count)
    (hunfit : point.isValid = false ∨
      encoder.buffer.capacity < (encodeAll (content (grow [pointField point] fields opens).1
        (grow [pointField point] fields opens).2)).length) :
    ∃ fault left, emit point encoder = .error fault left ∧ Keeps encoder left ∧
      (fault.isOverflow = true ↔
        encoder.buffer.capacity < encoder.buffer.cursor + point.leading) := by
  rw [length_content_grow, ← hdrafts.cursor_eq, length_encodeAll_pointField] at hunfit
  -- Either the header of the point does not fit, or what is behind it fails.
  by_cases hskip : encoder.buffer.cursor + Slot.messageWidth ≤ encoder.buffer.capacity
  · have hlevels := hdrafts.depth_eq
    obtain ⟨levels, hopen, -⟩ := openLevel_of_le encoder
      (by change encoder.depth < Level.count; omega) hskip
    have hskipped := Buffer.skip_extends hskip
    have hvalid := hskipped.valid hdrafts.valid
    have hwrite : ∃ fault left,
        point.write (encoder.buffer.skip Slot.messageWidth) = .error fault left ∧
        (encoder.buffer.skip Slot.messageWidth).Extends left ∧
        (fault.isOverflow = true ↔
          encoder.buffer.capacity < encoder.buffer.cursor + point.leading) := by
      rw [DataPoint.leading]
      cases hpoint : point.isValid with
      | false =>
          obtain ⟨reason, hrefuses⟩ := DataPoint.refuses hpoint
          rw [if_neg Bool.false_ne_true]
          obtain ⟨fault, left, hfault, hextends, hoverflow⟩ := hrefuses.isOverflow_iff hvalid rfl
          refine ⟨fault, left, hfault, hextends, hoverflow.trans ?_⟩
          rw [Buffer.cursor_skip, Buffer.capacity_skip, Nat.add_assoc]
      | true =>
          rw [hpoint] at hunfit
          have hshort := hunfit.resolve_left (Bool.noConfusion ·)
          obtain ⟨offset, requested, left, hfault, hextends, -⟩ :=
            (DataPoint.writesFields hpoint).overflows _ hvalid (by
              rw [Buffer.cursor_skip, Buffer.capacity_skip]
              omega)
          rw [if_pos rfl]
          exact ⟨_, left, hfault, hextends, iff_of_true rfl hshort⟩
    obtain ⟨fault, left, hfault, hextends, hoverflow⟩ := hwrite
    refine ⟨fault, ⟨left, encoder.resource, levels, encoder.instrument⟩, ?_,
      ⟨rfl, hskipped.trans hextends⟩, hoverflow⟩
    rw [emit, bind_of_ok hopen]
    exact bind_of_error (onBuffer_of_error hfault)
  · have hopen := openLevel_of_lt encoder (Nat.lt_of_not_le hskip)
    refine ⟨_, encoder, bind_of_error hopen, ⟨rfl, hdrafts.valid.extends_self⟩, ?_⟩
    rw [DataPoint.leading]
    exact iff_of_true rfl (by omega)

/-- Where a point was written, it had a form in the schema and the request is complete. -/
theorem Drafts.emit_of_ok (hdrafts : Drafts encoder fields opens) {point : DataPoint}
    (hdepth : opens.length < Level.count) {after : RequestEncoder}
    (hrun : emit point encoder = .ok () after) :
    Completes after (grow [pointField point] fields opens).1
        (grow [pointField point] fields opens).2 ∧
      after.resource = encoder.resource ∧ after.instrument = encoder.instrument := by
  by_cases hunfit : point.isValid = false ∨
      encoder.buffer.capacity < (encodeAll (content (grow [pointField point] fields opens).1
        (grow [pointField point] fields opens).2)).length
  · obtain ⟨fault, left, herror, -⟩ := hdrafts.emit_error hdepth hunfit
    rw [hrun] at herror
    cases herror
  · rw [not_or, Bool.not_eq_false] at hunfit
    obtain ⟨written, hok, hcompletes, hresource, hinstrument, -⟩ :=
      hdrafts.emit_of_le hunfit.1 hdepth (Nat.le_of_not_lt hunfit.2)
    rw [hrun] at hok
    cases hok
    exact ⟨hcompletes, hresource, hinstrument⟩

/-- Where a point was not written, nothing that was there before was touched. -/
theorem Drafts.emit_of_error (hdrafts : Drafts encoder fields opens) {point : DataPoint}
    (hdepth : opens.length < Level.count) {fault : EncodeError} {left : RequestEncoder}
    (hrun : emit point encoder = .error fault left) : Keeps encoder left := by
  by_cases hunfit : point.isValid = false ∨
      encoder.buffer.capacity < (encodeAll (content (grow [pointField point] fields opens).1
        (grow [pointField point] fields opens).2)).length
  · obtain ⟨_, _, herror, hkeeps, -⟩ := hdrafts.emit_error hdepth hunfit
    rw [hrun] at herror
    cases herror
    exact hkeeps
  · rw [not_or, Bool.not_eq_false] at hunfit
    obtain ⟨written, hok, -⟩ :=
      hdrafts.emit_of_le hunfit.1 hdepth (Nat.le_of_not_lt hunfit.2)
    rw [hrun] at hok
    cases hok

/-! ## Closing and going back -/

/-- Closing messages that are not open changes nothing. -/
theorem Drafts.closeTo_of_le (hdrafts : Drafts encoder fields opens) {depth : Nat}
    (hdepth : opens.length ≤ depth) : Drafts (encoder.closeTo depth) fields opens where
  valid := hdrafts.valid
  laid := hdrafts.laid
  slots := by
    change (encoder.levels.truncate depth).toList = _
    rw [SlotStack.toList_truncate, hdrafts.slots]
    apply List.take_of_length_le
    rw [length_slotsFrom]
    exact hdepth
  numbers := by
    by_cases hinstrument : depth ≤ Level.instrument
    · exact numberedFrom_congr _ (by omega) hdrafts.numbers
    · change NumberedFrom (if _ then _ else _) 0 opens
      rw [if_neg hinstrument]
      exact hdrafts.numbers

/-- Messages whose headers are right become fields when they are closed. -/
theorem Completes.closeTo (hcompletes : Completes encoder fields opens) (depth : Nat) :
    Completes (encoder.closeTo depth) (close depth fields opens).1
      (close depth fields opens).2 := by
  have hbytes : (encoder.closeTo depth).buffer.bytes =
      encodeAll (content (close depth fields opens).1 (close depth fields opens).2) := by
    rw [content_close]
    exact hcompletes.bytes_eq
  refine ⟨⟨hcompletes.valid, ?_, ?_, numberedFrom_closed depth fields hcompletes.numbers⟩,
    hbytes⟩
  · rw [hbytes]
    exact laid_content _ _
  · change (encoder.levels.truncate depth).toList = _
    rw [SlotStack.toList_truncate, hcompletes.slots, slotsFrom_close]

/-- Taken back, an encoder is again in the state it was in, whatever was written since. -/
theorem Keeps.rewind {after : RequestEncoder} (hkeeps : Keeps encoder after)
    (hcompletes : Completes encoder fields opens) :
    Completes (after.rewind encoder.checkpoint) fields opens := by
  have hextends := hkeeps.extends_buffer
  have hbytes : (after.rewind encoder.checkpoint).buffer.bytes = encoder.buffer.bytes :=
    hextends.bytes_rewind
  refine ⟨⟨hextends.rewind_valid hcompletes.valid, ?_, hcompletes.slots, hcompletes.numbers⟩, ?_⟩
  · rw [hbytes]
    exact hcompletes.laid
  · rw [hbytes]
    exact hcompletes.bytes_eq

end RequestEncoder

end TelemetryExport
