import TelemetryExport.Proofs.Metric.Asserting
import TelemetryExport.Proofs.Metric.Session

/-! # Operations on requests

Messages are opened and closed and points are written in any order, at any place and with
any outcome. Whatever is done to an encoder, its open headers stay in their places, those
that were opened since a given state lie behind all that was written then, and only a point
that goes into one of the older messages touches what lies before.
-/

namespace TelemetryExport

open Encode WrittenField OpenMessage RequestEncoder

namespace Session

def succeeds (action : EncodeRequest Unit) (encoder : RequestEncoder) : Bool :=
  match action encoder with
  | .ok .. => true
  | .error .. => false

/-- The encoder after an operation, whether it succeeds or not. -/
def following (action : EncodeRequest Unit) (encoder : RequestEncoder) : RequestEncoder :=
  match action encoder with
  | .ok _ after => after
  | .error _ left => left

end Session

/-- Something that may be done to a request in the making, at any place. -/
inductive Operation where
  /-- Opens a message. -/
  | opened (opening : Opening)
  /-- Writes a point. -/
  | emitted (point : DataPoint)
  /-- Closes the messages at a depth and deeper. -/
  | closed (depth : Nat)

namespace Operation

/-- What the operation leaves, whether it succeeds or fails. -/
def perform (encoder : RequestEncoder) : Operation → RequestEncoder
  | opened opening => Session.following opening.run encoder
  | emitted point => Session.following (emit point) encoder
  | closed depth => encoder.closeTo depth

/-- How many of the outermost messages are still the same, if there were `kept` of them. -/
def keeping (kept : Nat) : Operation → Nat
  | closed depth => min depth kept
  | _ => kept

/-- Whether the operation writes a point while some of the outermost messages are still the
same. -/
def reaches (kept : Nat) (encoder : RequestEncoder) : Operation → Bool
  | emitted point => decide (0 < kept) && Session.succeeds (emit point) encoder
  | _ => false

/-- Performs operations one after the other. -/
def performAll (operations : List Operation) (encoder : RequestEncoder) : RequestEncoder :=
  operations.foldl perform encoder

/-- Whether some of the operations writes a point into one of the `kept` outermost messages
of an encoder. -/
def reachesAny : Nat → List Operation → RequestEncoder → Bool
  | _, [], _ => false
  | kept, operation :: rest, encoder =>
      operation.reaches kept encoder ||
        reachesAny (operation.keeping kept) rest (operation.perform encoder)

end Operation

/-! ## What one operation does -/

namespace Session

variable {action : EncodeRequest Unit} {encoder after : RequestEncoder}

theorem following_of_ok (hrun : action encoder = .ok () after) :
    following action encoder = after := by
  rw [following, hrun]

theorem following_of_error {fault : EncodeError} (hrun : action encoder = .error fault after) :
    following action encoder = after := by
  rw [following, hrun]

theorem succeeds_of_ok (hrun : action encoder = .ok () after) : succeeds action encoder = true := by
  rw [succeeds, hrun]

theorem succeeds_of_error {fault : EncodeError} (hrun : action encoder = .error fault after) :
    succeeds action encoder = false := by
  rw [succeeds, hrun]

end Session

namespace Encode

/-- Whatever comes of a computation that writes, what was encoded before is still there. -/
theorem Writes.extends_of_run {action : Encode Unit} {bytes : List UInt8}
    (hwrites : Writes action bytes ()) {buffer : Buffer} (hvalid : buffer.Valid) :
    (∃ after, action buffer = .ok () after ∧ buffer.Extends after) ∨
      ∃ fault left, action buffer = .error fault left ∧ buffer.Extends left := by
  cases hrun : action buffer with
  | ok result after =>
      obtain ⟨hroom, -, rfl⟩ := hwrites.of_ok hvalid hrun
      exact .inl ⟨_, rfl, Buffer.extends_append hroom⟩
  | error fault left => exact .inr ⟨fault, left, rfl, (hwrites.of_error hvalid hrun).2.2⟩

end Encode

/-- The writer behind each opening, whatever it writes. -/
theorem Opening.exists_writes (opening : Opening) (encoder : RequestEncoder) :
    ∃ action instrument bytes, OpensWith opening.run encoder action instrument ∧
      Writes action bytes () := by
  cases opening with
  | resource => exact ⟨_, _, _, opensWith_beginResource encoder, writes_write encoder.resource⟩
  | scope opened =>
      exact ⟨_, _, _, opensWith_beginScope opened encoder, writesFields_writeScope opened⟩
  | metric opened =>
      exact ⟨_, _, _, opensWith_beginMetric opened encoder, writesFields_writeMetricHeader opened⟩
  | instrument data =>
      exact ⟨_, _, _, opensWith_beginInstrument data encoder,
        writesFields_writeInstrumentHeader data⟩

namespace RequestEncoder

/-- Nothing that was written is touched, and headers that were opened lie behind it. -/
structure Leads (encoder after : RequestEncoder) : Prop where
  extends_buffer : encoder.buffer.Extends after.buffer
  exists_fresh : ∃ fresh, after.levels.toList = encoder.levels.toList ++ fresh ∧
    ∀ slot ∈ fresh, encoder.buffer.cursor ≤ slot.headerStart ∧ slot.Within after.buffer

variable {encoder after : RequestEncoder} {depth : Nat}

theorem leads_of_levels_eq (hextends : encoder.buffer.Extends after.buffer)
    (hlevels : after.levels.toList = encoder.levels.toList) : encoder.Leads after :=
  ⟨hextends, [], by rw [hlevels, List.append_nil], List.forall_mem_nil _⟩

/-- There is room for a header, but no place left among the open ones. -/
theorem openLevel_of_full (hdepth : Level.count ≤ encoder.levels.depth)
    (hroom : encoder.buffer.cursor + Slot.messageWidth ≤ encoder.buffer.capacity) :
    openLevel encoder = .error (.nestingTooDeep Level.count)
      { encoder with buffer := encoder.buffer.skip Slot.messageWidth } := by
  have hreserve : reserveMessage encoder.buffer = .ok _ _ := reserve_of_le hroom
  have hpush : ∀ slot, encoder.levels.push slot = .error (.nestingTooDeep Level.count) :=
    fun slot => dif_neg (Nat.not_lt_of_le hdepth)
  rw [openLevel, bind_of_ok (onBuffer_of_ok hreserve)]
  simp only [pushLevel, hpush]

/-- Opening a level fails and changes no level, or adds its header. -/
theorem leads_openLevel (hvalid : encoder.buffer.Valid) :
    (∃ fault left, openLevel encoder = .error fault left ∧ encoder.Leads left) ∨
      ∃ levels, openLevel encoder =
          .ok () { encoder with buffer := encoder.buffer.skip Slot.messageWidth, levels } ∧
        encoder.levels.depth < Level.count ∧
        encoder.buffer.cursor + Slot.messageWidth ≤ encoder.buffer.capacity ∧
        levels.toList = encoder.levels.toList ++
          [⟨encoder.buffer.cursor, encoder.buffer.cursor + Slot.messageWidth⟩] := by
  by_cases hroom : encoder.buffer.cursor + Slot.messageWidth ≤ encoder.buffer.capacity
  · by_cases hdepth : encoder.levels.depth < Level.count
    · obtain ⟨levels, hopen, hlist⟩ := openLevel_of_le encoder hdepth hroom
      exact .inr ⟨levels, hopen, hdepth, hroom, hlist⟩
    · exact .inl ⟨_, _, openLevel_of_full (Nat.le_of_not_lt hdepth) hroom,
        leads_of_levels_eq (Buffer.skip_extends hroom) rfl⟩
  · exact .inl ⟨_, encoder, openLevel_of_lt encoder (Nat.lt_of_not_le hroom),
      leads_of_levels_eq hvalid.extends_self rfl⟩

/-- What is done behind a level that was opened leaves its header in place. -/
theorem leads_of_extends_skip {levels : SlotStack Level.count} {buffer : Buffer}
    {resource : ByteArray} {instrument : Option Instrument}
    (hroom : encoder.buffer.cursor + Slot.messageWidth ≤ encoder.buffer.capacity)
    (hlist : levels.toList = encoder.levels.toList ++
      [⟨encoder.buffer.cursor, encoder.buffer.cursor + Slot.messageWidth⟩])
    (hextends : (encoder.buffer.skip Slot.messageWidth).Extends buffer) :
    encoder.Leads ⟨buffer, resource, levels, instrument⟩ := by
  refine ⟨(Buffer.skip_extends hroom).trans hextends, _, hlist, ?_⟩
  intro slot hmem
  rw [List.mem_singleton.mp hmem]
  exact ⟨Nat.le_refl _, rfl, hextends.cursor_le⟩

theorem leads_opening (hvalid : encoder.buffer.Valid) (opening : Opening) :
    encoder.Leads (Session.following opening.run encoder) := by
  obtain ⟨action, instrument, bytes, hopens, hwrites⟩ := opening.exists_writes encoder
  rcases leads_openLevel hvalid with ⟨fault, left, hopen, hleads⟩ |
    ⟨levels, hopen, -, hroom, hlist⟩
  · rw [Session.following_of_error (hopens.of_error _ _ hopen)]
    exact hleads
  · have hskipped := (Buffer.skip_extends hroom).valid hvalid
    have hopening := hopens.of_ok _ _ hopen
    rcases hwrites.extends_of_run hskipped with ⟨written, hrun, hextends⟩ |
      ⟨fault, left, hrun, hextends⟩
    · rw [Session.following_of_ok (hopening.trans (onBuffer_of_ok hrun))]
      exact leads_of_extends_skip hroom hlist hextends
    · rw [Session.following_of_error (hopening.trans (onBuffer_of_error hrun))]
      exact leads_of_extends_skip hroom hlist hextends

/-- A header in its place is filled in with the length of what is behind it. -/
theorem patchMessage_of_within {slot : Slot} {buffer : Buffer} (hvalid : buffer.Valid)
    (hwithin : slot.Within buffer) (field : Nat) :
    ∃ patched, patchMessage slot field buffer = .ok () patched ∧ patched.Valid ∧
      patched.capacity = buffer.capacity ∧ patched.cursor = buffer.cursor ∧
      patched.cells = buffer.cells.take slot.headerStart ++
        Slot.messageHeader field (buffer.cursor - slot.valueStart) ++
          buffer.cells.drop slot.valueStart := by
  have hroom := hwithin.valueStart_le
  have hwidth := hwithin.width_eq
  have hheader : slot.headerStart +
      (Slot.messageHeader field (buffer.cursor - slot.valueStart)).length = slot.valueStart := by
    rw [length_messageHeader, hwidth]
  have hcursor := hvalid.cursor_le
  refine ⟨_, patchMessage_eq hvalid (Nat.add_sub_of_le hroom).symm,
    Buffer.patch_valid hvalid (by omega), Buffer.capacity_patch (by omega), rfl, ?_⟩
  rw [Buffer.cells_patch, hheader]

/-- Headers stay in their places as long as the cursor does. -/
theorem within_of_cursor_eq {slots : List Slot} {buffer later : Buffer}
    (hwithin : ∀ slot ∈ slots, slot.Within buffer) (hcursor : later.cursor = buffer.cursor) :
    ∀ slot ∈ slots, slot.Within later := by
  intro slot hmem
  obtain ⟨hwidth, hroom⟩ := hwithin slot hmem
  exact ⟨hwidth, hcursor ▸ hroom⟩

/-- Headers in their places are all filled in, and nothing before them is touched. -/
theorem patchFrom_of_within (instrument : Option Instrument) (level : Nat) {slots : List Slot}
    {buffer : Buffer} (hvalid : buffer.Valid) (hwithin : ∀ slot ∈ slots, slot.Within buffer) :
    ∃ patched, patchFrom instrument level slots buffer = .ok () patched ∧ patched.Valid ∧
      patched.capacity = buffer.capacity ∧ patched.cursor = buffer.cursor ∧
      ∀ start, (∀ slot ∈ slots, start ≤ slot.headerStart) →
        patched.cells.take start = buffer.cells.take start := by
  induction slots generalizing level buffer with
  | nil => exact ⟨buffer, rfl, hvalid, rfl, rfl, fun _ _ => rfl⟩
  | cons slot deeper ih =>
      obtain ⟨hslot, hdeeper⟩ := List.forall_mem_cons.mp hwithin
      obtain ⟨middle, hpatch, hmiddle, hcapacity, hcursor, hcells⟩ :=
        patchMessage_of_within hvalid hslot (fieldAt instrument level)
      obtain ⟨patched, hrest, hpatched, hsame, hkept, htake⟩ :=
        ih (level + 1) hmiddle (within_of_cursor_eq hdeeper hcursor)
      refine ⟨patched, ?_, hpatched, hsame.trans hcapacity, hkept.trans hcursor, ?_⟩
      · rw [patchFrom, Encode.bind_of_ok hpatch]
        exact hrest
      · intro start hstart
        have hfirst := hstart slot List.mem_cons_self
        have hlength := Buffer.length_cells buffer
        have hbefore : start ≤ (buffer.cells.take slot.headerStart).length := by
          have hroom := hslot.valueStart_le
          have hwidth := hslot.width_eq
          have hle := hvalid.cursor_le
          rw [List.length_take]
          omega
        rw [htake start fun other hmem => hstart other (List.mem_cons_of_mem _ hmem), hcells,
          List.append_assoc, List.take_append_of_le_length hbefore, List.take_take,
          Nat.min_eq_left hfirst]

/-- Open headers are in their places also after more was written. -/
theorem OpenTo.within_of_extends (hopen : encoder.OpenTo depth) {buffer : Buffer}
    (hextends : encoder.buffer.Extends buffer) :
    ∀ slot ∈ encoder.levels.toList, slot.Within buffer := fun slot hmem =>
  (hopen.within slot hmem).of_precedes (hextends.precedes hopen.valid)

theorem patchLevels_of_ok {buffer : Buffer}
    (hpatch : patchFrom encoder.instrument 0 encoder.levels.toList encoder.buffer =
      .ok () buffer) : patchLevels encoder = .ok () { encoder with buffer } :=
  onBuffer_of_ok hpatch

/-- The point failed and touched nothing that was written before. -/
def FailsToEmit (encoder : RequestEncoder) (point : DataPoint) : Prop :=
  Session.succeeds (emit point) encoder = false ∧
    encoder.Leads (Session.following (emit point) encoder)

/-- The point was written, and then every header was filled in. -/
def Emits (encoder : RequestEncoder) (point : DataPoint) : Prop :=
  Session.succeeds (emit point) encoder = true ∧
    ∃ (written patched : Buffer) (levels : SlotStack Level.count),
      encoder.buffer.Extends written ∧ encoder.buffer.cursor < written.cursor ∧
      patchFrom encoder.instrument 0 encoder.levels.toList written = .ok () patched ∧
      levels.toList = encoder.levels.toList ∧
      Session.following (emit point) encoder = { encoder with buffer := patched, levels }

theorem failsToEmit_of_error {point : DataPoint} {fault : EncodeError} {left : RequestEncoder}
    (hrun : emit point encoder = .error fault left) (hleads : encoder.Leads left) :
    encoder.FailsToEmit point := by
  refine ⟨Session.succeeds_of_error hrun, ?_⟩
  rw [Session.following_of_error hrun]
  exact hleads

theorem emits_of_room (hopen : encoder.OpenTo depth) {point : DataPoint}
    (hpoint : point.isValid = true) (hdepth : encoder.levels.depth < Level.count)
    (hroom : encoder.buffer.cursor + (encodeAll [pointField point]).length ≤
      encoder.buffer.capacity) : encoder.Emits point := by
  obtain ⟨levels, hlevels, hemit⟩ := emit_eq hopen.valid hpoint hdepth hroom
  have hextends := Buffer.extends_append hroom
  obtain ⟨patched, hpatch, -⟩ := patchFrom_of_within encoder.instrument 0
    (hextends.valid hopen.valid) (hopen.within_of_extends hextends)
  have hrun : emit point encoder = .ok () { encoder with buffer := patched, levels } := by
    rw [hemit]
    apply patchLevels_of_ok
    rw [hlevels]
    exact hpatch
  refine ⟨Session.succeeds_of_ok hrun, _, patched, levels, hextends, ?_, hpatch, hlevels,
    Session.following_of_ok hrun⟩
  rw [Buffer.cursor_append, length_encodeAll_pointField]
  change _ < _ + (4 + _)
  omega

/-- One of the two happens to every point. -/
theorem emits_or_fails (hopen : encoder.OpenTo depth) (point : DataPoint) :
    encoder.Emits point ∨ encoder.FailsToEmit point := by
  rcases leads_openLevel hopen.valid with ⟨fault, left, hlevel, hleads⟩ |
    ⟨levels, hlevel, hdepth, hroom, hlist⟩
  · exact .inr (failsToEmit_of_error (bind_of_error hlevel) hleads)
  · have hskipped := (Buffer.skip_extends hroom).valid hopen.valid
    -- Behind its header the point is written, or it fails and stays half-written.
    have hhalf : ∀ fault left, point.write (encoder.buffer.skip Slot.messageWidth) =
        .error fault left → (encoder.buffer.skip Slot.messageWidth).Extends left →
        encoder.FailsToEmit point := by
      intro fault left hrun hextends
      have hemit : emit point encoder =
          .error fault ⟨left, encoder.resource, levels, encoder.instrument⟩ := by
        rw [emit, bind_of_ok hlevel]
        exact bind_of_error (onBuffer_of_error hrun)
      exact failsToEmit_of_error hemit (leads_of_extends_skip hroom hlist hextends)
    cases hpoint : point.isValid with
    | false =>
        obtain ⟨_, hrefuses⟩ := DataPoint.refuses hpoint
        obtain ⟨fault, left, hrun, hextends⟩ := hrefuses.of_run hskipped
        exact .inr (hhalf fault left hrun hextends)
    | true =>
        have hwrites := DataPoint.writesFields hpoint
        rcases hwrites.extends_of_run hskipped with ⟨after, hrun, -⟩ |
          ⟨fault, left, hrun, hextends⟩
        · have hfits := (hwrites.of_ok hskipped hrun).1
          rw [Buffer.cursor_skip, Buffer.capacity_skip] at hfits
          refine .inl (emits_of_room hopen hpoint hdepth ?_)
          rw [length_encodeAll_pointField]
          omega
        · exact .inr (hhalf fault left hrun hextends)

end RequestEncoder

/-! ## What operations in a row leave -/

theorem Buffer.Extends.take_cells_of_le {earlier later : Buffer}
    (hextends : earlier.Extends later) {count : Nat} (hcount : count ≤ earlier.cursor) :
    later.cells.take count = earlier.cells.take count := by
  have htake := congrArg (List.take count) hextends.take_cells
  rw [Buffer.bytes, List.take_take, List.take_take, Nat.min_eq_left hcount] at htake
  exact htake

namespace RequestEncoder

theorem OpenTo.of_leads {encoder after : RequestEncoder} {depth : Nat}
    (hopen : encoder.OpenTo depth) (hleads : encoder.Leads after) : after.OpenTo after.depth := by
  obtain ⟨hextends, fresh, hlevels, hfresh⟩ := hleads
  refine ⟨hextends.valid hopen.valid, rfl, fun slot hmem => ?_⟩
  rw [hlevels] at hmem
  rcases List.mem_append.mp hmem with hmem | hmem
  · exact hopen.within_of_extends hextends slot hmem
  · exact (hfresh slot hmem).2

/-- What holds of an encoder after operations on another one, of whose open messages the
`kept` outermost are still the same. All other headers lie behind what was written then. -/
structure Since (base : RequestEncoder) (kept : Nat) (later : RequestEncoder) : Prop where
  openTo : later.OpenTo later.depth
  capacity_eq : later.buffer.capacity = base.buffer.capacity
  cursor_le : base.buffer.cursor ≤ later.buffer.cursor
  exists_fresh : ∃ fresh, later.levels.toList = base.levels.toList.take kept ++ fresh ∧
    ∀ slot ∈ fresh, base.buffer.cursor ≤ slot.headerStart

variable {base later after : RequestEncoder} {kept depth : Nat}

theorem since_self (hopen : base.OpenTo depth) : Since base base.depth base where
  openTo := ⟨hopen.valid, rfl, hopen.within⟩
  capacity_eq := rfl
  cursor_le := Nat.le_refl _
  exists_fresh := by
    refine ⟨[], ?_, List.forall_mem_nil _⟩
    rw [List.append_nil, RequestEncoder.depth, ← SlotStack.length_toList, List.take_length]

namespace Since

theorem of_leads (hsince : Since base kept later) (hleads : later.Leads after) :
    Since base kept after := by
  have hextends := hleads.extends_buffer
  refine ⟨hsince.openTo.of_leads hleads, hextends.capacity_eq.trans hsince.capacity_eq,
    Nat.le_trans hsince.cursor_le hextends.cursor_le, ?_⟩
  obtain ⟨fresh, hlevels, hfresh⟩ := hsince.exists_fresh
  obtain ⟨more, hmore, hfirst⟩ := hleads.exists_fresh
  refine ⟨fresh ++ more, by rw [hmore, hlevels, List.append_assoc], fun slot hmem => ?_⟩
  rcases List.mem_append.mp hmem with hmem | hmem
  · exact hfresh slot hmem
  · exact Nat.le_trans hsince.cursor_le (hfirst slot hmem).1

/-- After a point every header is filled in, which moves none of them. -/
theorem of_patched (hsince : Since base kept later) {written patched : Buffer}
    {levels : SlotStack Level.count} (hextends : later.buffer.Extends written)
    (hpatch : patchFrom later.instrument 0 later.levels.toList written = .ok () patched)
    (hlevels : levels.toList = later.levels.toList) :
    Since base kept { later with buffer := patched, levels } := by
  have hwithin := hsince.openTo.within_of_extends hextends
  obtain ⟨_, hrun, hvalid, hcapacity, hcursor, -⟩ :=
    patchFrom_of_within later.instrument 0 (hextends.valid hsince.openTo.valid) hwithin
  rw [hpatch] at hrun
  cases hrun
  refine ⟨⟨hvalid, rfl, fun slot hmem => ?_⟩,
    hcapacity.trans (hextends.capacity_eq.trans hsince.capacity_eq), ?_, ?_⟩
  · change slot ∈ levels.toList at hmem
    rw [hlevels] at hmem
    exact within_of_cursor_eq hwithin hcursor slot hmem
  · change _ ≤ patched.cursor
    rw [hcursor]
    exact Nat.le_trans hsince.cursor_le hextends.cursor_le
  · obtain ⟨fresh, hfresh⟩ := hsince.exists_fresh
    refine ⟨fresh, ?_⟩
    change levels.toList = _ ∧ _
    rw [hlevels]
    exact hfresh

theorem closeTo (hsince : Since base kept later) (depth : Nat) :
    Since base (min depth kept) (later.closeTo depth) := by
  have hlevels : (later.closeTo depth).levels.toList = later.levels.toList.take depth :=
    SlotStack.toList_truncate _ _
  refine ⟨⟨hsince.openTo.valid, rfl, fun slot hmem => ?_⟩, hsince.capacity_eq, hsince.cursor_le, ?_⟩
  · rw [hlevels] at hmem
    exact hsince.openTo.within slot (List.mem_of_mem_take hmem)
  · obtain ⟨fresh, hfresh, hfirst⟩ := hsince.exists_fresh
    refine ⟨fresh.take (depth - (base.levels.toList.take kept).length), ?_,
      fun slot hmem => hfirst slot (List.mem_of_mem_take hmem)⟩
    rw [hlevels, hfresh, List.take_append, List.take_take]

/-- Every operation keeps what holds since the base. -/
theorem perform (hsince : Since base kept later) (operation : Operation) :
    Since base (operation.keeping kept) (operation.perform later) := by
  cases operation with
  | opened opening => exact hsince.of_leads (leads_opening hsince.openTo.valid opening)
  | emitted point =>
      rcases emits_or_fails hsince.openTo point with
        ⟨-, written, patched, levels, hextends, -, hpatch, hlevels, hafter⟩ | ⟨-, hleads⟩
      · rw [Operation.perform, hafter]
        exact hsince.of_patched hextends hpatch hlevels
      · exact hsince.of_leads hleads
  | closed depth => exact hsince.closeTo depth

theorem performAll (hsince : Since base kept later) (operations : List Operation) :
    ∃ remaining, Since base remaining (Operation.performAll operations later) := by
  induction operations generalizing kept later with
  | nil => exact ⟨kept, hsince⟩
  | cons operation rest ih => exact ih (hsince.perform operation)

/-- An operation that writes no point into an older message leaves what was there. -/
theorem take_cells_perform (hsince : Since base kept later) {operation : Operation}
    (hreach : operation.reaches kept later = false) :
    (operation.perform later).buffer.cells.take base.buffer.cursor =
      later.buffer.cells.take base.buffer.cursor := by
  cases operation with
  | opened opening =>
      have hleads := leads_opening hsince.openTo.valid opening
      exact hleads.extends_buffer.take_cells_of_le hsince.cursor_le
  | emitted point =>
      rcases emits_or_fails hsince.openTo point with
        ⟨hsucceeds, written, patched, levels, hextends, -, hpatch, -, hafter⟩ | ⟨-, hleads⟩
      · -- The point went into messages that were all opened since.
        obtain ⟨fresh, hlevels, hfirst⟩ := hsince.exists_fresh
        obtain rfl : kept = 0 := by
          simpa [Operation.reaches, hsucceeds] using hreach
        rw [List.take_zero, List.nil_append] at hlevels
        obtain ⟨_, hrun, -, -, -, htake⟩ :=
          patchFrom_of_within later.instrument 0 (hextends.valid hsince.openTo.valid)
            (hsince.openTo.within_of_extends hextends)
        rw [hpatch] at hrun
        cases hrun
        rw [Operation.perform, hafter]
        exact (htake _ (hlevels ▸ hfirst)).trans (hextends.take_cells_of_le hsince.cursor_le)
      · exact hleads.extends_buffer.take_cells_of_le hsince.cursor_le
  | closed depth => rfl

/-- So do operations in a row. -/
theorem take_cells_performAll (hsince : Since base kept later) {operations : List Operation}
    (hreach : Operation.reachesAny kept operations later = false) :
    (Operation.performAll operations later).buffer.cells.take base.buffer.cursor =
      later.buffer.cells.take base.buffer.cursor := by
  induction operations generalizing kept later with
  | nil => rfl
  | cons operation rest ih =>
      obtain ⟨hfirst, hrest⟩ := Bool.or_eq_false_iff.mp hreach
      exact (ih (hsince.perform operation) hrest).trans (hsince.take_cells_perform hfirst)

end Since

end RequestEncoder

end TelemetryExport
