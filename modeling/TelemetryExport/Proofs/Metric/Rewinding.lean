import TelemetryExport.Proofs.Metric.Operations

/-! # Taking requests back

A checkpoint keeps the position and the open messages of a request, but not their headers:
these lie before the position and are filled in anew by every point that is written. What
is taken back is therefore the request of the checkpoint exactly as long as no point went
into a message that was open there already. After such a point the outermost header tells a
length that goes past the end of what is left, and what is left is no request any more.
-/

namespace TelemetryExport

open Encode WrittenField OpenMessage RequestEncoder

/-! ## Headers that say too much -/

namespace Wire

open WrittenField

/-- A message that is shorter than its header says is not read. -/
theorem readField_overrun {number length : Nat} (hpos : 0 < number) (hnumber : number < 16)
    (hlength : length ≤ Varint.paddedMax) {content : List UInt8}
    (hcontent : content.length < length) :
    readField (Slot.messageHeader number length ++ content) = none := by
  have hvarint := varint?_padded hlength content
  have htake : take? length content = none := if_neg (Nat.not_le_of_lt hcontent)
  rw [Slot.messageHeader, List.cons_append]
  change readField (UInt8.ofNat (number * 8 + WireType.lengthDelimited.code) :: _) = none
  rw [readField_key number .lengthDelimited hpos hnumber, WireType.code, readValue, hvarint]
  simp only [Option.bind_eq_bind, Option.bind_some, htake, Option.bind_none, Option.map_none]

/-- Nor is anything read that contains it, whatever stands before. -/
theorem readWith_overrun {fields : List WrittenField}
    (hnumbered : ∀ field ∈ fields, field.Numbered)
    (hcontent : ∀ field ∈ fields, field.content.length ≤ Varint.paddedMax)
    {byte : UInt8} {bytes : List UInt8} (hrest : readField (byte :: bytes) = none)
    (fuel : Nat) : readWith fuel (encodeAll fields ++ byte :: bytes) = none := by
  induction fields generalizing fuel with
  | nil =>
      cases fuel with
      | zero => rfl
      | succ fuel =>
          rw [encodeAll_nil, List.nil_append, readWith, hrest]
          rfl
  | cons field others ih =>
      have hhead := readField_encode (hnumbered field List.mem_cons_self)
        (hcontent field List.mem_cons_self) (encodeAll others ++ byte :: bytes)
      have htail := ih (fun other hmem => hnumbered other (List.mem_cons_of_mem _ hmem))
        fun other hmem => hcontent other (List.mem_cons_of_mem _ hmem)
      rw [encodeAll_cons, List.append_assoc]
      cases hencoded : field.encode with
      | nil =>
          have hpos := field.length_encode_pos
          rw [hencoded] at hpos
          cases hpos
      | cons first more =>
          cases fuel with
          | zero => rfl
          | succ fuel =>
              rw [hencoded, List.cons_append] at hhead
              simp only [List.cons_append, readWith, hhead, htail, Option.bind_eq_bind,
                Option.bind_some, Option.bind_none]

theorem merge_overrun {α : Type} (step : α → Nat → WireValue → Option α) (message : α)
    {fields : List WrittenField} (hnumbered : ∀ field ∈ fields, field.Numbered)
    (hfields : (encodeAll fields).length ≤ maxPayloadSize) {number length : Nat}
    (hnumber : 0 < number ∧ number < 16) (hlength : length ≤ maxPayloadSize)
    {content : List UInt8} (hcontent : content.length < length) :
    merge step message (encodeAll fields ++ (Slot.messageHeader number length ++ content)) =
      none := by
  have hmaximum : maxPayloadSize ≤ Varint.paddedMax := by decide
  have hbounds : ∀ field ∈ fields, field.content.length ≤ Varint.paddedMax := fun field hmem =>
    Nat.le_trans (length_content_le_of_mem hmem) (Nat.le_trans hfields hmaximum)
  have hread : read (encodeAll fields ++ (Slot.messageHeader number length ++ content)) = none :=
    readWith_overrun hnumbered hbounds
      (readField_overrun hnumber.1 hnumber.2 (Nat.le_trans hlength hmaximum) hcontent) _
  rw [merge, hread]
  rfl

end Wire

namespace RequestEncoder

/-- What the outermost header of the base has become: the header of a message that goes on
behind the base's end. -/
def Overruns (base : RequestEncoder) (outer : Slot) (later : RequestEncoder) : Prop :=
  ∃ length, base.buffer.cursor - outer.valueStart < length ∧ length ≤ maxPayloadSize ∧
    later.buffer.cells.take outer.valueStart =
      base.buffer.cells.take outer.headerStart ++
        Slot.messageHeader Schema.Request.resourceMetrics length

/-- The header of the outermost open message, before all others. -/
structure Outermost (base : RequestEncoder) (outer : Slot) (deeper : List Slot) : Prop where
  levels_eq : base.levels.toList = outer :: deeper
  within : outer.Within base.buffer
  nested : ∀ slot ∈ deeper, outer.valueStart ≤ slot.headerStart

variable {base later : RequestEncoder} {kept : Nat} {outer : Slot} {deeper : List Slot}

theorem Overruns.take_headerStart (houter : Outermost base outer deeper)
    (hvalid : base.buffer.Valid) (hoverruns : Overruns base outer later) :
    later.buffer.cells.take outer.headerStart = base.buffer.cells.take outer.headerStart := by
  obtain ⟨length, -, -, hcells⟩ := hoverruns
  have hwidth := houter.within.width_eq
  have hroom := houter.within.valueStart_le
  have hcursor := hvalid.cursor_le
  have hlength : (base.buffer.cells.take outer.headerStart).length = outer.headerStart := by
    have hcapacity := Buffer.length_cells base.buffer
    rw [List.length_take]
    omega
  have htake := congrArg (List.take outer.headerStart) hcells
  rw [List.take_take, Nat.min_eq_left (by omega), List.take_append_of_le_length (by omega),
    List.take_take, Nat.min_self] at htake
  exact htake

/-- Of the headers that are filled in, the outermost gets the length up to the cursor. -/
theorem take_cells_of_patchFrom (instrument : Option Instrument) {rest : List Slot}
    {buffer patched : Buffer} (hvalid : buffer.Valid)
    (hwithin : ∀ slot ∈ outer :: rest, slot.Within buffer)
    (hbehind : ∀ slot ∈ rest, outer.valueStart ≤ slot.headerStart)
    (hpatch : patchFrom instrument 0 (outer :: rest) buffer = .ok () patched) :
    patched.cells.take outer.valueStart =
      buffer.cells.take outer.headerStart ++
        Slot.messageHeader Schema.Request.resourceMetrics
          (buffer.cursor - outer.valueStart) := by
  obtain ⟨⟨hwidth, hroom⟩, hothers⟩ := List.forall_mem_cons.mp hwithin
  obtain ⟨middle, hrun, hmiddle, -, hcursor, hcells⟩ :=
    patchMessage_of_within hvalid ⟨hwidth, hroom⟩ (fieldAt instrument 0)
  rw [patchFrom, Encode.bind_of_ok hrun] at hpatch
  -- The other headers lie behind the outermost one.
  obtain ⟨_, hlast, -, -, -, htake⟩ :=
    patchFrom_of_within instrument 1 hmiddle (within_of_cursor_eq hothers hcursor)
  rw [hpatch] at hlast
  cases hlast
  have hlength := Buffer.length_cells buffer
  have hcapacity := hvalid.cursor_le
  rw [htake _ hbehind, hcells]
  apply List.take_left'
  rw [List.length_append, length_messageHeader, List.length_take]
  omega

/-- A point in an older message makes the outermost header go on to the point's end. -/
theorem Since.overruns_perform (houter : Outermost base outer deeper)
    (hsince : Since base kept later)
    (hfront : later.buffer.cells.take outer.headerStart =
      base.buffer.cells.take outer.headerStart)
    {operation : Operation} (hreach : operation.reaches kept later = true) :
    Overruns base outer (operation.perform later) := by
  cases operation with
  | opened opening => cases hreach
  | closed depth => cases hreach
  | emitted point =>
      obtain ⟨hkept, hsucceeds⟩ := Bool.and_eq_true_iff.mp hreach
      rcases emits_or_fails hsince.openTo point with
        ⟨-, written, patched, levels, hextends, hlonger, hpatch, -, hafter⟩ | ⟨hfails, -⟩
      · have hroom := houter.within.valueStart_le
        have hwidth := houter.within.width_eq
        have hcursor := hsince.cursor_le
        have hvalid := hextends.valid hsince.openTo.valid
        have hmost := Nat.le_trans hvalid.cursor_le hvalid.capacity_le
        have hwithin := hsince.openTo.within_of_extends hextends
        obtain ⟨fresh, hlevels, hfirst⟩ := hsince.exists_fresh
        obtain ⟨inner, rfl⟩ := Nat.exists_eq_add_one.mpr (of_decide_eq_true hkept)
        rw [houter.levels_eq, List.take_succ_cons, List.cons_append] at hlevels
        rw [hlevels] at hwithin hpatch
        have hbehind : ∀ slot ∈ deeper.take inner ++ fresh,
            outer.valueStart ≤ slot.headerStart := by
          intro slot hmem
          rcases List.mem_append.mp hmem with hmem | hmem
          · exact houter.nested slot (List.mem_of_mem_take hmem)
          · exact Nat.le_trans hroom (hfirst slot hmem)
        refine ⟨written.cursor - outer.valueStart, by omega, by omega, ?_⟩
        rw [Operation.perform, hafter]
        change patched.cells.take _ = _
        rw [take_cells_of_patchFrom _ hvalid hwithin hbehind hpatch,
          hextends.take_cells_of_le (by omega), hfront]
      · rw [hsucceeds] at hfails
        cases hfails

/-- Once a point went into an older message, the outermost header says too much. -/
theorem Since.overruns_performAll (hvalid : base.buffer.Valid)
    (houter : Outermost base outer deeper) {operations : List Operation}
    (hsince : Since base kept later)
    (hreach : Overruns base outer later ∨
      later.buffer.cells.take outer.headerStart = base.buffer.cells.take outer.headerStart ∧
        Operation.reachesAny kept operations later = true) :
    Overruns base outer (Operation.performAll operations later) := by
  induction operations generalizing kept later with
  | nil =>
      rcases hreach with hoverruns | ⟨-, hreach⟩
      · exact hoverruns
      · cases hreach
  | cons operation rest ih =>
      have hroom := houter.within.valueStart_le
      have hwidth := houter.within.width_eq
      apply ih (hsince.perform operation)
      cases hfirst : operation.reaches kept later with
      | true =>
          refine .inl (hsince.overruns_perform houter ?_ hfirst)
          rcases hreach with hoverruns | ⟨hfront, -⟩
          · exact hoverruns.take_headerStart houter hvalid
          · exact hfront
      | false =>
          -- Neither the header nor what stands before it is touched.
          have hkept := hsince.take_cells_perform hfirst
          have htake : ∀ count ≤ base.buffer.cursor,
              (operation.perform later).buffer.cells.take count =
                later.buffer.cells.take count := by
            intro count hcount
            have hshorter := congrArg (List.take count) hkept
            rw [List.take_take, List.take_take, Nat.min_eq_left hcount] at hshorter
            exact hshorter
          rcases hreach with ⟨length, hlonger, hmost, hcells⟩ | ⟨hfront, hreach⟩
          · exact .inl ⟨length, hlonger, hmost, (htake _ hroom).trans hcells⟩
          · refine .inr ⟨(htake _ (by omega)).trans hfront, ?_⟩
            rw [Operation.reachesAny, hfirst, Bool.false_or] at hreach
            exact hreach

end RequestEncoder

/-! ## Sessions -/

/-- The headers of open messages lie one behind the other, each before its content. -/
theorem OpenMessage.place_of_mem_slotsFrom {start : Nat} {fields : List WrittenField}
    {opens : List OpenMessage} :
    ∀ slot ∈ slotsFrom start fields opens,
      start ≤ slot.headerStart ∧ slot.valueStart = slot.headerStart + Slot.messageWidth ∧
        slot.valueStart ≤ start + (encodeAll (content fields opens)).length := by
  induction opens generalizing start fields with
  | nil => exact List.forall_mem_nil _
  | cons inner deeper ih =>
      intro slot hmem
      rw [content_cons, length_encodeAll_append_message]
      rcases List.mem_cons.mp hmem with rfl | hmem
      · exact ⟨Nat.le_add_right _ _, rfl, by simp only; omega⟩
      · obtain ⟨hstart, hwidth, hend⟩ := ih slot hmem
        exact ⟨by omega, hwidth, by omega⟩

namespace RequestEncoder

variable {encoder : RequestEncoder} {fields : List WrittenField} {opens : List OpenMessage}

theorem Drafts.openTo (hdrafts : Drafts encoder fields opens) : encoder.OpenTo encoder.depth where
  valid := hdrafts.valid
  depth_eq := rfl
  within := by
    intro slot hmem
    rw [hdrafts.slots] at hmem
    obtain ⟨-, hwidth, hend⟩ := place_of_mem_slotsFrom slot hmem
    rw [Nat.zero_add, ← hdrafts.cursor_eq] at hend
    exact ⟨hwidth, hend⟩

theorem Drafts.exists_outermost (hdrafts : Drafts encoder fields opens)
    (hdepth : 0 < encoder.depth) : ∃ outer deeper, Outermost encoder outer deeper ∧
      outer.headerStart = (encodeAll fields).length := by
  rw [hdrafts.depth_eq] at hdepth
  cases opens with
  | nil => cases hdepth
  | cons inner deeper =>
      have hlevels := hdrafts.slots
      rw [slotsFrom, Nat.zero_add] at hlevels
      refine ⟨_, _, ⟨hlevels, ?_, fun slot hmem => (place_of_mem_slotsFrom slot hmem).1⟩, rfl⟩
      apply hdrafts.openTo.within
      rw [hlevels]
      exact List.mem_cons_self

theorem Completes.take_cells (hcompletes : Completes encoder fields opens) :
    encoder.buffer.cells.take (encodeAll fields).length = encodeAll fields := by
  have hlength := hcompletes.cursor_eq
  have hbytes := congrArg (List.take (encodeAll fields).length) hcompletes.bytes_eq
  obtain ⟨more, hmore⟩ : ∃ more, content fields opens = fields ++ more := by
    cases opens with
    | nil => exact ⟨[], (List.append_nil _).symm⟩
    | cons inner deeper => exact ⟨_, rfl⟩
  rw [hmore, encodeAll_append, List.length_append] at hlength
  rw [Buffer.bytes, List.take_take, Nat.min_eq_left (by omega), hmore, encodeAll_append,
    List.take_left] at hbytes
  exact hbytes

/-- What is left of a request whose outermost header says too much is no request. -/
theorem decode_eq_none_of_overruns {base after : RequestEncoder} {outer : Slot}
    (hnumbered : AllNumberedIn fields opens) (hcompletes : Completes base fields opens)
    (hwithin : outer.Within base.buffer) (hstart : outer.headerStart = (encodeAll fields).length)
    (hoverruns : Overruns base outer after) :
    Message.Request.decode (after.rewind base.checkpoint).payload = none := by
  obtain ⟨length, hlonger, hmost, hcells⟩ := hoverruns
  rw [hstart, hcompletes.take_cells] at hcells
  have hroom := hwithin.valueStart_le
  -- The header and the fields before it are what they are, the rest is too short.
  have hsplit := List.take_append_drop outer.valueStart
    (after.buffer.cells.take base.buffer.cursor)
  rw [List.take_take, Nat.min_eq_left hroom, hcells, List.append_assoc] at hsplit
  have hrest : ((after.buffer.cells.take base.buffer.cursor).drop outer.valueStart).length <
      length := by
    rw [List.length_drop, List.length_take]
    omega
  have hfields : (encodeAll fields).length ≤ maxPayloadSize := by
    have hwidth := hwithin.width_eq
    have hcursor := Nat.le_trans hcompletes.valid.cursor_le hcompletes.valid.capacity_le
    omega
  have hbytes : (after.rewind base.checkpoint).payload.data.toList =
      after.buffer.cells.take base.buffer.cursor :=
    Buffer.toList_written _
  rw [Message.Request.decode, hbytes, ← hsplit]
  exact Wire.merge_overrun _ _ hnumbered.1 hfields (by decide) hmost hrest

end RequestEncoder

namespace Operation

/-- The request after operations that are all taken back. -/
def takenBack (operations : List Operation) (encoder : RequestEncoder) : RequestEncoder :=
  (performAll operations encoder).rewind encoder.checkpoint

/-- Without any older message, none is written into. -/
theorem reachesAny_zero (operations : List Operation) (encoder : RequestEncoder) :
    reachesAny 0 operations encoder = false := by
  induction operations generalizing encoder with
  | nil => rfl
  | cons operation rest ih =>
      cases operation with
      | opened opening => exact ih _
      | emitted point => exact ih _
      | closed depth =>
          rw [reachesAny, keeping, Nat.min_zero]
          exact ih _

end Operation

namespace Session

variable {properties : List Attribute} {session next : Session}

theorem openTo_of_holds (hsound : Sound properties session) (hintact : session.intact = true) :
    session.encoder.OpenTo session.encoder.depth := by
  obtain ⟨fields, opens, hholds, -, -⟩ := hsound.current hintact
  exact hholds.toDrafts.openTo

/-- After every action, also one that failed, all headers are in their places. -/
theorem Reachable.openTo {first : Session} (hfirst : Sound properties first)
    (hintact : first.intact = true) (hreachable : Reachable properties first session) :
    session.encoder.OpenTo session.encoder.depth := by
  induction hreachable with
  | start => exact openTo_of_holds hfirst hintact
  | @step before after action hbefore hstep ih =>
      have hsound := (hbefore.sound hfirst).step hstep
      by_cases hafter : after.intact = true
      · exact openTo_of_holds hsound hafter
      · cases hstep with
        | opened hbefore => exact absurd hbefore hafter
        | emitted => exact absurd rfl hafter
        | closed hbefore => exact absurd hbefore hafter
        | rewound => exact absurd rfl hafter
        | reset => exact absurd rfl hafter
        | @unopened opening fault encoder hbefore hdepth hrun =>
            have hleads := leads_opening ih.valid opening
            rw [following_of_error hrun] at hleads
            exact ih.of_leads hleads
        | @unemitted point fault encoder hbefore hdepth hrun =>
            rcases emits_or_fails ih point with ⟨hsucceeds, -⟩ | ⟨-, hleads⟩
            · rw [succeeds_of_error hrun] at hsucceeds
              cases hsucceeds
            · rw [following_of_error hrun] at hleads
              exact ih.of_leads hleads

theorem toList_payload_takenBack (operations : List Operation) (encoder : RequestEncoder) :
    (Operation.takenBack operations encoder).payload.data.toList =
      (Operation.performAll operations encoder).buffer.cells.take encoder.buffer.cursor :=
  Buffer.toList_written _

theorem size_payload_takenBack {encoder : RequestEncoder} {depth : Nat}
    (hopen : encoder.OpenTo depth) (operations : List Operation) :
    (Operation.takenBack operations encoder).payload.size = encoder.payload.size := by
  obtain ⟨_, hsince⟩ := (since_self hopen).performAll operations
  have hcursor := hopen.valid.cursor_le
  have hcells := Buffer.length_cells (Operation.performAll operations encoder).buffer
  have hsize : encoder.payload.size = encoder.buffer.cursor := Buffer.size_written hopen.valid
  rw [hsize, ← Bytes.length_toList, toList_payload_takenBack, List.length_take, hcells,
    hsince.capacity_eq]
  exact Nat.min_eq_left hcursor

theorem payload_takenBack_of_not_reached {encoder : RequestEncoder} {depth : Nat}
    (hopen : encoder.OpenTo depth) {operations : List Operation}
    (hreach : Operation.reachesAny encoder.depth operations encoder = false) :
    (Operation.takenBack operations encoder).payload = encoder.payload := by
  have hkept := (since_self hopen).take_cells_performAll hreach
  have hpayload : encoder.payload.data.toList = encoder.buffer.cells.take encoder.buffer.cursor :=
    Buffer.toList_written _
  rw [← toList_payload_takenBack, ← hpayload] at hkept
  exact ByteArray.ext (Array.ext' hkept)

/-- A point in a message that was open before makes a complete request unreadable. -/
theorem Sound.decode_takenBack_of_reached (hsound : Sound properties session)
    (hintact : session.intact = true) (hfilled : session.unfilled = 0)
    {operations : List Operation}
    (hreach : Operation.reachesAny session.encoder.depth operations session.encoder = true) :
    Message.Request.decode (Operation.takenBack operations session.encoder).payload = none := by
  obtain ⟨fields, opens, hholds, -, hcomplete⟩ := hsound.current hintact
  have hdepth : 0 < session.encoder.depth := by
    rw [Nat.pos_iff_ne_zero]
    intro hzero
    rw [hzero, Operation.reachesAny_zero] at hreach
    cases hreach
  obtain ⟨outer, deeper, houter, hstart⟩ := hholds.toDrafts.exists_outermost hdepth
  have hopen := hholds.toDrafts.openTo
  have hoverruns := (since_self hopen).overruns_performAll hopen.valid houter
    (.inr ⟨rfl, hreach⟩)
  exact decode_eq_none_of_overruns hholds.numbered (hcomplete hfilled) houter.within hstart
    hoverruns

/-- Taking operations back restores the depth and the length of a request, and all of its
bytes if no point was written into a message that was open before. Otherwise what was a
complete request is none any more. -/
theorem takenBack_of_reachable {format : RequestFormat}
    (hformat : RequestFormat.make properties = .ok format) {buffer : Buffer}
    (hcapacity : buffer.capacity ≤ maxPayloadSize)
    (hreachable : Reachable properties (start format buffer) session)
    (operations : List Operation) :
    (Operation.takenBack operations session.encoder).depth = session.encoder.depth ∧
    (Operation.takenBack operations session.encoder).payload.size =
      session.encoder.payload.size ∧
    (Operation.reachesAny session.encoder.depth operations session.encoder = false →
      (Operation.takenBack operations session.encoder).payload = session.encoder.payload) ∧
    (session.intact = true → session.unfilled = 0 →
      Message.Request.decode session.encoder.payload = some session.tree ∧
      (Operation.reachesAny session.encoder.depth operations session.encoder = true →
        Message.Request.decode (Operation.takenBack operations session.encoder).payload =
          none)) := by
  have hfirst := sound_start hformat hcapacity
  have hsound := hreachable.sound hfirst
  have hopen := hreachable.openTo hfirst rfl
  exact ⟨rfl, size_payload_takenBack hopen operations, payload_takenBack_of_not_reached hopen,
    fun hintact hfilled => ⟨(hsound.presents hintact hfilled).decode,
      hsound.decode_takenBack_of_reached hintact hfilled⟩⟩

/-! ### A point on top of a point -/

/-- A plain point in a buffer with room for two. -/
def filled : Option Session :=
  performAll [] (plainOpenings.map .opened ++ [.emitted plainPoint])
    (start plainFormat (Buffer.withCapacity 90))

theorem any_filled :
    (filled.any fun session => session.intact && session.unfilled == 0 &&
      session.tree == plainTree &&
      Operation.reachesAny session.encoder.depth [.emitted plainPoint] session.encoder) = true := by
  decide +kernel

def filledSession : Session := filled.getD (start plainFormat Buffer.empty)

theorem filled_eq : filled = some filledSession := by
  obtain ⟨session, hsession, -⟩ := (Option.any_eq_true ..).mp any_filled
  rw [filledSession, hsession, Option.getD_some]

theorem reachable_filled :
    Reachable [] (start plainFormat (Buffer.withCapacity 90)) filledSession :=
  Reachable.start.performAll filled_eq

/-- Everything open in it holds a point, and a second one goes into the same messages. -/
theorem filledSession_ready :
    filledSession.intact = true ∧ filledSession.unfilled = 0 ∧ filledSession.tree = plainTree ∧
      Operation.reachesAny filledSession.encoder.depth [.emitted plainPoint]
        filledSession.encoder = true := by
  have hready := any_filled
  rw [filled_eq, Option.any_some] at hready
  simp only [Bool.and_eq_true, beq_iff_eq] at hready
  obtain ⟨⟨⟨hintact, hunfilled⟩, htree⟩, hreaches⟩ := hready
  exact ⟨hintact, hunfilled, htree, hreaches⟩

theorem capacity_roomy : (Buffer.withCapacity 90).capacity ≤ maxPayloadSize := by
  rw [Buffer.capacity_withCapacity]
  decide

/-- A scope that is opened and taken back leaves no trace. A second point leaves a request
that cannot be read. -/
theorem takenBack_of_filled :
    RequestFormat.make [] = .ok plainFormat ∧
    (Buffer.withCapacity 90).capacity ≤ maxPayloadSize ∧
    Reachable [] (start plainFormat (Buffer.withCapacity 90)) filledSession ∧
    (Operation.takenBack [.closed 1, .opened (.scope plainScope)] filledSession.encoder).payload =
      filledSession.encoder.payload ∧
    Message.Request.decode filledSession.encoder.payload = some plainTree ∧
    Message.Request.decode (Operation.takenBack [.emitted plainPoint]
      filledSession.encoder).payload = none := by
  obtain ⟨-, -, hkept, -⟩ := takenBack_of_reachable make_plain capacity_roomy reachable_filled
    [.closed 1, .opened (.scope plainScope)]
  obtain ⟨-, -, -, hcomplete⟩ := takenBack_of_reachable make_plain capacity_roomy
    reachable_filled [.emitted plainPoint]
  obtain ⟨hintact, hunfilled, htree, hreaches⟩ := filledSession_ready
  obtain ⟨hdecode, hlost⟩ := hcomplete hintact hunfilled
  rw [htree] at hdecode
  exact ⟨make_plain, capacity_roomy, reachable_filled, hkept rfl, hdecode, hlost hreaches⟩

/-- Not every complete request is restored. -/
theorem not_forall_payload_takenBack :
    ¬ ∀ (properties : List Attribute) (format : RequestFormat) (buffer : Buffer)
      (session : Session) (operations : List Operation),
      RequestFormat.make properties = .ok format → buffer.capacity ≤ maxPayloadSize →
      Reachable properties (start format buffer) session →
      (Message.Request.decode session.encoder.payload).isSome →
      .opened .resource ∉ operations →
      (Operation.takenBack operations session.encoder).payload = session.encoder.payload := by
  intro hall
  have hsound := reachable_filled.sound (sound_start make_plain capacity_roomy)
  obtain ⟨hintact, hunfilled, -, hreaches⟩ := filledSession_ready
  have htree := (hsound.presents hintact hunfilled).decode
  have hlost := hsound.decode_takenBack_of_reached hintact hunfilled hreaches
  have hpayload := hall [] plainFormat (Buffer.withCapacity 90) filledSession
    [.emitted plainPoint] make_plain capacity_roomy reachable_filled (by rw [htree]; rfl) (by simp)
  rw [hpayload, htree] at hlost
  cases hlost

end Session

end TelemetryExport
