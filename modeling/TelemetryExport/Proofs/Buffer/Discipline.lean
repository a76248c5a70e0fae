import TelemetryExport.Proofs.Buffer.Writes
import TelemetryExport.Proofs.Varint

/-! # The discipline of buffers

A buffer goes through any sequence of commands, whether they succeed or fail. Its capacity
stays, its cursor stays within it, and no command changes a byte outside its own stretch: an
append the bytes it moves over, a patch the header it fills in.
-/

namespace TelemetryExport

namespace Buffer

/-! ## Commands -/

/-- What is asked of a buffer, by the type of the answer. -/
inductive Command : Type → Type
  | writeByte (byte : UInt8) : Command Unit
  | writeBytes (bytes : List UInt8) : Command Unit
  | writeText (text : String) : Command Unit
  | writeBigEndian (width n : Nat) : Command Unit
  | writeLittleEndian (width n : Nat) : Command Unit
  | writeVarint (value : UInt64) : Command Unit
  | reserve (width : Nat) : Command Slot
  | patchMessage (slot : Slot) (field : Nat) : Command Unit
  | patchMap (slot : Slot) (count : Nat) : Command Unit
  | patchArray (slot : Slot) (count : Nat) : Command Unit
  | checkpoint : Command Checkpoint
  | rewind (mark : Checkpoint) : Command Unit
  | reset : Command Unit

/-- The slot was reserved in this width, and lies before the cursor. -/
structure HasSlot (buffer : Buffer) (slot : Slot) (width : Nat) : Prop where
  width_eq : slot.valueStart = slot.headerStart + width
  valueStart_le : slot.valueStart ≤ buffer.cursor

/-! ## Effects -/

/-- What a command does to a buffer where it succeeds. -/
structure Effect where
  /-- Where it succeeds. -/
  fits : Prop
  /-- The position to which the cursor moves. -/
  target : Nat
  /-- No byte before this position changes, -/
  start : Nat
  /-- and none from this one on. -/
  stop : Nat
  /-- The bytes that stand from the start on. -/
  stored : List UInt8

namespace Effect

variable (buffer : Buffer)

/-- All of the bytes are stored at the cursor, which moves past them. -/
def append (bytes : List UInt8) : Effect where
  fits := bytes.length ≤ buffer.remaining
  target := buffer.cursor + bytes.length
  start := buffer.cursor
  stop := buffer.cursor + bytes.length
  stored := bytes

/-- The cursor moves on, and leaves the bytes alone. -/
def skip (width : Nat) : Effect where
  fits := width ≤ buffer.remaining
  target := buffer.cursor + width
  start := buffer.cursor
  stop := buffer.cursor
  stored := []

/-- The cursor stays, and a header fills the slot. -/
def patch (slot : Slot) (header : List UInt8) (fits : Prop) : Effect where
  fits := fits
  target := buffer.cursor
  start := slot.headerStart
  stop := slot.valueStart
  stored := header

/-- Nothing but the cursor changes. -/
def move (position : Nat) : Effect where
  fits := True
  target := position
  start := 0
  stop := 0
  stored := []

end Effect

/-- The action succeeds where its effect fits. A failure changes nothing. -/
structure Acts {α : Type} (action : Encode α) (buffer : Buffer) (effect : Effect) : Prop where
  ok_iff : (∃ answer after, action buffer = .ok answer after) ↔ effect.fits
  unchanged : ∀ fault left, action buffer = .error fault left → left = buffer
  capacity_eq : ∀ answer after, action buffer = .ok answer after →
    after.capacity = buffer.capacity
  cursor_eq : ∀ answer after, action buffer = .ok answer after → after.cursor = effect.target
  keeps : ∀ answer after, action buffer = .ok answer after → ∀ index,
    index < effect.start ∨ effect.stop ≤ index → after.cells[index]? = buffer.cells[index]?
  stores : ∀ answer after, action buffer = .ok answer after →
    (after.cells.drop effect.start).take effect.stored.length = effect.stored

namespace Command

variable {α : Type} (buffer : Buffer)

def perform : Command α → Encode α
  | writeByte byte => Encode.writeByte byte
  | writeBytes bytes => Encode.writeList bytes
  | writeText text => Encode.writeText text
  | writeBigEndian width n => Encode.writeBigEndian width n
  | writeLittleEndian width n => Encode.writeLittleEndian width n
  | writeVarint value => Encode.writeVarint value
  | reserve width => Encode.reserve width
  | patchMessage slot field => Encode.patchMessage slot field
  | patchMap slot count => Encode.patchMap slot count
  | patchArray slot count => Encode.patchArray slot count
  | checkpoint => return (← get).checkpoint
  | rewind mark => modify (·.rewind mark)
  | reset => modify Buffer.reset

/-- The buffer after a command, also where it failed. -/
def leaves (command : Command α) : Buffer :=
  match command.perform buffer with
  | .ok _ after => after
  | .error _ left => left

/-- A header is filled in where one of its width was reserved, and the cursor only goes back. -/
def Permitted : Command α → Prop
  | patchMessage slot field => buffer.HasSlot slot Slot.messageWidth ∧ 1 ≤ field ∧ field ≤ 15
  | patchMap slot _ => buffer.HasSlot slot Slot.countedWidth
  | patchArray slot _ => buffer.HasSlot slot Slot.countedWidth
  | rewind mark => mark.position ≤ buffer.cursor
  | _ => True

/-- What a permitted command does, and where it succeeds. -/
def effect : Command α → Effect
  | writeByte byte => .append buffer [byte]
  | writeBytes bytes => .append buffer bytes
  | writeText text => .append buffer text.toUTF8.data.toList
  | writeBigEndian width n => .append buffer (Bytes.digits width n).reverse
  | writeLittleEndian width n => .append buffer (Bytes.digits width n)
  | writeVarint value => .append buffer (Varint.groups value.toNat)
  | reserve width => .skip buffer width
  | patchMessage slot field =>
      .patch buffer slot (Slot.messageHeader field (slot.contentLength buffer)) True
  | patchMap slot count =>
      .patch buffer slot (Slot.countedHeader Slot.map16 count) (count ≤ 65535)
  | patchArray slot count =>
      .patch buffer slot (Slot.countedHeader Slot.array16 count) (count ≤ 65535)
  | checkpoint => .move buffer.cursor
  | rewind mark => .move mark.position
  | reset => .move 0

end Command

/-- The buffers of the requested capacity after any sequence of commands. -/
inductive Reached (requested : Nat) : Buffer → Prop
  | start : Reached requested (withCapacity requested)
  | step {α : Type} {buffer : Buffer} {command : Command α} (hreached : Reached requested buffer)
      (hpermitted : command.Permitted buffer) : Reached requested (command.leaves buffer)

/-! ## What one command does -/

section

variable {α : Type} {action : Encode α} {buffer after : Buffer} {answer : α} {effect : Effect}

theorem acts_of_ok (hrun : action buffer = .ok answer after) (hfits : effect.fits)
    (hcapacity : after.capacity = buffer.capacity) (hcursor : after.cursor = effect.target)
    (hkeeps : ∀ index, index < effect.start ∨ effect.stop ≤ index →
      after.cells[index]? = buffer.cells[index]?)
    (hstores : (after.cells.drop effect.start).take effect.stored.length = effect.stored) :
    Acts action buffer effect := by
  constructor
  · exact iff_of_true ⟨answer, after, hrun⟩ hfits
  all_goals
    intro _ _ hother
    rw [hrun] at hother
    cases hother
  · exact hcapacity
  · exact hcursor
  · exact hkeeps
  · exact hstores

theorem acts_of_error {fault : EncodeError} (hrun : action buffer = .error fault buffer)
    (hfits : ¬effect.fits) : Acts action buffer effect := by
  constructor
  · refine iff_of_false ?_ hfits
    rintro ⟨_, _, hok⟩
    rw [hrun] at hok
    cases hok
  all_goals
    intro _ _ hother
    rw [hrun] at hother
    cases hother
  · rfl

/-- Where only the cursor moves, all bytes stay. -/
theorem acts_move {position : Nat}
    (hrun : action buffer = .ok answer { buffer with cursor := position }) :
    Acts action buffer (.move position) :=
  acts_of_ok hrun trivial rfl rfl (fun _ _ => rfl) rfl

end

variable {α : Type} {buffer : Buffer}

theorem le_remaining_iff (hvalid : buffer.Valid) (length : Nat) :
    length ≤ buffer.remaining ↔ buffer.cursor + length ≤ buffer.capacity := by
  have hcursor := hvalid.cursor_le
  rw [remaining]
  omega

theorem cases_of_checked {action : Encode α} {count : Nat} {result : Buffer → α}
    {change : Buffer → Buffer} (hchecked : Encode.Checked action count result change)
    (hvalid : buffer.Valid) :
    (count ≤ buffer.remaining ∧ buffer.cursor + count ≤ buffer.capacity ∧
      action buffer = .ok (result buffer) (change buffer)) ∨
    (¬count ≤ buffer.remaining ∧ ∃ fault, action buffer = .error fault buffer) := by
  rw [le_remaining_iff hvalid]
  by_cases hroom : buffer.cursor + count ≤ buffer.capacity
  · exact .inl ⟨hroom, hroom, hchecked.ok buffer hroom⟩
  · exact .inr ⟨hroom, _, hchecked.error buffer (Nat.lt_of_not_le hroom)⟩

theorem acts_append {action : Encode Unit} {bytes : List UInt8}
    (hchecked : Encode.Checked action bytes.length (fun _ => ()) (·.append bytes))
    (hvalid : buffer.Valid) : Acts action buffer (.append buffer bytes) := by
  rcases cases_of_checked hchecked hvalid with ⟨hfits, hroom, hrun⟩ | ⟨hfits, _, hrun⟩
  · exact acts_of_ok hrun hfits (capacity_append hroom) (cursor_append _ _)
      (fun _ => Bytes.getElem?_overwrite hroom) (Bytes.take_drop_overwrite hroom)
  · exact acts_of_error hrun hfits

theorem acts_reserve (hvalid : buffer.Valid) (width : Nat) :
    Acts (Encode.reserve width) buffer (.skip buffer width) := by
  rcases cases_of_checked (Encode.checked_reserve width) hvalid with
    ⟨hfits, -, hrun⟩ | ⟨hfits, _, hrun⟩
  · exact acts_of_ok hrun hfits (capacity_skip _ _) (cursor_skip _ _) (fun _ _ => rfl) rfl
  · exact acts_of_error hrun hfits

theorem acts_patch {action : Encode Unit} {slot : Slot} {header : List UInt8}
    (hvalid : buffer.Valid) (hslot : buffer.HasSlot slot header.length)
    (hrun : action buffer = .ok () (buffer.patch slot.headerStart header.toByteArray)) {fits : Prop}
    (hfits : fits) : Acts action buffer (.patch buffer slot header fits) := by
  have hwidth := hslot.width_eq
  have hvalue := hslot.valueStart_le
  have hcursor := hvalid.cursor_le
  have hroom : slot.headerStart + header.length ≤ buffer.capacity := by omega
  refine acts_of_ok hrun hfits (capacity_patch hroom) rfl (fun index hindex => ?_)
    (Bytes.take_drop_overwrite hroom)
  change index < slot.headerStart ∨ slot.valueStart ≤ index at hindex
  rw [hwidth] at hindex
  exact Bytes.getElem?_overwrite hroom hindex

theorem acts_patchCounted {slot : Slot} (hvalid : buffer.Valid)
    (hslot : buffer.HasSlot slot Slot.countedWidth) (marker : UInt8) (count : Nat) :
    Acts (Encode.patchCounted slot marker count) buffer
      (.patch buffer slot (Slot.countedHeader marker count) (count ≤ 65535)) := by
  by_cases hcount : 65535 < count
  · have hrun : Encode.patchCounted slot marker count buffer =
        .error (.countOverflow count) buffer := by
      rw [Encode.patchCounted, if_pos hcount]
    exact acts_of_error hrun (Nat.not_le_of_lt hcount)
  · have hrun : Encode.patchCounted slot marker count buffer =
        .ok () (buffer.patch slot.headerStart (Slot.countedHeader marker count).toByteArray) := by
      rw [Encode.patchCounted, if_neg hcount]
    exact acts_patch hvalid hslot hrun (Nat.le_of_not_lt hcount)

/-- No content that fits a payload is longer than the header can say. -/
theorem acts_patchMessage {slot : Slot} (hvalid : buffer.Valid)
    (hslot : buffer.HasSlot slot Slot.messageWidth) (field : Nat) :
    Acts (Encode.patchMessage slot field) buffer
      (.patch buffer slot (Slot.messageHeader field (slot.contentLength buffer)) True) := by
  have hcapacity := Nat.le_trans hvalid.cursor_le hvalid.capacity_le
  have hlength : ¬Varint.paddedMax < slot.contentLength buffer := by
    have hmax : maxPayloadSize ≤ Varint.paddedMax := by decide
    rw [Slot.contentLength]
    omega
  have hrun : Encode.patchMessage slot field buffer =
      .ok () (buffer.patch slot.headerStart
        (Slot.messageHeader field (slot.contentLength buffer)).toByteArray) := by
    simp only [Encode.patchMessage, if_neg hlength]
  exact acts_patch hvalid hslot hrun trivial

theorem Command.acts (hvalid : buffer.Valid) {command : Command α}
    (hpermitted : command.Permitted buffer) :
    Acts command.perform buffer (command.effect buffer) := by
  cases command with
  | writeByte byte => exact acts_append (Encode.checked_writeList [byte]) hvalid
  | writeBytes bytes => exact acts_append (Encode.checked_writeList bytes) hvalid
  | writeText text => exact acts_append (Encode.checked_write text.toUTF8) hvalid
  | writeBigEndian width n => exact acts_append (Encode.checked_writeList _) hvalid
  | writeLittleEndian width n => exact acts_append (Encode.checked_writeList _) hvalid
  | writeVarint value => exact acts_append (Encode.checked_writeVarint value) hvalid
  | reserve width => exact acts_reserve hvalid width
  | patchMessage slot field => exact acts_patchMessage hvalid hpermitted.1 field
  | patchMap slot count => exact acts_patchCounted hvalid hpermitted Slot.map16 count
  | patchArray slot count => exact acts_patchCounted hvalid hpermitted Slot.array16 count
  | checkpoint => exact acts_move rfl
  | rewind mark => exact acts_move rfl
  | reset => exact acts_move rfl

/-- A success leaves the cursor within the capacity. -/
theorem Command.target_le (hvalid : buffer.Valid) {command : Command α}
    (hpermitted : command.Permitted buffer) (hfits : (command.effect buffer).fits) :
    (command.effect buffer).target ≤ buffer.capacity := by
  have hcursor := hvalid.cursor_le
  cases command with
  | patchMessage slot field => exact hcursor
  | patchMap slot count => exact hcursor
  | patchArray slot count => exact hcursor
  | checkpoint => exact hcursor
  | rewind mark => exact Nat.le_trans hpermitted hcursor
  | reset => exact Nat.zero_le _
  | _ => exact (le_remaining_iff hvalid _).mp hfits

/-! ## What any commands do -/

/-- Whatever a command leaves has the capacity of before, and its cursor in it. -/
theorem Command.leaves_valid (hvalid : buffer.Valid) {command : Command α}
    (hpermitted : command.Permitted buffer) :
    (command.leaves buffer).Valid ∧ (command.leaves buffer).capacity = buffer.capacity := by
  have hacts := command.acts hvalid hpermitted
  rw [Command.leaves]
  cases hrun : command.perform buffer with
  | ok answer after =>
      have hcapacity := hacts.capacity_eq answer after hrun
      have htarget := command.target_le hvalid hpermitted (hacts.ok_iff.mp ⟨answer, after, hrun⟩)
      rw [← hacts.cursor_eq answer after hrun] at htarget
      exact ⟨⟨hcapacity ▸ htarget, hcapacity ▸ hvalid.capacity_le⟩, hcapacity⟩
  | error fault left =>
      rw [hacts.unchanged fault left hrun]
      exact ⟨hvalid, rfl⟩

theorem Reached.valid {requested : Nat} (hreached : Reached requested buffer) :
    buffer.Valid ∧ buffer.capacity = min requested maxPayloadSize := by
  induction hreached with
  | start => exact ⟨withCapacity_valid _, capacity_withCapacity _⟩
  | step _ hpermitted ih =>
      obtain ⟨hvalid, hcapacity⟩ := Command.leaves_valid ih.1 hpermitted
      exact ⟨hvalid, hcapacity.trans ih.2⟩

/-- What holds of a buffer of the requested capacity, and of the next command. -/
structure Disciplined (requested : Nat) (buffer : Buffer) (command : Command α) : Prop where
  capacity_eq : buffer.capacity = min requested 65360
  cursor_le : buffer.cursor ≤ buffer.capacity
  acts : Acts command.perform buffer (command.effect buffer)

theorem disciplined_of_reached {requested : Nat} {command : Command α}
    (hreached : Reached requested buffer) (hpermitted : command.Permitted buffer) :
    Disciplined requested buffer command where
  capacity_eq := hreached.valid.2
  cursor_le := hreached.valid.1.cursor_le
  acts := command.acts hreached.valid.1 hpermitted

/-- A buffer that the reserved header of a message and the message fill up. -/
def filledMessage : Buffer :=
  (Command.writeText "hello").leaves ((Command.reserve 4).leaves (withCapacity 9))

theorem disciplined_filledMessage : Reached 9 filledMessage ∧
    (Command.patchMessage ⟨0, 4⟩ 2).Permitted filledMessage ∧
    Disciplined 9 filledMessage (.patchMessage ⟨0, 4⟩ 2) ∧
    Disciplined 9 filledMessage (.writeByte 0) := by
  have hreached : Reached 9 filledMessage := .step (.step .start trivial) trivial
  have hcursor : filledMessage.cursor = 9 := by rfl
  have hpermitted : (Command.patchMessage ⟨0, 4⟩ 2).Permitted filledMessage :=
    ⟨⟨rfl, by rw [hcursor]; decide⟩, by decide, by decide⟩
  exact ⟨hreached, hpermitted, disciplined_of_reached hreached hpermitted,
    disciplined_of_reached hreached trivial⟩

end Buffer

end TelemetryExport
