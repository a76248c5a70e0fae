import TelemetryExport.Proofs.Buffer.Storage

/-! # What a computation writes

`Writes action bytes result` says everything about a computation whose bytes do
not depend on where it starts: where the bytes fit it appends exactly them, and
elsewhere it overflows without touching what was encoded before. `Refuses` says
the same of a computation that ends in a fault of its own after so many bytes.
Both compose along the bytes, so that a writer is described once and its callers
never look into it. All of them start from `Checked`, which says when a single write
asks for room and what it changes where there is some.
-/

namespace TelemetryExport.Encode

open Buffer

variable {α β : Type}

/-- The computation overflows every buffer without room for `length` more bytes.
The fault names the write that did not fit. -/
def Overflows (action : Encode α) (length : Nat) : Prop :=
  ∀ buffer : Buffer, buffer.Valid → buffer.capacity < buffer.cursor + length →
    ∃ offset requested left,
      action buffer = .error (.bufferOverflow offset requested buffer.capacity) left ∧
      buffer.Extends left ∧ buffer.cursor ≤ offset ∧ offset ≤ buffer.capacity ∧
      buffer.capacity < offset + requested ∧ offset + requested ≤ buffer.cursor + length

/-- The computation appends `bytes` wherever they fit, and returns `result`. -/
structure Writes (action : Encode α) (bytes : List UInt8) (result : α) : Prop where
  appends : ∀ buffer : Buffer, buffer.Valid → buffer.cursor + bytes.length ≤ buffer.capacity →
    action buffer = .ok result (buffer.append bytes)
  overflows : Overflows action bytes.length

/-- The computation ends in `fault` wherever `length` more bytes fit. -/
structure Refuses (action : Encode α) (length : Nat) (fault : EncodeError) : Prop where
  faults : ∀ buffer : Buffer, buffer.Valid → buffer.cursor + length ≤ buffer.capacity →
    ∃ left, action buffer = .error fault left ∧ buffer.Extends left
  overflows : Overflows action length

theorem bind_of_ok {σ : Type} {action : EStateM EncodeError σ α}
    {next : α → EStateM EncodeError σ β} {before after : σ} {result : α}
    (haction : action before = .ok result after) :
    (action >>= next) before = next result after := by
  simp only [bind, EStateM.bind, haction]

theorem bind_of_error {σ : Type} {action : EStateM EncodeError σ α}
    {next : α → EStateM EncodeError σ β} {before left : σ} {fault : EncodeError}
    (haction : action before = .error fault left) :
    (action >>= next) before = .error fault left := by
  simp only [bind, EStateM.bind, haction]

theorem exists_of_bind_ok {σ : Type} {action : EStateM EncodeError σ α}
    {next : α → EStateM EncodeError σ β} {before after : σ} {result : β}
    (hok : (action >>= next) before = .ok result after) :
    ∃ value middle, action before = .ok value middle ∧ next value middle = .ok result after := by
  cases haction : action before with
  | ok value middle =>
      rw [bind_of_ok haction] at hok
      exact ⟨value, middle, rfl, hok⟩
  | error fault left =>
      rw [bind_of_error haction] at hok
      cases hok

/-- Stated for any action, so that nothing evaluates the storage of the empty buffer. -/
theorem run_of_ok {action : Encode α} {result : α} {after : Buffer}
    (haction : action Buffer.empty = .ok result after) :
    action.run = .ok (result, after.written) := by
  simp only [run, haction]

theorem run_of_error {action : Encode α} {fault : EncodeError} {left : Buffer}
    (haction : action Buffer.empty = .error fault left) : action.run = .error fault := by
  simp only [run, haction]

theorem exists_of_run {action : Encode α} {result : α} {written : ByteArray}
    (hrun : action.run = .ok (result, written)) :
    ∃ after, action Buffer.empty = .ok result after ∧ written = after.written := by
  cases haction : action Buffer.empty with
  | ok value after =>
      rw [run_of_ok haction] at hrun
      cases hrun
      exact ⟨after, rfl, rfl⟩
  | error fault left =>
      rw [run_of_error haction] at hrun
      cases hrun

/-- What a computation leaves when it is run by itself. -/
theorem Writes.run_eq {action : Encode α} {bytes : List UInt8} {result : α}
    (hwrites : Writes action bytes result) (hlength : bytes.length ≤ maxPayloadSize) :
    action.run = .ok (result, bytes.toByteArray) := by
  have hroom : Buffer.empty.cursor + bytes.length ≤ Buffer.empty.capacity := by
    rw [capacity_empty]
    change 0 + _ ≤ _
    omega
  rw [run_of_ok (hwrites.appends _ empty_valid hroom), written_append rfl hroom]

/-- A computation that was run by itself fitted into a payload. -/
theorem Writes.of_run {action : Encode α} {bytes : List UInt8} {result value : α}
    (hwrites : Writes action bytes result) {written : ByteArray}
    (hrun : action.run = .ok (value, written)) :
    bytes.length ≤ maxPayloadSize ∧ value = result ∧ written = bytes.toByteArray := by
  by_cases hlength : bytes.length ≤ maxPayloadSize
  · rw [hwrites.run_eq hlength] at hrun
    cases hrun
    exact ⟨hlength, rfl, rfl⟩
  · have hroom : Buffer.empty.capacity < Buffer.empty.cursor + bytes.length := by
      rw [capacity_empty]
      change _ < 0 + _
      omega
    obtain ⟨_, _, _, hfault, -⟩ := hwrites.overflows _ empty_valid hroom
    rw [run_of_error hfault] at hrun
    cases hrun

/-! ## What success and failure say -/

namespace Writes

variable {action : Encode α} {bytes : List UInt8} {result : α}

/-- A computation succeeds exactly where its bytes fit. -/
theorem ok_iff (hwrites : Writes action bytes result) {buffer : Buffer} (hvalid : buffer.Valid) :
    (∃ value after, action buffer = .ok value after) ↔
      buffer.cursor + bytes.length ≤ buffer.capacity := by
  constructor
  · rintro ⟨value, after, hok⟩
    by_cases hroom : buffer.cursor + bytes.length ≤ buffer.capacity
    · exact hroom
    · obtain ⟨_, _, _, hfault, _⟩ := hwrites.overflows buffer hvalid (Nat.lt_of_not_le hroom)
      rw [hfault] at hok
      cases hok
  · intro hroom
    exact ⟨_, _, hwrites.appends buffer hvalid hroom⟩

/-- Where a computation succeeded, its bytes fitted and were appended. -/
theorem of_ok (hwrites : Writes action bytes result) {buffer after : Buffer} {value : α}
    (hvalid : buffer.Valid) (hok : action buffer = .ok value after) :
    buffer.cursor + bytes.length ≤ buffer.capacity ∧ value = result ∧
      after = buffer.append bytes := by
  have hroom := (hwrites.ok_iff hvalid).mp ⟨value, after, hok⟩
  rw [hwrites.appends buffer hvalid hroom] at hok
  cases hok
  exact ⟨hroom, rfl, rfl⟩

/-- Where a computation failed, it overflowed and kept what was encoded before. -/
theorem of_error (hwrites : Writes action bytes result) {buffer left : Buffer}
    {fault : EncodeError} (hvalid : buffer.Valid) (herror : action buffer = .error fault left) :
    buffer.capacity < buffer.cursor + bytes.length ∧ fault.isOverflow = true ∧
      buffer.Extends left := by
  by_cases hroom : buffer.cursor + bytes.length ≤ buffer.capacity
  · rw [hwrites.appends buffer hvalid hroom] at herror
    cases herror
  · have hoverflow := Nat.lt_of_not_le hroom
    obtain ⟨_, _, _, hfault, hextends, _⟩ := hwrites.overflows buffer hvalid hoverflow
    rw [hfault] at herror
    cases herror
    exact ⟨hoverflow, rfl, hextends⟩

end Writes

/-- A refusing computation never succeeds. -/
theorem Refuses.of_run {action : Encode α} {length : Nat} {fault : EncodeError}
    (hrefuses : Refuses action length fault) {buffer : Buffer} (hvalid : buffer.Valid) :
    ∃ cause left, action buffer = .error cause left ∧ buffer.Extends left := by
  by_cases hroom : buffer.cursor + length ≤ buffer.capacity
  · obtain ⟨left, hfault, hextends⟩ := hrefuses.faults buffer hvalid hroom
    exact ⟨fault, left, hfault, hextends⟩
  · obtain ⟨_, _, left, hfault, hextends, _⟩ :=
      hrefuses.overflows buffer hvalid (Nat.lt_of_not_le hroom)
    exact ⟨_, left, hfault, hextends⟩

/-- Whether a computation that refuses gets as far as its own fault. -/
theorem Refuses.isOverflow_iff {action : Encode α} {length : Nat} {fault : EncodeError}
    (hrefuses : Refuses action length fault) {buffer : Buffer} (hvalid : buffer.Valid)
    (hfault : fault.isOverflow = false) :
    ∃ cause left, action buffer = .error cause left ∧ buffer.Extends left ∧
      (cause.isOverflow = true ↔ buffer.capacity < buffer.cursor + length) := by
  by_cases hroom : buffer.cursor + length ≤ buffer.capacity
  · obtain ⟨left, hrun, hextends⟩ := hrefuses.faults buffer hvalid hroom
    refine ⟨fault, left, hrun, hextends, iff_of_false ?_ (Nat.not_lt_of_le hroom)⟩
    rw [hfault]
    exact Bool.false_ne_true
  · have hshort := Nat.lt_of_not_le hroom
    obtain ⟨_, _, left, hrun, hextends, _⟩ := hrefuses.overflows buffer hvalid hshort
    exact ⟨_, left, hrun, hextends, iff_of_true rfl hshort⟩

/-! ## Composition -/

theorem Overflows.bind_left {action : Encode α} {next : α → Encode β} {length : Nat}
    (hoverflows : Overflows action length) : Overflows (action >>= next) length := by
  intro buffer hvalid hroom
  obtain ⟨offset, requested, left, hfault, hrest⟩ := hoverflows buffer hvalid hroom
  exact ⟨offset, requested, left, bind_of_error hfault, hrest⟩

/-- After bytes that fit, an overflow of what follows is one of the whole. -/
theorem Writes.overflows_bind {action : Encode α} {next : α → Encode β} {bytes : List UInt8}
    {result : α} {length : Nat} (hfirst : Writes action bytes result)
    (hnext : Overflows (next result) length) :
    Overflows (action >>= next) (bytes.length + length) := by
  intro buffer hvalid hroom
  by_cases hfits : buffer.cursor + bytes.length ≤ buffer.capacity
  · have hcapacity := capacity_append hfits
    have hcursor := cursor_append buffer bytes
    obtain ⟨offset, requested, left, hfault, hextends, hlow, hhigh, hshort, hlong⟩ :=
      hnext (buffer.append bytes) (append_valid hvalid hfits) (by omega)
    rw [hcapacity] at hfault hhigh hshort
    refine ⟨offset, requested, left, ?_, (extends_append hfits).trans hextends, by omega, hhigh,
      hshort, by omega⟩
    rw [bind_of_ok (hfirst.appends buffer hvalid hfits)]
    exact hfault
  · obtain ⟨offset, requested, left, hfault, hextends, hlow, hhigh, hshort, hlong⟩ :=
      hfirst.overflows buffer hvalid (Nat.lt_of_not_le hfits)
    exact ⟨offset, requested, left, bind_of_error hfault, hextends, hlow, hhigh, hshort, by omega⟩

theorem Writes.bind {action : Encode α} {next : α → Encode β} {first second : List UInt8}
    {result : α} {final : β} (hfirst : Writes action first result)
    (hsecond : Writes (next result) second final) :
    Writes (action >>= next) (first ++ second) final where
  appends := by
    intro buffer hvalid hroom
    rw [List.length_append] at hroom
    have hfits : buffer.cursor + first.length ≤ buffer.capacity := by omega
    have hcapacity := capacity_append hfits
    have hcursor := cursor_append buffer first
    rw [bind_of_ok (hfirst.appends buffer hvalid hfits),
      hsecond.appends _ (append_valid hvalid hfits) (by omega), append_append hfits]
  overflows := by
    rw [List.length_append]
    exact hfirst.overflows_bind hsecond.overflows

/-- Two computations in a row, the first without a result. -/
theorem Writes.seq {action : Encode Unit} {next : Encode β} {first second : List UInt8} {final : β}
    (hfirst : Writes action first ()) (hsecond : Writes next second final) :
    Writes (do action; next) (first ++ second) final :=
  hfirst.bind hsecond

theorem Writes.bind_refuses {action : Encode α} {next : α → Encode β} {bytes : List UInt8}
    {result : α} {length : Nat} {fault : EncodeError} (hfirst : Writes action bytes result)
    (hnext : Refuses (next result) length fault) :
    Refuses (action >>= next) (bytes.length + length) fault where
  faults := by
    intro buffer hvalid hroom
    have hfits : buffer.cursor + bytes.length ≤ buffer.capacity := by omega
    have hcapacity := capacity_append hfits
    have hcursor := cursor_append buffer bytes
    obtain ⟨left, hfault, hextends⟩ :=
      hnext.faults (buffer.append bytes) (append_valid hvalid hfits) (by omega)
    refine ⟨left, ?_, (extends_append hfits).trans hextends⟩
    rw [bind_of_ok (hfirst.appends buffer hvalid hfits)]
    exact hfault
  overflows := hfirst.overflows_bind hnext.overflows

theorem Refuses.bind {action : Encode α} {next : α → Encode β} {length : Nat}
    {fault : EncodeError} (hrefuses : Refuses action length fault) :
    Refuses (action >>= next) length fault where
  faults := by
    intro buffer hvalid hroom
    obtain ⟨left, hfault, hextends⟩ := hrefuses.faults buffer hvalid hroom
    exact ⟨left, bind_of_error hfault, hextends⟩
  overflows := hrefuses.overflows.bind_left

theorem overflows_zero (action : Encode α) : Overflows action 0 := by
  intro buffer hvalid hroom
  have hcursor := hvalid.cursor_le
  omega

theorem writes_pure (result : α) : Writes (pure result) [] result where
  appends := by
    intro buffer _ _
    rw [append_nil]
    rfl
  overflows := overflows_zero _

theorem refuses_throw (fault : EncodeError) : Refuses (throw fault : Encode α) 0 fault where
  faults := fun buffer hvalid _ => ⟨buffer, rfl, hvalid.extends_self⟩
  overflows := overflows_zero _

theorem Writes.forM {ι : Type} {write : ι → Encode Unit} {bytes : ι → List UInt8} {items : List ι}
    (hwrite : ∀ item ∈ items, Writes (write item) (bytes item) ()) :
    Writes (items.forM write) (items.flatMap bytes) () := by
  induction items with
  | nil => exact writes_pure ()
  | cons item rest ih =>
      rw [List.flatMap_cons]
      change Writes (write item >>= fun _ => rest.forM write) _ ()
      apply (hwrite item List.mem_cons_self).bind
      exact ih fun other hother => hwrite other (List.mem_cons_of_mem _ hother)

/-! ## Single writes -/

theorem checkRoom_of_le {capacity offset count : Nat} (hroom : offset + count ≤ capacity) :
    checkRoom capacity offset count = .ok () := by
  rw [checkRoom, if_pos hroom]

theorem checkRoom_of_lt {capacity offset count : Nat} (hroom : capacity < offset + count) :
    checkRoom capacity offset count = .error (.bufferOverflow offset count capacity) := by
  rw [checkRoom, if_neg (Nat.not_le_of_lt hroom)]

/-- The computation checks for room for `count` bytes. Without it, nothing changes. -/
structure Checked (action : Encode α) (count : Nat) (result : Buffer → α)
    (change : Buffer → Buffer) : Prop where
  ok : ∀ buffer : Buffer, buffer.cursor + count ≤ buffer.capacity →
    action buffer = .ok (result buffer) (change buffer)
  error : ∀ buffer : Buffer, buffer.capacity < buffer.cursor + count →
    action buffer = .error (.bufferOverflow buffer.cursor count buffer.capacity) buffer

theorem Checked.writes {action : Encode Unit} {bytes : List UInt8}
    (hchecked : Checked action bytes.length (fun _ => ()) (·.append bytes)) :
    Writes action bytes () where
  appends := fun buffer _ hroom => hchecked.ok buffer hroom
  overflows := fun buffer hvalid hroom =>
    ⟨buffer.cursor, bytes.length, buffer, hchecked.error buffer hroom, hvalid.extends_self,
      Nat.le_refl _, hvalid.cursor_le, hroom, Nat.le_refl _⟩

theorem checked_write (bytes : ByteArray) : Checked (write bytes) bytes.data.toList.length
    (fun _ => ()) (·.append bytes.data.toList) where
  ok := by
    intro buffer hroom
    rw [Bytes.length_toList] at hroom
    simp only [write, checkRoom_of_le hroom, append, Bytes.toByteArray_toList]
  error := by
    intro buffer hroom
    rw [Bytes.length_toList] at hroom ⊢
    simp only [write, checkRoom_of_lt hroom]

theorem checked_writeList (bytes : List UInt8) :
    Checked (writeList bytes) bytes.length (fun _ => ()) (·.append bytes) := by
  have hchecked := checked_write bytes.toByteArray
  rw [Bytes.toList_toByteArray] at hchecked
  exact hchecked

theorem writes_write (bytes : ByteArray) : Writes (write bytes) bytes.data.toList () :=
  (checked_write bytes).writes

theorem writes_writeList (bytes : List UInt8) : Writes (writeList bytes) bytes () :=
  (checked_writeList bytes).writes

theorem writes_writeByte (byte : UInt8) : Writes (writeByte byte) [byte] () :=
  writes_writeList [byte]

theorem writes_writeText (text : String) :
    Writes (writeText text) text.toUTF8.data.toList () :=
  writes_write _

theorem writes_writeBigEndian (width n : Nat) :
    Writes (writeBigEndian width n) (Bytes.digits width n).reverse () :=
  writes_writeList _

theorem writes_writeLittleEndian (width n : Nat) :
    Writes (writeLittleEndian width n) (Bytes.digits width n) () :=
  writes_writeList _

/-! ## Reserved headers -/

theorem reserve_of_le {width : Nat} {buffer : Buffer}
    (hroom : buffer.cursor + width ≤ buffer.capacity) :
    Encode.reserve width buffer =
      .ok ⟨buffer.cursor, buffer.cursor + width⟩ (buffer.skip width) := by
  have hskip : skip width buffer = .ok buffer.cursor (buffer.skip width) := by
    simp only [skip, checkRoom_of_le hroom]
  exact bind_of_ok hskip

theorem reserve_of_lt {width : Nat} {buffer : Buffer}
    (hroom : buffer.capacity < buffer.cursor + width) :
    Encode.reserve width buffer =
      .error (.bufferOverflow buffer.cursor width buffer.capacity) buffer := by
  have hskip : skip width buffer =
      .error (.bufferOverflow buffer.cursor width buffer.capacity) buffer := by
    simp only [skip, checkRoom_of_lt hroom]
  exact bind_of_error hskip

theorem checked_reserve (width : Nat) : Checked (Encode.reserve width) width
    (fun buffer => ⟨buffer.cursor, buffer.cursor + width⟩) (·.skip width) :=
  ⟨fun _ => reserve_of_le, fun _ => reserve_of_lt⟩

/-- An overflow behind a reserved header is one of the whole. -/
theorem overflows_reserve {width length : Nat} {body : Slot → Encode β}
    (hbody : ∀ slot, Overflows (body slot) length) :
    Overflows (Encode.reserve width >>= body) (width + length) := by
  intro buffer hvalid hroom
  -- The header overflows itself, or there is room for it and not for all of the body.
  by_cases hskip : buffer.cursor + width ≤ buffer.capacity
  · obtain ⟨offset, requested, left, hfault, hextends, hlow, hhigh, hshort, hlong⟩ :=
      hbody ⟨buffer.cursor, buffer.cursor + width⟩ (buffer.skip width)
        ((skip_extends hskip).valid hvalid) (by
          rw [cursor_skip, capacity_skip]
          omega)
    rw [cursor_skip] at hlow hlong
    refine ⟨offset, requested, left, ?_, (skip_extends hskip).trans hextends, by omega, hhigh,
      hshort, by omega⟩
    rw [bind_of_ok (reserve_of_le hskip)]
    exact hfault
  · have hshort := Nat.lt_of_not_le hskip
    exact ⟨buffer.cursor, width, buffer, bind_of_error (reserve_of_lt hshort),
      hvalid.extends_self, Nat.le_refl _, hvalid.cursor_le, hshort, by omega⟩

theorem Refuses.reserve {width length : Nat} {fault : EncodeError} {body : Slot → Encode β}
    (hbody : ∀ slot, Refuses (body slot) length fault) :
    Refuses (Encode.reserve width >>= body) (width + length) fault where
  faults := by
    intro buffer hvalid hroom
    have hskip : buffer.cursor + width ≤ buffer.capacity := by omega
    obtain ⟨left, hfault, hextends⟩ := (hbody ⟨buffer.cursor, buffer.cursor + width⟩).faults
      (buffer.skip width) ((skip_extends hskip).valid hvalid) (by
        rw [cursor_skip, capacity_skip]
        omega)
    refine ⟨left, ?_, (skip_extends hskip).trans hextends⟩
    rw [bind_of_ok (reserve_of_le hskip)]
    exact hfault
  overflows := overflows_reserve fun slot => (hbody slot).overflows

/-- A header that is reserved, followed by content and filled in at the end is
written like a header known beforehand. -/
theorem Writes.reserve {width : Nat} {body : Slot → Encode α} {finish : Slot → α → Encode Unit}
    {header content : List UInt8} {result : Slot → α} (hwidth : header.length = width)
    (hbody : ∀ slot, Writes (body slot) content (result slot))
    (hfinish : ∀ (slot : Slot) (buffer : Buffer), buffer.Valid →
      slot.valueStart = slot.headerStart + width →
      buffer.cursor = slot.valueStart + content.length →
      finish slot (result slot) buffer =
        .ok () (buffer.patch slot.headerStart header.toByteArray)) :
    Writes (Encode.reserve width >>= fun slot => body slot >>= finish slot)
      (header ++ content) () where
  appends := by
    subst hwidth
    intro buffer hvalid hroom
    have hlength := hroom
    rw [List.length_append] at hlength
    have hskip : buffer.cursor + header.length ≤ buffer.capacity := by omega
    have hskipped := (skip_extends hskip).valid hvalid
    have hcontent := skip_room hlength
    rw [bind_of_ok (reserve_of_le hskip), bind_of_ok ((hbody _).appends _ hskipped hcontent),
      hfinish _ _ (append_valid hskipped hcontent) rfl (cursor_append _ _),
      patch_append_skip rfl hroom]
  overflows := by
    rw [List.length_append, hwidth]
    exact overflows_reserve fun slot => (hbody slot).overflows.bind_left

end TelemetryExport.Encode
