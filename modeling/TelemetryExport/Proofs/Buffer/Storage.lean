import TelemetryExport.Buffer.SlotStack

/-! # Buffers as byte lists

Reads the storage of a buffer as a list of bytes, and says there what appending,
skipping and patching do. Storing a list at the cursor changes exactly the
stretch it covers, and a skipped header that is patched later cannot be told
from one that was stored in the first place.
-/

namespace TelemetryExport

namespace Bytes

theorem toList_toByteArray (bytes : List UInt8) : bytes.toByteArray.data.toList = bytes := by
  rw [List.data_toByteArray]

theorem length_toList (bytes : ByteArray) : bytes.data.toList.length = bytes.size := rfl

theorem toByteArray_toList (bytes : ByteArray) : bytes.data.toList.toByteArray = bytes := by
  apply ByteArray.ext
  rw [List.data_toByteArray]

theorem fromUTF8?_toUTF8 (text : String) :
    String.fromUTF8? text.toUTF8.data.toList.toByteArray = some text := by
  rw [toByteArray_toList, String.fromUTF8?, String.toUTF8_eq_toByteArray,
    dif_pos text.isValidUTF8]
  rfl

/-- The bytes from a position on. -/
theorem toList_extract_size (bytes : ByteArray) (start : Nat) :
    (bytes.extract start bytes.size).data.toList = bytes.data.toList.drop start := by
  rw [ByteArray.data_extract, Array.toList_extract, List.extract]
  apply List.take_of_length_le
  rw [List.length_drop]
  exact Nat.le_refl _

/-- Overwriting keeps what is before and after the stretch that is replaced. -/
theorem toList_overwrite (storage : ByteArray) (start : Nat) (bytes : ByteArray) :
    (overwrite storage start bytes).data.toList =
      storage.data.toList.take start ++ bytes.data.toList ++
        storage.data.toList.drop (start + bytes.size) := by
  have hdrop : (storage.data.toList.drop (start + bytes.size)).take
      (storage.data.size - (start + bytes.size)) = storage.data.toList.drop (start + bytes.size) :=
    List.take_of_length_le (by simp [← ByteArray.size_data])
  simp only [← ByteArray.size_data, overwrite, ByteArray.copySlice, Nat.zero_add,
    Array.extract_size, Nat.sub_zero, Std.le_refl, Nat.min_eq_left, Array.append_assoc,
    Array.toList_append, Array.toList_extract, List.extract_eq_take_drop, List.drop_zero,
    List.append_assoc, List.append_cancel_left_eq] at hdrop ⊢
  exact hdrop

section

variable {storage : ByteArray} {start : Nat} {bytes : List UInt8}

theorem size_overwrite (hroom : start + bytes.length ≤ storage.size) :
    (overwrite storage start bytes.toByteArray).size = storage.size := by
  have hstorage := length_toList storage
  rw [← length_toList, toList_overwrite, toList_toByteArray, List.size_toByteArray]
  simp only [List.length_append, List.length_take, List.length_drop]
  omega

theorem length_take_toList (hroom : start + bytes.length ≤ storage.size) :
    (storage.data.toList.take start).length = start := by
  have hstorage := length_toList storage
  rw [List.length_take]
  omega

/-- The stretch that is replaced holds the new bytes. -/
theorem take_drop_overwrite (hroom : start + bytes.length ≤ storage.size) :
    ((overwrite storage start bytes.toByteArray).data.toList.drop start).take bytes.length =
      bytes := by
  rw [toList_overwrite, toList_toByteArray, List.append_assoc,
    List.drop_left' (length_take_toList hroom)]
  exact List.take_left

/-- No byte changes outside the stretch that is replaced. -/
theorem getElem?_overwrite (hroom : start + bytes.length ≤ storage.size) {index : Nat}
    (hindex : index < start ∨ start + bytes.length ≤ index) :
    (overwrite storage start bytes.toByteArray).data.toList[index]? =
      storage.data.toList[index]? := by
  have htake := length_take_toList hroom
  rw [toList_overwrite, toList_toByteArray, List.size_toByteArray, List.append_assoc]
  rcases hindex with hbefore | hbehind
  · rw [List.getElem?_append_left (by omega), List.getElem?_take_of_lt hbefore]
  · rw [List.getElem?_append_right (by omega), htake, List.getElem?_append_right (by omega),
      List.getElem?_drop]
    congr 1
    omega

end

end Bytes

namespace Buffer

/-- The storage as a list. -/
def cells (buffer : Buffer) : List UInt8 := buffer.storage.data.toList

/-- The bytes encoded so far, as a list. -/
def bytes (buffer : Buffer) : List UInt8 := buffer.cells.take buffer.cursor

/-- Stores a list of bytes at the cursor and moves the cursor past them. -/
def append (buffer : Buffer) (bytes : List UInt8) : Buffer := buffer.place bytes.toByteArray

/-- What holds of every buffer of any requested capacity, and what every
operation on buffers keeps. -/
structure Valid (buffer : Buffer) : Prop where
  cursor_le : buffer.cursor ≤ buffer.capacity
  capacity_le : buffer.capacity ≤ maxPayloadSize

/-- A later buffer that keeps everything encoded in an earlier one. -/
structure Extends (earlier later : Buffer) : Prop where
  capacity_eq : later.capacity = earlier.capacity
  cursor_le : earlier.cursor ≤ later.cursor
  cursor_le_capacity : later.cursor ≤ later.capacity
  take_cells : later.cells.take earlier.cursor = earlier.bytes

theorem length_cells (buffer : Buffer) : buffer.cells.length = buffer.capacity := rfl

theorem ext_cells {buffer other : Buffer} (hcells : buffer.cells = other.cells)
    (hcursor : buffer.cursor = other.cursor) : buffer = other := by
  obtain ⟨⟨⟨storage⟩⟩, cursor⟩ := buffer
  obtain ⟨⟨⟨otherStorage⟩⟩, otherCursor⟩ := other
  simp only [cells] at hcells hcursor
  rw [hcells, hcursor]

theorem toList_written (buffer : Buffer) : buffer.written.data.toList = buffer.bytes := by
  simp [written, bytes, cells]

theorem length_bytes_of_le {buffer : Buffer} (hcursor : buffer.cursor ≤ buffer.capacity) :
    buffer.bytes.length = buffer.cursor := by
  rw [bytes, List.length_take, length_cells]
  exact Nat.min_eq_left hcursor

theorem length_bytes {buffer : Buffer} (hvalid : buffer.Valid) :
    buffer.bytes.length = buffer.cursor :=
  length_bytes_of_le hvalid.cursor_le

theorem size_written {buffer : Buffer} (hvalid : buffer.Valid) :
    buffer.written.size = buffer.cursor := by
  rw [← Bytes.length_toList, toList_written, length_bytes hvalid]

theorem capacity_withCapacity (requested : Nat) :
    (withCapacity requested).capacity = min requested maxPayloadSize := by
  simp [withCapacity, capacity, ByteArray.size]

theorem capacity_sizedTo {buffer : Buffer} (hcapacity : buffer.capacity ≤ maxPayloadSize)
    (requested : Nat) :
    (buffer.sizedTo requested).capacity = min requested maxPayloadSize := by
  rw [sizedTo]
  by_cases hsame : buffer.capacity = requested
  · rw [if_pos hsame, Nat.min_eq_left (by omega), hsame]
  · rw [if_neg hsame, capacity_withCapacity]

theorem withCapacity_valid (requested : Nat) : (withCapacity requested).Valid where
  cursor_le := Nat.zero_le _
  capacity_le := by
    rw [capacity_withCapacity]
    exact Nat.min_le_right _ _

theorem empty_valid : empty.Valid := withCapacity_valid _

theorem capacity_empty : empty.capacity = maxPayloadSize := by
  rw [empty, capacity_withCapacity, Nat.min_self]

theorem bytes_empty : empty.bytes = [] := List.take_zero

theorem reset_valid {buffer : Buffer} (hcapacity : buffer.capacity ≤ maxPayloadSize) :
    buffer.reset.Valid where
  cursor_le := Nat.zero_le _
  capacity_le := hcapacity

/-! ## Appending -/

@[simp] theorem cursor_append (buffer : Buffer) (bytes : List UInt8) :
    (buffer.append bytes).cursor = buffer.cursor + bytes.length := by
  simp [append, place, List.size_toByteArray]

theorem cells_append (buffer : Buffer) (bytes : List UInt8) :
    (buffer.append bytes).cells =
      buffer.bytes ++ bytes ++ buffer.cells.drop (buffer.cursor + bytes.length) := by
  simp only [append, place, cells, Buffer.bytes, Bytes.toList_overwrite, Bytes.toList_toByteArray,
    List.size_toByteArray]

theorem capacity_append {buffer : Buffer} {bytes : List UInt8}
    (hroom : buffer.cursor + bytes.length ≤ buffer.capacity) :
    (buffer.append bytes).capacity = buffer.capacity :=
  Bytes.size_overwrite hroom

theorem bytes_append {buffer : Buffer} {bytes : List UInt8}
    (hroom : buffer.cursor + bytes.length ≤ buffer.capacity) :
    (buffer.append bytes).bytes = buffer.bytes ++ bytes := by
  rw [Buffer.bytes, cells_append, cursor_append]
  have hlength : (buffer.bytes ++ bytes).length = buffer.cursor + bytes.length := by
    rw [List.length_append, length_bytes_of_le (by omega)]
  rw [← hlength]
  exact List.take_left

/-- What is appended at the beginning is all that is written. -/
theorem written_append {buffer : Buffer} {bytes : List UInt8} (hstart : buffer.cursor = 0)
    (hroom : buffer.cursor + bytes.length ≤ buffer.capacity) :
    (buffer.append bytes).written = bytes.toByteArray := by
  have hbytes : buffer.bytes = [] := by
    rw [Buffer.bytes, hstart, List.take_zero]
  rw [← Bytes.toByteArray_toList (buffer.append bytes).written, toList_written,
    bytes_append hroom, hbytes, List.nil_append]

theorem append_valid {buffer : Buffer} (hvalid : buffer.Valid) {bytes : List UInt8}
    (hroom : buffer.cursor + bytes.length ≤ buffer.capacity) : (buffer.append bytes).Valid where
  cursor_le := by
    rw [cursor_append, capacity_append hroom]
    exact hroom
  capacity_le := by
    rw [capacity_append hroom]
    exact hvalid.capacity_le

theorem append_nil (buffer : Buffer) : buffer.append [] = buffer := by
  apply ext_cells
  · rw [cells_append, Buffer.bytes, List.append_nil, List.length_nil, Nat.add_zero]
    exact List.take_append_drop _ _
  · rw [cursor_append, List.length_nil, Nat.add_zero]

theorem append_append {buffer : Buffer} {first second : List UInt8}
    (hroom : buffer.cursor + first.length ≤ buffer.capacity) :
    (buffer.append first).append second = buffer.append (first ++ second) := by
  apply ext_cells
  · rw [cells_append, bytes_append hroom, cells_append, cells_append, cursor_append]
    have hlength : (buffer.bytes ++ first).length = buffer.cursor + first.length := by
      rw [List.length_append, length_bytes_of_le (by omega)]
    rw [← hlength, List.drop_append, List.drop_eq_nil_of_le (by omega), List.drop_drop, hlength,
      List.length_append]
    simp only [List.append_assoc, List.nil_append]
    congr 4
    omega
  · simp only [cursor_append, List.length_append]
    omega

/-! ## Extension -/

theorem Extends.valid {earlier later : Buffer} (hextends : earlier.Extends later)
    (hvalid : earlier.Valid) : later.Valid where
  cursor_le := hextends.cursor_le_capacity
  capacity_le := by
    rw [hextends.capacity_eq]
    exact hvalid.capacity_le

theorem Valid.extends_self {buffer : Buffer} (hvalid : buffer.Valid) : buffer.Extends buffer :=
  ⟨rfl, Nat.le_refl _, hvalid.cursor_le, rfl⟩

theorem Extends.trans {first second third : Buffer} (hfirst : first.Extends second)
    (hsecond : second.Extends third) : first.Extends third where
  capacity_eq := hsecond.capacity_eq.trans hfirst.capacity_eq
  cursor_le := Nat.le_trans hfirst.cursor_le hsecond.cursor_le
  cursor_le_capacity := hsecond.cursor_le_capacity
  take_cells := by
    have htake := congrArg (List.take first.cursor) hsecond.take_cells
    rw [List.take_take, Nat.min_eq_left hfirst.cursor_le, Buffer.bytes, List.take_take,
      Nat.min_eq_left hfirst.cursor_le] at htake
    rw [htake]
    exact hfirst.take_cells

theorem extends_append {buffer : Buffer} {bytes : List UInt8}
    (hroom : buffer.cursor + bytes.length ≤ buffer.capacity) :
    buffer.Extends (buffer.append bytes) where
  capacity_eq := capacity_append hroom
  cursor_le := by
    rw [cursor_append]
    exact Nat.le_add_right _ _
  cursor_le_capacity := by
    rw [cursor_append, capacity_append hroom]
    exact hroom
  take_cells := by
    rw [cells_append, List.append_assoc]
    exact List.take_left' (length_bytes_of_le (by omega))

/-- Taken back to an earlier cursor, a buffer shows what it showed there. -/
theorem Extends.bytes_rewind {earlier later : Buffer} (hextends : earlier.Extends later) :
    (later.rewind earlier.checkpoint).bytes = earlier.bytes :=
  hextends.take_cells

theorem Extends.rewind_valid {earlier later : Buffer} (hextends : earlier.Extends later)
    (hvalid : earlier.Valid) : (later.rewind earlier.checkpoint).Valid where
  cursor_le := Nat.le_trans hextends.cursor_le hextends.cursor_le_capacity
  capacity_le := (hextends.valid hvalid).capacity_le

/-- It also has the room that it had there. -/
theorem Extends.remaining_rewind {earlier later : Buffer} (hextends : earlier.Extends later) :
    (later.rewind earlier.checkpoint).remaining = earlier.remaining :=
  congrArg (· - earlier.cursor) hextends.capacity_eq

/-! ## Reserved headers -/

@[simp] theorem cursor_skip (buffer : Buffer) (count : Nat) :
    (buffer.skip count).cursor = buffer.cursor + count := rfl

@[simp] theorem capacity_skip (buffer : Buffer) (count : Nat) :
    (buffer.skip count).capacity = buffer.capacity := rfl

/-- What fits behind a header fits behind the skipped one. -/
theorem skip_room {buffer : Buffer} {count length : Nat}
    (hroom : buffer.cursor + (count + length) ≤ buffer.capacity) :
    (buffer.skip count).cursor + length ≤ (buffer.skip count).capacity := by
  rw [cursor_skip, capacity_skip]
  omega

theorem skip_extends {buffer : Buffer} {count : Nat}
    (hroom : buffer.cursor + count ≤ buffer.capacity) : buffer.Extends (buffer.skip count) :=
  ⟨rfl, Nat.le_add_right _ _, hroom, rfl⟩

/-- A skipped header shows whatever was in its place before. -/
theorem bytes_skip (buffer : Buffer) (count : Nat) :
    (buffer.skip count).bytes = buffer.bytes ++ (buffer.cells.drop buffer.cursor).take count :=
  List.take_add ..

theorem bytes_append_skip {buffer : Buffer} {count : Nat} {content : List UInt8}
    (hroom : buffer.cursor + (count + content.length) ≤ buffer.capacity) :
    ∃ header : List UInt8, header.length = count ∧
      ((buffer.skip count).append content).bytes = buffer.bytes ++ (header ++ content) := by
  refine ⟨(buffer.cells.drop buffer.cursor).take count, ?_, ?_⟩
  · have hcells := length_cells buffer
    rw [List.length_take, List.length_drop]
    omega
  · rw [bytes_append (skip_room hroom), bytes_skip, List.append_assoc]

theorem cells_patch (buffer : Buffer) (start : Nat) (header : List UInt8) :
    (buffer.patch start header.toByteArray).cells =
      buffer.cells.take start ++ header ++ buffer.cells.drop (start + header.length) := by
  simp only [patch, cells, Bytes.toList_overwrite, Bytes.toList_toByteArray,
    List.size_toByteArray]

theorem capacity_patch {buffer : Buffer} {start : Nat} {header : List UInt8}
    (hroom : start + header.length ≤ buffer.capacity) :
    (buffer.patch start header.toByteArray).capacity = buffer.capacity :=
  Bytes.size_overwrite hroom

/-- Filling in a header replaces it and keeps everything around it. -/
theorem bytes_patch {buffer : Buffer} (hvalid : buffer.Valid) {before old after new : List UInt8}
    (hbytes : buffer.bytes = before ++ (old ++ after)) (hlength : new.length = old.length) :
    (buffer.patch before.length new.toByteArray).bytes = before ++ (new ++ after) := by
  have hcursor : (before ++ (new ++ after)).length = buffer.cursor := by
    rw [← length_bytes hvalid, hbytes]
    simp only [List.length_append, hlength]
  have hcells := List.take_append_drop buffer.cursor buffer.cells
  change buffer.bytes ++ _ = _ at hcells
  rw [hbytes] at hcells
  -- The cells behind the cursor are out of the reach of the patch.
  generalize buffer.cells.drop buffer.cursor = unused at hcells
  have htake : buffer.cells.take before.length = before := by
    rw [← hcells, List.append_assoc]
    exact List.take_left
  have hdrop : buffer.cells.drop (before.length + new.length) = after ++ unused := by
    rw [← hcells, ← List.append_assoc before, List.append_assoc (before ++ old), hlength]
    exact List.drop_left' (List.length_append)
  have hpatched : (buffer.patch before.length new.toByteArray).cells =
      before ++ (new ++ after) ++ unused := by
    rw [cells_patch, htake, hdrop]
    simp only [List.append_assoc]
  rw [Buffer.bytes, hpatched]
  change List.take buffer.cursor _ = _
  rw [← hcursor]
  exact List.take_left

theorem patch_valid {buffer : Buffer} (hvalid : buffer.Valid) {start : Nat} {header : List UInt8}
    (hroom : start + header.length ≤ buffer.cursor) :
    (buffer.patch start header.toByteArray).Valid := by
  have hcursor := hvalid.cursor_le
  have hcapacity := capacity_patch (Nat.le_trans hroom hcursor)
  constructor
  · rw [hcapacity]
    exact hcursor
  · rw [hcapacity]
    exact hvalid.capacity_le

/-- A header that was skipped and patched behind its content is one that was
stored before its content. -/
theorem patch_append_skip {buffer : Buffer} {width : Nat} {header content : List UInt8}
    (hwidth : header.length = width)
    (hroom : buffer.cursor + (header ++ content).length ≤ buffer.capacity) :
    ((buffer.skip width).append content).patch buffer.cursor header.toByteArray =
      buffer.append (header ++ content) := by
  subst hwidth
  rw [List.length_append] at hroom
  have hcells := length_cells buffer
  apply ext_cells
  · have hbytes : buffer.bytes.length = buffer.cursor := length_bytes_of_le (by omega)
    have hgap : ((buffer.cells.drop buffer.cursor).take header.length).length =
        header.length := by
      rw [List.length_take, List.length_drop]
      omega
    rw [cells_patch, cells_append, cells_append, bytes_skip]
    -- What stood in the skipped cells is unknown; only its length matters.
    generalize (buffer.cells.drop buffer.cursor).take header.length = gap at hgap ⊢
    have hbefore : (buffer.bytes ++ gap).length = buffer.cursor + header.length := by
      rw [List.length_append, hbytes, hgap]
    rw [List.append_assoc (buffer.bytes ++ gap), List.drop_left' hbefore,
      List.append_assoc buffer.bytes, List.take_left' hbytes]
    simp only [skip, cells, List.append_assoc, List.length_append, Nat.add_assoc]
  · simp only [patch, cursor_append, skip, List.length_append]
    omega

end Buffer

/-! ## Open headers -/

namespace SlotStack

variable {limit : Nat}

theorem length_toList (stack : SlotStack limit) : stack.toList.length = stack.depth := by
  have hdepth := stack.depth_le
  rw [toList, List.length_take, Vector.length_toList]
  omega

theorem toList_empty : (empty : SlotStack limit).toList = [] :=
  List.take_zero

theorem getElem?_toList (stack : SlotStack limit) (depth : Nat) :
    stack.toList[depth]? = stack.get? depth := by
  rw [toList, List.getElem?_take, Vector.getElem?_toList, get?]

theorem getLast?_toList (stack : SlotStack limit) : stack.toList.getLast? = stack.top? := by
  rw [List.getLast?_eq_getElem?, length_toList, getElem?_toList, get?, top?]
  by_cases hdepth : stack.depth = 0
  · rw [if_pos hdepth, if_neg (by omega)]
  · rw [if_neg hdepth, if_pos (by omega)]

theorem toList_push {stack : SlotStack limit} (slot : Slot) (hdepth : stack.depth < limit) :
    ∃ pushed, stack.push slot = .ok pushed ∧ pushed.toList = stack.toList ++ [slot] := by
  refine ⟨_, dif_pos hdepth, ?_⟩
  have hlength : stack.depth < stack.places.toList.length := by
    rw [Vector.length_toList]
    exact hdepth
  have htake : (stack.places.toList.take stack.depth).length = stack.depth := by
    rw [List.length_take]
    omega
  rw [toList, Vector.toList_set, List.set_eq_take_append_cons_drop, if_pos hlength]
  simp only [toList, List.take_append, htake, Nat.add_sub_cancel_left, List.take_take,
    List.take_succ_cons, List.take_zero]
  rw [Nat.min_eq_right (by omega)]

theorem toList_truncate (stack : SlotStack limit) (depth : Nat) :
    (stack.truncate depth).toList = stack.toList.take depth := by
  rw [toList, toList, List.take_take, Nat.min_comm]
  rfl

theorem toList_clear (stack : SlotStack limit) : stack.clear.toList = [] :=
  (stack.toList_truncate 0).trans List.take_zero

/-- A stack without a place left takes no more headers. -/
theorem push_of_le {stack : SlotStack limit} (slot : Slot) (hdepth : limit ≤ stack.depth) :
    stack.push slot = .error (.nestingTooDeep limit) :=
  dif_neg (Nat.not_lt_of_le hdepth)

theorem toList_pop (stack : SlotStack limit) : stack.pop.2.toList = stack.toList.dropLast := by
  rw [pop, toList_truncate, List.dropLast_eq_take, length_toList]

/-- Taking the innermost header off leaves the others. -/
theorem pop_of_toList {stack : SlotStack limit} {outer : List Slot} {slot : Slot}
    (hlist : stack.toList = outer ++ [slot]) :
    ∃ popped, stack.pop = (some slot, popped) ∧ popped.toList = outer := by
  have htop : stack.top? = some slot := by
    rw [← getLast?_toList, hlist, List.getLast?_concat]
  have hpopped : stack.pop.2.toList = outer := by
    rw [toList_pop, hlist, List.dropLast_concat]
  exact ⟨stack.pop.2, congrArg (·, stack.pop.2) htop, hpopped⟩

end SlotStack

end TelemetryExport
