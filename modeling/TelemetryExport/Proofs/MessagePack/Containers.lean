import TelemetryExport.MessagePack.OpenMap
import TelemetryExport.Proofs.MessagePack.Formats

/-! # Arrays and maps

A container is its header and what it holds. Every element takes a byte at least,
so that within a payload no count exceeds what the headers can say, and the count
that is filled in when a map closes is always that of its entries.
-/

namespace TelemetryExport

/-- The entry of a map that a property is. -/
def Attribute.entryBytes (property : Attribute) : List UInt8 :=
  MessagePack.textBytes property.key ++ MessagePack.scalarBytes property.value

/-- The entry as it is read. -/
def Attribute.entry (property : Attribute) : MessagePack.Value × MessagePack.Value :=
  (.ofText property.key, .ofScalar property.value)

namespace MessagePack

open Encode Value

/-! ## Arrays -/

def arrayHeader (count : Nat) : List UInt8 :=
  if count < 16 then [UInt8.ofNat (0x90 + count)]
  else if count ≤ 0xFFFF then 0xDC :: (Bytes.digits 2 count).reverse
  else 0xDD :: (Bytes.digits 4 count).reverse

theorem writes_arrayHeader (count : Nat) :
    Writes (writeArrayHeader count) (arrayHeader count) () := by
  rw [writeArrayHeader, arrayHeader]
  by_cases hshort : count < 16
  · rw [if_pos hshort, if_pos hshort]
    exact writes_writeByte _
  rw [if_neg hshort, if_neg hshort]
  by_cases hlong : count ≤ 0xFFFF
  · rw [if_pos hlong, if_pos hlong]
    exact (writes_writeByte _).seq (writes_writeBigEndian 2 count)
  · rw [if_neg hlong, if_neg hlong]
    exact (writes_writeByte _).seq (writes_writeBigEndian 4 count)

theorem length_pos_arrayHeader (count : Nat) : 0 < (arrayHeader count).length := by
  rw [arrayHeader]
  by_cases hshort : count < 16
  · rw [if_pos hshort]
    exact Nat.zero_lt_succ _
  rw [if_neg hshort]
  by_cases hlong : count ≤ 0xFFFF
  · rw [if_pos hlong]
    exact Nat.zero_lt_succ _
  · rw [if_neg hlong]
    exact Nat.zero_lt_succ _

theorem readWith_arrayHeader {count : Nat} (hcount : count ≤ maxPayloadSize) (fuel : Nat)
    (bytes : List UInt8) :
    readWith (fuel + 1) (arrayHeader count ++ bytes) =
      (readItems fuel count bytes).bind fun (items, rest) => some (.array items, rest) := by
  change count ≤ 65360 at hcount
  rw [arrayHeader]
  by_cases hshort : count < 16
  · rw [if_pos hshort]
    exact readWith_shortArray fuel bytes hshort
  · rw [if_neg hshort, if_pos (by omega), List.cons_append, readWith_array16,
      unsigned?_digits (show count < 65536 by omega), Option.bind_some]

/-- The header of an array counts exactly its elements. -/
theorem encodes_array {bytes : List UInt8} {values : List Value}
    (hitems : EncodesItems bytes values) :
    Encodes (arrayHeader values.length ++ bytes) (.array values) := by
  have hheader := length_pos_arrayHeader values.length
  apply encodes_of_reads
  · rw [List.length_append]
    omega
  · intro hpayload fuel rest hfuel
    rw [List.length_append] at hpayload hfuel
    have hcount := hitems.length_le
    rw [List.append_assoc, readWith_arrayHeader (by omega),
      hitems.reads (by omega) fuel rest (by omega), Option.bind_some]

/-! ## Maps -/

/-- The header of a map counts exactly its entries, whatever was reserved for it. -/
theorem encodes_map {bytes : List UInt8} {entries : List (Value × Value)}
    (hentries : EncodesEntries bytes entries) :
    Encodes (Slot.countedHeader Slot.map16 entries.length ++ bytes) (.map entries) := by
  have hheader : Slot.countedHeader Slot.map16 entries.length =
      0xDE :: (Bytes.digits 2 entries.length).reverse := rfl
  have hwidth : (Slot.countedHeader Slot.map16 entries.length).length = 3 := rfl
  apply encodes_of_reads
  · rw [List.length_append, hwidth]
    omega
  · intro hpayload fuel rest hfuel
    rw [List.length_append, hwidth] at hpayload hfuel
    change _ ≤ 65360 at hpayload
    have hcount := hentries.length_le
    rw [hheader, List.append_assoc, List.cons_append, readWith_map16,
      unsigned?_digits (show entries.length < 65536 by omega), Option.bind_some]
    have hreads := hentries.reads (by change _ ≤ 65360; omega) fuel rest (by omega)
    simp only [hreads, Option.bind_some]

theorem encodes_smallMap {bytes : List UInt8} {entries : List (Value × Value)}
    (hentries : EncodesEntries bytes entries) (hcount : entries.length < 16) :
    Encodes (UInt8.ofNat (0x80 + entries.length) :: bytes) (.map entries) := by
  apply encodes_of_reads
  · exact Nat.zero_lt_succ _
  · intro hpayload fuel rest hfuel
    rw [List.length_cons] at hpayload hfuel
    rw [List.cons_append, readWith_shortMap fuel _ hcount,
      hentries.reads (by omega) fuel rest (by omega), Option.bind_some]

/-- The entries of properties, one after the other. -/
theorem encodes_properties (properties : List Attribute) :
    EncodesEntries (properties.flatMap Attribute.entryBytes)
      (properties.map Attribute.entry) := by
  induction properties with
  | nil => exact .nil
  | cons property rest ih =>
      exact .cons (encodes_text property.key) (encodes_scalar property.value) ih

/-! ## Writers of values -/

/-- The computation writes the bytes, and they are read as the value. -/
structure Emits (action : Encode Unit) (bytes : List UInt8) (value : Value) : Prop where
  writes : Writes action bytes ()
  encodes : Encodes bytes value

/-- Where such a computation succeeded, what it appended is read as the value, to the end. -/
theorem Emits.read_of_ok {action : Encode Unit} {bytes : List UInt8} {value : Value}
    (hemits : Emits action bytes value) {buffer after : Buffer} (hvalid : buffer.Valid)
    (hok : action buffer = .ok () after) :
    after.bytes = buffer.bytes ++ bytes ∧ Value.read bytes = some (value, []) := by
  obtain ⟨hroom, -, rfl⟩ := hemits.writes.of_ok hvalid hok
  have hcapacity := hvalid.capacity_le
  exact ⟨Buffer.bytes_append hroom, hemits.encodes.read (by omega)⟩

theorem Emits.ok_withCapacity {action : Encode Unit} {bytes : List UInt8} {value : Value}
    (hemits : Emits action bytes value) {capacity : Nat} (hlength : bytes.length ≤ capacity)
    (hcapacity : capacity ≤ maxPayloadSize) :
    action (Buffer.withCapacity capacity) =
      .ok () ((Buffer.withCapacity capacity).append bytes) := by
  apply hemits.writes.appends _ (Buffer.withCapacity_valid capacity)
  have hcursor : (Buffer.withCapacity capacity).cursor = 0 := rfl
  rw [hcursor, Nat.zero_add, Buffer.capacity_withCapacity, Nat.min_eq_left hcapacity]
  exact hlength

theorem emits_scalar (value : Scalar) :
    Emits (writeScalar value) (scalarBytes value) (.ofScalar value) :=
  ⟨writes_scalar value, encodes_scalar value⟩

theorem emits_time {time : Time} (htime : time.inCalendar = true) :
    Emits (writeTime time) (timeBytes time) (.ofTime time) :=
  ⟨writes_time htime, encodes_time time⟩

/-- An array whose header is written with the number of the elements that follow. -/
theorem emits_array {ι : Type} {write : ι → Encode Unit} {bytes : ι → List UInt8}
    {value : ι → Value} {items : List ι}
    (hwrite : ∀ item ∈ items, Emits (write item) (bytes item) (value item)) :
    Emits (do writeArrayHeader items.length; items.forM write)
      (arrayHeader items.length ++ items.flatMap bytes) (.array (items.map value)) := by
  constructor
  · exact (writes_arrayHeader items.length).seq (Writes.forM fun item hmem =>
      (hwrite item hmem).writes)
  · have hitems : EncodesItems (items.flatMap bytes) (items.map value) := by
      induction items with
      | nil => exact .nil
      | cons item rest ih =>
          exact .cons (hwrite item List.mem_cons_self).encodes
            (ih fun other hmem => hwrite other (List.mem_cons_of_mem _ hmem))
    have hencodes := encodes_array hitems
    rw [List.length_map] at hencodes
    exact hencodes

/-! ## Maps of unknown size -/

namespace OpenMap

/-- The computation adds the entries to an open map: it writes their bytes and counts each
of them. -/
structure Adds (fill : OpenMap → Encode OpenMap) (bytes : List UInt8)
    (entries : List (Value × Value)) : Prop where
  writes : ∀ map : OpenMap, Writes (fill map) bytes { map with
    count := map.count + entries.length }
  encodes : EncodesEntries bytes entries

theorem adds_nothing : Adds pure [] [] :=
  ⟨fun map => writes_pure map, .nil⟩

theorem Adds.bind {first second : OpenMap → Encode OpenMap} {bytes later : List UInt8}
    {entries more : List (Value × Value)} (hfirst : Adds first bytes entries)
    (hsecond : Adds second later more) :
    Adds (fun map => first map >>= second) (bytes ++ later) (entries ++ more) where
  writes := by
    intro map
    have hcount : map.count + (entries ++ more).length =
        map.count + entries.length + more.length := by
      rw [List.length_append, Nat.add_assoc]
    rw [hcount]
    exact (hfirst.writes map).bind (hsecond.writes _)
  encodes := hfirst.encodes.append hsecond.encodes

theorem adds_entry (key : String) {writeValue : Encode Unit} {bytes : List UInt8} {value : Value}
    (hvalue : Emits writeValue bytes value) :
    Adds (fun map => map.entry key writeValue) (textBytes key ++ bytes)
      [(.ofText key, value)] where
  writes := by
    intro map
    have hentry := (writes_text key).seq (hvalue.writes.seq (writes_pure { map with
      count := map.count + 1 }))
    rw [List.append_nil] at hentry
    exact hentry
  encodes := .single (encodes_text key) hvalue.encodes

theorem adds_foldlM {ι : Type} {step : OpenMap → ι → Encode OpenMap} {bytes : ι → List UInt8}
    {entry : ι → Value × Value} {items : List ι}
    (hstep : ∀ item ∈ items, Adds (fun map => step map item) (bytes item) [entry item]) :
    Adds (fun map => items.foldlM step map) (items.flatMap bytes) (items.map entry) := by
  induction items with
  | nil => exact adds_nothing
  | cons item rest ih =>
      have hrest := ih fun other hmem => hstep other (List.mem_cons_of_mem _ hmem)
      exact (hstep item List.mem_cons_self).bind hrest

/-- Properties that have a value are all written and counted. -/
theorem adds_fields {properties : List Attribute}
    (hvalues : ∀ property ∈ properties, property.value.isNull = false) :
    Adds (fun map => map.fields properties) (properties.flatMap Attribute.entryBytes)
      (properties.map Attribute.entry) := by
  apply adds_foldlM
  intro property hmem
  have hentry := adds_entry property.key (emits_scalar property.value)
  simp only [field, hvalues property hmem, if_neg Bool.false_ne_true]
  exact hentry

/-- Entries that are copied as they were encoded before, and counted together. -/
theorem adds_copy {copy : Encode Unit} {bytes : List UInt8} {entries : List (Value × Value)}
    (hcopy : Writes copy bytes ()) (hentries : EncodesEntries bytes entries) :
    Adds (fun map => do copy; return { map with count := map.count + entries.length })
      bytes entries where
  writes := by
    intro map
    have hwrites := hcopy.seq (writes_pure { map with count := map.count + entries.length })
    rw [List.append_nil] at hwrites
    exact hwrites
  encodes := hentries

/-- A map that is opened, filled and closed. Its entries are never more than the bytes
of a payload, so that a count of 16 bits always holds their number. -/
theorem Adds.emits_map {fill : OpenMap → Encode OpenMap} {bytes : List UInt8}
    {entries : List (Value × Value)} (hadds : Adds fill bytes entries) :
    Emits (do let map ← start; let map ← fill map; map.close)
      (Slot.countedHeader Slot.map16 entries.length ++ bytes) (.map entries) := by
  refine ⟨?_, encodes_map hadds.encodes⟩
  have hwidth : (Slot.countedHeader Slot.map16 entries.length).length = Slot.countedWidth := rfl
  have hbody : ∀ slot : Slot, Writes (fill ⟨slot, 0⟩) bytes ⟨slot, 0 + entries.length⟩ :=
    fun slot => hadds.writes ⟨slot, 0⟩
  have haction : (do let map ← start; let map ← fill map; map.close) =
      (Encode.reserve Slot.countedWidth >>= fun slot => fill ⟨slot, 0⟩ >>= close) := by
    simp only [start, reserveCounted, bind_assoc, pure_bind]
  rw [haction]
  -- The count is patched at the end. It fits, because every entry takes a byte at least.
  refine Writes.reserve hwidth hbody ?_
  intro slot buffer hvalid _ hcursor
  have hcount := hadds.encodes.length_le
  have hle := hvalid.cursor_le
  have hcapacity : buffer.capacity ≤ 65360 := hvalid.capacity_le
  simp only [close, patchMap, patchCounted, Nat.zero_add]
  rw [if_neg (by omega)]

end OpenMap

end MessagePack

end TelemetryExport
