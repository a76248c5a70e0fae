import Mathlib.Algebra.Group.Nat.Defs
import Mathlib.Order.Bounds.Defs
import TelemetryExport.Proofs.Varint

/-! # Variable-length integers in a storage

A number is stored at a cursor where all of it fits, in no more bytes than it needs or in the
three of the padded form, and is read back from there whatever stands behind it. The reader
takes any bytes: it stops at the first one that has a clear top bit, and finds nothing where
none of the next ten has.
-/

namespace TelemetryExport

namespace Varint

/-! ## The fewest groups -/

theorem lt_pow_length_groups (n : Nat) : n < 128 ^ (groups n).length := by
  induction n using Nat.strongRecOn with
  | ind n ih =>
      by_cases hn : n < 128
      · rw [groups_of_lt hn, List.length_singleton, Nat.pow_one]
        exact hn
      · have hle := Nat.le_of_not_lt hn
        have hquotient := ih (n / 128) (by omega)
        rw [groups_of_le hle, List.length_cons, Nat.pow_succ]
        omega

theorem length_groups_le_of_lt {n count : Nat} (hcount : 0 < count) (hn : n < 128 ^ count) :
    (groups n).length ≤ count := by
  induction count generalizing n with
  | zero => exact absurd hcount (Nat.lt_irrefl 0)
  | succ count ih =>
      by_cases hsmall : n < 128
      · rw [groups_of_lt hsmall, List.length_singleton]
        exact hcount
      · have hle := Nat.le_of_not_lt hsmall
        rw [Nat.pow_succ] at hn
        have hmore : 0 < count := by
          rcases Nat.eq_zero_or_pos count with rfl | hpos
          · rw [Nat.pow_zero] at hn
            omega
          · exact hpos
        rw [groups_of_le hle, List.length_cons]
        exact Nat.succ_le_succ (ih hmore (by omega))

/-- The length from the highest bit is the least number of groups of seven bits, of which
there is always one. -/
theorem isLeast_length (value : UInt64) :
    IsLeast {count | 0 < count ∧ value.toNat < 128 ^ count} (length value) := by
  rw [length_eq]
  exact ⟨⟨length_groups_pos _, lt_pow_length_groups _⟩,
    fun _ hcount => length_groups_le_of_lt hcount.1 hcount.2⟩

/-! ## Reading any bytes -/

/-- The number whose groups of seven bits stand in the bytes, least significant first. -/
def groupsValue : List UInt8 → Nat
  | [] => 0
  | byte :: rest => byte.toNat % 128 + 128 * groupsValue rest

/-- The byte at the index has a clear top bit, and is the first that has. -/
structure EndsAt (bytes : List UInt8) (index : Nat) : Prop where
  clear : ∃ byte, bytes[index]? = some byte ∧ byte.toNat < 128
  marked : ∀ earlier < index, ∀ byte, bytes[earlier]? = some byte → 128 ≤ byte.toNat

theorem decode_of_endsAt {limit index : Nat} {bytes : List UInt8} (hends : EndsAt bytes index)
    (hindex : index < limit) :
    decode limit bytes = some (groupsValue (bytes.take (index + 1)), index + 1) := by
  induction limit generalizing bytes index with
  | zero => exact absurd hindex (Nat.not_lt_zero _)
  | succ limit ih =>
      obtain ⟨⟨last, hlast, hclear⟩, hmarked⟩ := hends
      cases bytes with
      | nil => cases hlast
      | cons byte rest =>
          cases index with
          | zero =>
              rw [List.getElem?_cons_zero, Option.some_inj] at hlast
              subst hlast
              rw [decode, if_pos hclear, List.take_succ_cons, List.take_zero, groupsValue,
                groupsValue, Nat.mod_eq_of_lt hclear]
              rfl
          | succ index =>
              have hbyte := hmarked 0 (Nat.zero_lt_succ _) byte rfl
              have hbound := byte.toNat_lt
              have hrest : EndsAt rest index :=
                ⟨⟨last, hlast, hclear⟩, fun earlier hearlier =>
                  hmarked (earlier + 1) (Nat.succ_lt_succ hearlier)⟩
              have hgroup : byte.toNat - 128 = byte.toNat % 128 := by omega
              rw [decode, if_neg (by omega), ih hrest (Nat.lt_of_succ_lt_succ hindex),
                List.take_succ_cons, groupsValue, Option.map_some, hgroup]

theorem isSome_decode_iff {limit : Nat} {bytes : List UInt8} : (decode limit bytes).isSome ↔
    ∃ index < limit, ∃ byte, bytes[index]? = some byte ∧ byte.toNat < 128 := by
  induction limit generalizing bytes with
  | zero => simp [decode]
  | succ limit ih =>
      cases bytes with
      | nil => simp [decode]
      | cons byte rest =>
          by_cases hclear : byte.toNat < 128
          · rw [decode, if_pos hclear]
            exact iff_of_true rfl ⟨0, Nat.zero_lt_succ _, byte, rfl, hclear⟩
          · rw [decode, if_neg hclear, Option.isSome_map, ih]
            constructor
            · rintro ⟨index, hindex, hfound⟩
              exact ⟨index + 1, Nat.succ_lt_succ hindex, hfound⟩
            · rintro ⟨index, hindex, found, hget, hfound⟩
              cases index with
              | zero =>
                  rw [List.getElem?_cons_zero, Option.some_inj] at hget
                  exact absurd (hget ▸ hfound) hclear
              | succ index => exact ⟨index, Nat.lt_of_succ_lt_succ hindex, found, hget, hfound⟩

/-- No byte past the limit is looked at. -/
theorem decode_take (limit : Nat) (bytes : List UInt8) :
    decode limit (bytes.take limit) = decode limit bytes := by
  induction limit generalizing bytes with
  | zero => rfl
  | succ limit ih =>
      cases bytes with
      | nil => rfl
      | cons byte rest => rw [List.take_succ_cons, decode, decode, ih]

/-- The bytes of a storage from a cursor on. -/
def following (storage : ByteArray) (cursor : Nat) : List UInt8 :=
  storage.data.toList.drop cursor

theorem toList_extract_eq_take_following (storage : ByteArray) (start length : Nat) :
    (storage.extract start (start + length)).data.toList =
      (following storage start).take length := by
  rw [ByteArray.data_extract, Array.toList_extract, List.extract_eq_take_drop,
    Nat.add_sub_cancel_left]
  rfl

theorem read_eq (storage : ByteArray) (cursor : Nat) :
    read storage cursor = (decode maxLength (following storage cursor)).map
      fun (value, count) => (UInt64.ofNat value, cursor + count) := by
  rw [read, toList_extract_eq_take_following, decode_take]

/-! ## Storing -/

/-- A number is stored in `length` bytes from the cursor on, if these fit, and all of the
number can be read there. -/
structure Stores (storage : ByteArray) (cursor length : Nat) (value : UInt64)
    (outcome : Except EncodeError (ByteArray × Nat)) : Prop where
  ok_iff : (∃ stored, outcome = .ok stored) ↔ cursor + length ≤ storage.size
  eq_error : storage.size < cursor + length →
    outcome = .error (.bufferOverflow cursor length storage.size)
  /-- The bytes before the cursor and behind the number are those of before. -/
  keeps : ∀ after stop, outcome = .ok (after, stop) → stop = cursor + length ∧
    after.size = storage.size ∧
    ∀ index, index < cursor ∨ stop ≤ index →
      after.data.toList[index]? = storage.data.toList[index]?
  /-- The reader needs no more than the bytes that were stored. -/
  reads : ∀ after stop, outcome = .ok (after, stop) → ∀ other : ByteArray,
    other.extract cursor stop = after.extract cursor stop →
      read other cursor = some (value, stop)

variable {storage : ByteArray} {cursor : Nat}

theorem stores_of_checkRoom (storage : ByteArray) (cursor : Nat) {bytes : List UInt8}
    {value : UInt64}
    (hdecode : ∀ rest, decode maxLength (bytes ++ rest) = some (value.toNat, bytes.length)) :
    Stores storage cursor bytes.length value (do
      checkRoom storage.size cursor bytes.length
      return (Bytes.overwrite storage cursor bytes.toByteArray, cursor + bytes.length)) := by
  by_cases hroom : cursor + bytes.length ≤ storage.size
  · rw [Encode.checkRoom_of_le hroom]
    refine ⟨iff_of_true ⟨_, rfl⟩ hroom, fun hshort => absurd hroom (Nat.not_le_of_lt hshort),
      ?_, ?_⟩
    · rintro after stop hok
      cases hok
      exact ⟨rfl, Bytes.size_overwrite hroom, fun _ => Bytes.getElem?_overwrite hroom⟩
    · rintro after stop hok other hother
      cases hok
      have hstored : (following (Bytes.overwrite storage cursor bytes.toByteArray) cursor).take
          bytes.length = bytes := Bytes.take_drop_overwrite hroom
      have hbytes := congrArg (·.data.toList) hother
      simp only [toList_extract_eq_take_following, hstored] at hbytes
      have hsplit := List.take_append_drop bytes.length (following other cursor)
      rw [hbytes] at hsplit
      rw [read_eq, ← hsplit, hdecode, Option.map_some]
      simp only [UInt64.ofNat_toNat]
  · rw [Encode.checkRoom_of_lt (Nat.lt_of_not_le hroom)]
    refine ⟨iff_of_false ?_ hroom, fun _ => rfl, ?_, ?_⟩
    · rintro ⟨_, hok⟩
      cases hok
    · rintro _ _ hok
      cases hok
    · rintro _ _ hok
      cases hok

theorem stores_write (storage : ByteArray) (cursor : Nat) (value : UInt64) :
    Stores storage cursor (length value) value (write storage cursor value) := by
  have hstores := stores_of_checkRoom storage cursor (decode_groups_of_uint64 value)
  rw [← length_eq] at hstores
  have hsize : (encode value).size = length value := by
    rw [encode, List.size_toByteArray, length_eq]
  simp only [write, hsize]
  exact hstores

theorem stores_writePadded (storage : ByteArray) (cursor : Nat) {n : Nat} (hn : n < 2 ^ 21) :
    Stores storage cursor 3 (UInt64.ofNat n) (writePadded storage cursor n) := by
  have hmax : n ≤ paddedMax := Nat.le_of_lt_succ hn
  have hvalue : (UInt64.ofNat n).toNat = n := by
    rw [UInt64.toNat_ofNat']
    omega
  have hdecode : ∀ rest, decode maxLength (padded n ++ rest) =
      some ((UInt64.ofNat n).toNat, (padded n).length) := by
    intro rest
    rw [hvalue, length_padded]
    exact decode_padded hmax rest
  have hstores := stores_of_checkRoom storage cursor hdecode
  rw [writePadded, if_neg (Nat.not_lt_of_le hmax)]
  exact hstores

/-! ## The codec -/

/-- All that is promised of the varints of a storage at a cursor, wherever that is. -/
structure Codec (storage : ByteArray) (cursor : Nat) : Prop where
  isLeast_length : ∀ value, IsLeast {count | 0 < count ∧ value.toNat < 128 ^ count} (length value)
  stores_write : ∀ value, Stores storage cursor (length value) value (write storage cursor value)
  stores_writePadded : ∀ n < 2 ^ 21,
    Stores storage cursor 3 (UInt64.ofNat n) (writePadded storage cursor n)
  writePadded_eq_error : ∀ n, 2 ^ 21 ≤ n → writePadded storage cursor n = .error (.lengthOverflow n)
  isSome_read_iff : (read storage cursor).isSome ↔
    ∃ index < 10, ∃ byte, storage.data.toList[cursor + index]? = some byte ∧ byte.toNat < 128
  /-- The value is cut to 64 bits. -/
  read_of_endsAt : ∀ index < 10, EndsAt (following storage cursor) index →
    read storage cursor =
      some (UInt64.ofNat (groupsValue ((following storage cursor).take (index + 1))),
        cursor + index + 1)
  /-- A buffer of this storage writes at this cursor, and is left alone where that fails. -/
  writeVarint_eq : ∀ value, Encode.writeVarint value ⟨storage, cursor⟩ =
    match write storage cursor value with
    | .ok (stored, stop) => .ok () ⟨stored, stop⟩
    | .error fault => .error fault ⟨storage, cursor⟩

theorem codec (storage : ByteArray) (cursor : Nat) : Codec storage cursor where
  isLeast_length := isLeast_length
  stores_write := stores_write storage cursor
  stores_writePadded := fun _ => stores_writePadded storage cursor
  writePadded_eq_error := by
    intro n hn
    have hmax : paddedMax < n := hn
    rw [writePadded, if_pos hmax]
    rfl
  isSome_read_iff := by
    rw [read_eq, Option.isSome_map, isSome_decode_iff]
    simp only [following, List.getElem?_drop, maxLength]
  read_of_endsAt := by
    intro index hindex hends
    have hdecode : decode maxLength (following storage cursor) = _ :=
      decode_of_endsAt hends hindex
    rw [read_eq, hdecode, Option.map_some, Nat.add_assoc]
  writeVarint_eq := by
    intro value
    rw [Encode.writeVarint, write]
    cases hcheck : checkRoom storage.size cursor (length value) with
    | ok => simp only [Buffer.capacity, hcheck]; rfl
    | error fault => simp only [Buffer.capacity, hcheck]; rfl

end Varint

end TelemetryExport
