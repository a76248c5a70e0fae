import TelemetryExport.Proofs.Record.DistinctKeys
import TelemetryExport.Proofs.Record.PassThrough

/-! # The templates that can be made

A template is made for a table name and fields, or refused. Which of both follows from the
name, the keys of the fields and the length of what opens the field map. Every template
that is made knows the length of its records: with nothing but the constant fields a record
has exactly that length, and every byte of its own fields adds to it.
-/

namespace TelemetryExport

open MessagePack Encode

/-! ## Names -/

namespace TableName

/-- One to fifty letters and digits, all of ASCII, of which the first is a letter. -/
structure IsValid (name : String) : Prop where
  starts : ∃ first rest, name.toList = first :: rest ∧ first.isAlpha = true
  alphanumeric : ∀ c ∈ name.toList, c.isAlphanum = true
  length_le : name.length ≤ 50

theorem hasValidForm_iff {name : String} : hasValidForm name = true ↔
    (∃ first rest, name.toList = first :: rest ∧ first.isAlpha = true) ∧
      ∀ c ∈ name.toList, c.isAlphanum = true := by
  rw [hasValidForm]
  cases name.toList with
  | nil => simp
  | cons first rest =>
      simp only [Bool.and_eq_true, List.all_eq_true, List.forall_mem_cons, List.cons.injEq]
      constructor
      · rintro ⟨hfirst, hrest⟩
        exact ⟨⟨first, rest, ⟨rfl, rfl⟩, hfirst⟩, by rw [Char.isAlphanum, hfirst, Bool.true_or],
          hrest⟩
      · rintro ⟨⟨_, _, ⟨rfl, rfl⟩, hfirst⟩, -, hrest⟩
        exact ⟨hfirst, hrest⟩

/-- The length of a name is checked in bytes. In a name of the right form these are its
characters. -/
theorem check_eq_ok_iff_isValid {name : String} : check name = .ok () ↔ IsValid name := by
  rw [check_eq_ok_iff, hasValidForm_iff, hasValidLength]
  rw [Bool.and_eq_true, bne_iff_ne, decide_eq_true_iff, maxLength]
  constructor
  · rintro ⟨⟨-, hle⟩, hstarts, hchars⟩
    rw [Text.utf8ByteSize_eq_length hchars] at hle
    exact ⟨hstarts, hchars, hle⟩
  · rintro ⟨hstarts, hchars, hle⟩
    have hpos : name.length ≠ 0 := by
      obtain ⟨first, rest, hname, -⟩ := hstarts
      rw [← String.length_toList, hname, List.length_cons]
      exact Nat.succ_ne_zero _
    rw [Text.utf8ByteSize_eq_length hchars]
    exact ⟨⟨hpos, hle⟩, hstarts, hchars⟩

end TableName

namespace RecordTemplate

theorem checkFieldNames_eq_ok_iff {earlier : List String} {fields : List Attribute} :
    checkFieldNames earlier fields = .ok () ↔
      (fields.map Attribute.key).Nodup ∧
        ∀ name ∈ fields.map Attribute.key, name ∉ Column.reserved ∧ name ∉ earlier := by
  refine ⟨names_of_checkFieldNames, ?_⟩
  induction fields generalizing earlier with
  | nil => exact fun _ => rfl
  | cons field rest ih =>
      rintro ⟨hnodup, hfree⟩
      rw [List.map_cons, List.nodup_cons] at hnodup
      rw [List.map_cons, List.forall_mem_cons] at hfree
      obtain ⟨⟨hreserved, hrepeated⟩, hrest⟩ := hfree
      rw [← List.contains_iff_mem] at hreserved hrepeated
      rw [checkFieldNames, if_neg hreserved, if_neg hrepeated]
      -- For the fields to come this one is among the earlier ones.
      refine ih ⟨hnodup.2, fun name hmem => ⟨(hrest name hmem).1, fun hearlier => ?_⟩⟩
      rcases List.mem_cons.mp hearlier with rfl | hearlier
      · exact hnodup.1 hmem
      · exact (hrest name hmem).2 hearlier

/-! ## Lengths -/

/-- The length of the entries that open every field map of the table. -/
def partALength (table : String) (fields : List Attribute) : Nat :=
  ((partAFields table fields).flatMap Attribute.entryBytes).length

theorem length_timeBytes (time : Time) : (timeBytes time).length = timeLength := by
  rw [timeBytes, List.length_append, Value.length_time_digits]
  rfl

theorem minRecordLength_ofParts (table : String) (fields : List Attribute) :
    (ofParts table fields).minRecordLength = (prologueBytes table).length + timeLength +
      Slot.countedWidth + partALength table fields + epilogueBytes.length := by
  simp only [minRecordLength, ofParts, List.size_toByteArray, partALength]

/-- Whatever a record adds to the constant fields makes it longer by as much. -/
theorem length_recordBytes (table : String) (fields : List Attribute) (time : Time) (count : Nat)
    (content : List UInt8) :
    (recordBytes table fields time count content).length =
      (ofParts table fields).minRecordLength + content.length := by
  have hheader : (Slot.countedHeader Slot.map16
      ((partAFields table fields).length + count)).length = Slot.countedWidth := rfl
  simp only [recordBytes, minRecordLength_ofParts, List.length_append, length_timeBytes, hheader,
    partALength]
  omega

/-! ## Records without fields of their own -/

/-- Opens a record and closes it at once. -/
def writeBare (template : RecordTemplate) (time : Time) : Encode Unit := do
  let map ← template.openRecord time
  template.closeRecord map

/-- The fields of a record that has none of its own. -/
def bareFields (table : String) (fields : List Attribute) : List (Value × Value) :=
  (.ofText "env_name", .ofText table) ::
    (fields.filter (·.value ≠ .null)).map Attribute.entry

theorem bareFields_eq (table : String) (fields : List Attribute) :
    bareFields table fields = (partAFields table fields).map Attribute.entry := by
  rw [bareFields, Attribute.filter_ne_null]
  rfl

/-- The template writes the envelopes of the table with the fields. A record without fields
of its own has the least length, and its map counts and holds the constant ones. -/
structure IsFor (template : RecordTemplate) (table : String) (fields : List Attribute) :
    Prop where
  tableName_eq : template.tableName = table
  writesBare : ∀ time : Time, time.inCalendar = true → ∃ bytes stamp,
    Writes (template.writeBare time) bytes () ∧
    bytes.length = template.minRecordLength ∧
    (bytes.drop (template.prologue.size + timeLength)).take Slot.countedWidth =
      Slot.countedHeader Slot.map16 (bareFields table fields).length ∧
    Value.timestamp? stamp = some (time.seconds.toInt, time.nanoseconds.val) ∧
    (bytes.length ≤ maxPayloadSize →
      Value.read bytes = some (envelope table stamp (bareFields table fields), []))

theorem emits_writeBare (table : String) (fields : List Attribute) {time : Time}
    (htime : time.inCalendar = true) :
    Emits ((ofParts table fields).writeBare time) (recordBytes table fields time 0 [])
      (envelope table (.ofTime time) (bareFields table fields)) := by
  have hrecord := emits_openRecord table fields htime OpenMap.adds_nothing
  simp only [pure_bind, List.append_nil] at hrecord
  rw [bareFields_eq]
  exact hrecord

theorem isFor_ofParts (table : String) (fields : List Attribute) :
    (ofParts table fields).IsFor table fields where
  tableName_eq := rfl
  writesBare := by
    intro time htime
    have hemits := emits_writeBare table fields htime
    refine ⟨_, .ofTime time, hemits.writes, length_recordBytes table fields time 0 [], ?_,
      Value.timestamp?_ofTime time, hemits.encodes.read⟩
    have hfront : (prologueBytes table ++ timeBytes time).length =
        (ofParts table fields).prologue.size + timeLength := by
      rw [List.length_append, length_timeBytes, ofParts, List.size_toByteArray]
    have hcount : (bareFields table fields).length = (partAFields table fields).length + 0 := by
      rw [bareFields_eq, List.length_map, Nat.add_zero]
    rw [recordBytes, ← List.append_assoc, ← hfront, List.drop_left, hcount]
    rfl

/-- A template is made exactly for a name that is a table name and fields that are named
apart, bear no fixed name and fit a payload, and it is the template for both. -/
theorem constructs (table : String) (fields : List Attribute) :
    ((∃ template, make table fields = .ok template) ↔
      TableName.IsValid table ∧ (∀ field ∈ fields, field.key ∉ reservedKeys) ∧
        (fields.map Attribute.key).Nodup ∧ partALength table fields ≤ 65360) ∧
    ∀ template, make table fields = .ok template → template.IsFor table fields := by
  constructor
  · rw [exists_make_iff, TableName.check_eq_ok_iff_isValid, checkFieldNames_eq_ok_iff]
    constructor
    · rintro ⟨hname, ⟨hnodup, hfree⟩, hfits⟩
      exact ⟨hname, fun field hmem => (hfree _ (List.mem_map_of_mem hmem)).1, hnodup, hfits⟩
    · rintro ⟨hname, hfree, hnodup, hfits⟩
      refine ⟨hname, ⟨hnodup, fun name hmem => ?_⟩, hfits⟩
      obtain ⟨field, hfield, rfl⟩ := List.mem_map.mp hmem
      exact ⟨hfree field hfield, List.not_mem_nil⟩
  · intro template hmake
    rw [eq_ofParts_of_make hmake]
    exact isFor_ofParts table fields

/-- A field without a value counts among the names, and not among the fields. -/
theorem constructs_sampleFields :
    (∃ template, make "Log" LogEncoder.sampleFields = .ok template ∧
      template.IsFor "Log" LogEncoder.sampleFields) ∧
    ¬∃ template, make "Log" (LogEncoder.sampleFields ++ [⟨"cloud.zone", .bool true⟩]) =
      .ok template := by
  have hname : TableName.IsValid "Log" := TableName.check_eq_ok_iff_isValid.mp rfl
  obtain ⟨hmade, hfor⟩ := constructs "Log" LogEncoder.sampleFields
  obtain ⟨template, hmake⟩ := hmade.mpr ⟨hname, by decide, by decide, show _ ≤ 65360 by decide⟩
  refine ⟨⟨template, hmake, hfor template hmake⟩, fun hrepeated => ?_⟩
  obtain ⟨-, -, hnodup, -⟩ := (constructs "Log" _).1.mp hrepeated
  exact absurd hnodup (by decide)

end RecordTemplate

end TelemetryExport
