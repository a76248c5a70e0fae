import TelemetryExport.Record.Template
import TelemetryExport.Proofs.MessagePack.Containers

/-! # Records of a template

A template is made by writing each constant part of an envelope once, so that what it
copies is what the writers would append. A record that is opened, filled with entries
and closed is then one value, whatever the entries are.
-/

namespace TelemetryExport

open MessagePack Encode

/-- An envelope as it is read: its table, and one record with a time and fields. -/
def envelope (table : String) (stamp : Value) (fields : List (Value × Value)) : Value :=
  .array [.ofText table, .array [.array [stamp, .map fields]],
    .map [(.ofText "TimeFormat", .ofText "DateTime")]]

/-- An entry that is left out where it has no value. -/
def optionalEntry (key : String) : Option Value → List (Value × Value)
  | some value => [(.ofText key, value)]
  | none => []

theorem map_entry_optional {α : Type} [ToScalar α] (key : String) (value : Option α) :
    (value.map fun value => Attribute.mk key (toScalar value)).toList.map Attribute.entry =
      optionalEntry key (value.map fun value => .ofScalar (toScalar value)) := by
  cases value with
  | none => rfl
  | some value => rfl

theorem exists_of_except_bind {ε α β : Type} {first : Except ε α} {next : α → Except ε β}
    {result : β} (hok : (first >>= next) = .ok result) :
    ∃ value, first = .ok value ∧ next value = .ok result := by
  cases hfirst : first with
  | ok value =>
      rw [hfirst] at hok
      exact ⟨value, rfl, hok⟩
  | error fault =>
      rw [hfirst] at hok
      cases hok

theorem except_bind_of_ok {ε α β : Type} {first : Except ε α} {next : α → Except ε β}
    {value : α} (hfirst : first = .ok value) : (first >>= next) = next value := by
  rw [hfirst]
  rfl

namespace RecordTemplate

/-! ## The constant parts -/

/-- The bytes before the time. -/
def prologueBytes (table : String) : List UInt8 :=
  arrayHeader 3 ++ (textBytes table ++ (arrayHeader 1 ++ arrayHeader 2))

/-- The field that holds the table's name. -/
def nameField (table : String) : Attribute := ⟨Column.envName, .text table⟩

/-- The configured fields that every record gets: those that have a value. -/
def constantFields (fields : List Attribute) : List Attribute :=
  fields.filter (!·.value.isNull)

/-- The fields that open every record of a table. -/
def partAFields (table : String) (fields : List Attribute) : List Attribute :=
  nameField table :: constantFields fields

/-- The bytes after the field map. -/
def epilogueBytes : List UInt8 :=
  UInt8.ofNat (0x80 + 1) :: (textBytes Column.timeFormat ++ textBytes Column.dateTime)

theorem writes_prologue (table : String) :
    Writes (writePrologue table) (prologueBytes table) () :=
  (writes_arrayHeader 3).seq ((writes_text table).seq
    ((writes_arrayHeader 1).seq (writes_arrayHeader 2)))

theorem writes_nameEntry (table : String) :
    Writes (writeNameEntry table) (nameField table).entryBytes () :=
  (writes_text Column.envName).seq (writes_text table)

theorem writes_prepopulated (fields : List Attribute) :
    Writes (writePrepopulated fields)
      ((constantFields fields).flatMap Attribute.entryBytes) () := by
  induction fields with
  | nil => exact writes_pure ()
  | cons field rest ih =>
      by_cases hnull : field.value.isNull = true
      · have haction : writePrepopulated (field :: rest) = writePrepopulated rest := by
          simp only [writePrepopulated, hnull, if_true]
        rw [haction, constantFields, List.filter_cons_of_neg (by simp [hnull])]
        exact ih
      · have haction : writePrepopulated (field :: rest) = (do
            MessagePack.writeText field.key
            writeScalar field.value
            writePrepopulated rest) := by
          simp only [writePrepopulated, if_neg hnull]
        rw [haction, constantFields, List.filter_cons_of_pos (by simp [hnull]), List.flatMap_cons,
          Attribute.entryBytes, List.append_assoc]
        exact (writes_text field.key).seq ((writes_scalar field.value).seq ih)

theorem writes_epilogue : Writes writeEpilogue epilogueBytes () :=
  (writes_writeByte _).seq ((writes_text Column.timeFormat).seq (writes_text Column.dateTime))

/-- The constant parts of the records of a table with the fields. -/
def ofParts (table : String) (fields : List Attribute) : RecordTemplate where
  tableName := table
  prologue := (prologueBytes table).toByteArray
  partA := ((partAFields table fields).flatMap Attribute.entryBytes).toByteArray
  nameEntryLength := (nameField table).entryBytes.length
  partACount := (partAFields table fields).length
  epilogue := epilogueBytes.toByteArray
  prepopulated := fields.map (·.key)

section Measured

variable {first second : Encode Unit} {front back : List UInt8}

/-- Writes two parts and returns how much the first of them wrote. -/
def measured (first second : Encode Unit) : Encode Nat := do
  first
  let length := (← get).cursor
  second
  return length

theorem of_run_measured (hfirst : Writes first front ()) (hsecond : Writes second back ())
    {length : Nat} {written : ByteArray}
    (hrun : (measured first second).run = .ok (length, written)) :
    (front ++ back).length ≤ maxPayloadSize ∧ length = front.length ∧
      written = (front ++ back).toByteArray := by
  obtain ⟨after, hok, rfl⟩ := exists_of_run hrun
  obtain ⟨_, middle, hfront, hok⟩ := exists_of_bind_ok hok
  obtain ⟨hfits, -, hmiddle⟩ := hfirst.of_ok Buffer.empty_valid hfront
  have hvalid := Buffer.append_valid Buffer.empty_valid hfits
  rw [← hmiddle] at hvalid
  obtain ⟨_, _, hget, hok⟩ := exists_of_bind_ok hok
  cases hget
  obtain ⟨_, last, hback, hok⟩ := exists_of_bind_ok hok
  obtain ⟨hroom, -, hlast⟩ := hsecond.of_ok hvalid hback
  cases hok
  have hcursor : Buffer.empty.cursor = 0 := rfl
  refine ⟨?_, ?_, ?_⟩
  · rw [hmiddle, Buffer.cursor_append, Buffer.capacity_append hfits, Buffer.capacity_empty,
      hcursor] at hroom
    rw [List.length_append]
    omega
  · rw [hmiddle, Buffer.cursor_append, hcursor, Nat.zero_add]
  · rw [← Bytes.toByteArray_toList (Buffer.written _), Buffer.toList_written, hlast,
      Buffer.bytes_append hroom, hmiddle, Buffer.bytes_append hfits, Buffer.bytes_empty,
      List.nil_append]

theorem exists_run_measured (hfirst : Writes first front ()) (hsecond : Writes second back ())
    (hlength : (front ++ back).length ≤ maxPayloadSize) :
    ∃ result, (measured first second).run = .ok result := by
  rw [List.length_append] at hlength
  have hcursor : Buffer.empty.cursor = 0 := rfl
  have hfits : Buffer.empty.cursor + front.length ≤ Buffer.empty.capacity := by
    rw [Buffer.capacity_empty, hcursor]
    omega
  have hroom : (Buffer.empty.append front).cursor + back.length ≤
      (Buffer.empty.append front).capacity := by
    rw [Buffer.cursor_append, Buffer.capacity_append hfits, Buffer.capacity_empty, hcursor]
    omega
  have hvalid := Buffer.append_valid Buffer.empty_valid hfits
  have hok : measured first second Buffer.empty = .ok (Buffer.empty.append front).cursor
      ((Buffer.empty.append front).append back) := by
    rw [measured, bind_of_ok (hfirst.appends _ Buffer.empty_valid hfits)]
    exact bind_of_ok (hsecond.appends _ hvalid hroom)
  exact ⟨_, run_of_ok hok⟩

end Measured

theorem exists_of_mapError_run {α : Type} {action : Encode α} {table : String}
    {result : α × ByteArray}
    (hok : action.run.mapError (ConfigError.templateTooLarge table) = .ok result) :
    action.run = .ok result := by
  cases hrun : action.run with
  | ok value =>
      rw [hrun] at hok
      cases hok
      rfl
  | error fault =>
      rw [hrun] at hok
      cases hok

theorem mapError_run_of_ok {α : Type} {action : Encode α} {table : String}
    {result : α × ByteArray} (hrun : action.run = .ok result) :
    action.run.mapError (ConfigError.templateTooLarge table) = .ok result := by
  rw [hrun]
  rfl

/-- Every template that can be made holds the bytes that its table and its fields stand for. -/
theorem eq_ofParts_of_make {table : String} {fields : List Attribute}
    {template : RecordTemplate} (hmake : make table fields = .ok template) :
    template = ofParts table fields := by
  obtain ⟨_, -, hmake⟩ := exists_of_except_bind hmake
  obtain ⟨_, -, hmake⟩ := exists_of_except_bind hmake
  obtain ⟨⟨_, prologue⟩, hprologue, hmake⟩ := exists_of_except_bind hmake
  obtain ⟨⟨length, partA⟩, hpartA, hmake⟩ := exists_of_except_bind hmake
  obtain ⟨⟨_, epilogue⟩, hepilogue, hmake⟩ := exists_of_except_bind hmake
  cases hmake
  have hfirst := (writes_prologue table).seq (writes_pure 0)
  have hlast := writes_epilogue.seq (writes_pure 0)
  rw [List.append_nil] at hfirst hlast
  obtain ⟨-, -, rfl⟩ := hfirst.of_run (exists_of_mapError_run hprologue)
  obtain ⟨-, -, rfl⟩ := hlast.of_run (exists_of_mapError_run hepilogue)
  obtain ⟨-, rfl, rfl⟩ := of_run_measured (writes_nameEntry table) (writes_prepopulated fields)
    (exists_of_mapError_run hpartA)
  have hcount : (partAFields table fields).length = 1 + (constantFields fields).length :=
    Nat.add_comm _ 1
  rw [ofParts, hcount]
  rfl

/-- A template can be made wherever its names are accepted and its fields fit a payload. -/
theorem make_eq {table : String} {fields : List Attribute}
    (hname : TableName.check table = .ok ()) (hfields : checkFieldNames [] fields = .ok ())
    (hfits : ((partAFields table fields).flatMap Attribute.entryBytes).length ≤ maxPayloadSize) :
    make table fields = .ok (ofParts table fields) := by
  have hfirst := (writes_prologue table).seq (writes_pure 0)
  have hlast := writes_epilogue.seq (writes_pure 0)
  rw [List.append_nil] at hfirst hlast
  -- The first part is no longer than the fields, the first of which holds the name as well.
  have hprologue := hfirst.run_eq (by
    have hname : (nameField table).entryBytes.length =
        (textBytes Column.envName).length + (textBytes table).length := List.length_append
    have henvName : (textBytes Column.envName).length = 9 := by decide
    have hheader : (arrayHeader 3).length = 1 ∧ (arrayHeader 1).length = 1 ∧
      (arrayHeader 2).length = 1 := by decide
    rw [partAFields, List.flatMap_cons, List.length_append] at hfits
    simp only [prologueBytes, List.length_append]
    omega)
  obtain ⟨result, hpartA⟩ := exists_run_measured (writes_nameEntry table)
    (writes_prepopulated fields) hfits
  have hepilogue := hlast.run_eq (by
    have hlength : epilogueBytes.length = 21 := by decide
    change _ ≤ 65360
    omega)
  have hmake : ∃ template, make table fields = .ok template := by
    rw [make, except_bind_of_ok hname, except_bind_of_ok hfields,
      except_bind_of_ok (mapError_run_of_ok hprologue)]
    exact ⟨_, (except_bind_of_ok (mapError_run_of_ok hpartA)).trans
      (except_bind_of_ok (mapError_run_of_ok hepilogue))⟩
  obtain ⟨template, hmake⟩ := hmake
  rw [hmake, eq_ofParts_of_make hmake]

/-- A template can be made under these conditions only. -/
theorem exists_make_iff {table : String} {fields : List Attribute} :
    (∃ template, make table fields = .ok template) ↔
      TableName.check table = .ok () ∧ checkFieldNames [] fields = .ok () ∧
        ((partAFields table fields).flatMap Attribute.entryBytes).length ≤ maxPayloadSize := by
  constructor
  · rintro ⟨template, hmake⟩
    obtain ⟨_, hname, hmake⟩ := exists_of_except_bind hmake
    obtain ⟨_, hfields, hmake⟩ := exists_of_except_bind hmake
    obtain ⟨_, -, hmake⟩ := exists_of_except_bind hmake
    obtain ⟨⟨length, partA⟩, hpartA, -⟩ := exists_of_except_bind hmake
    exact ⟨hname, hfields, (of_run_measured (writes_nameEntry table)
      (writes_prepopulated fields) (exists_of_mapError_run hpartA)).1⟩
  · rintro ⟨hname, hfields, hfits⟩
    exact ⟨_, make_eq hname hfields hfits⟩

/-! ## Whole records -/

section

variable {template : RecordTemplate} {time : Time} {map : OpenMap} {buffer after : Buffer}

theorem inCalendar_of_openRecord (hok : template.openRecord time buffer = .ok map after) :
    time.inCalendar = true := by
  obtain ⟨_, _, -, hok⟩ := exists_of_bind_ok hok
  obtain ⟨_, _, htime, -⟩ := exists_of_bind_ok hok
  exact inCalendar_of_writeTime htime

theorem inCalendar_of_openRecordAs {table : String}
    (hok : template.openRecordAs table time buffer = .ok map after) :
    time.inCalendar = true := by
  obtain ⟨_, _, -, hok⟩ := exists_of_bind_ok hok
  obtain ⟨_, _, htime, -⟩ := exists_of_bind_ok hok
  exact inCalendar_of_writeTime htime

end

/-- The bytes of a record that has `count` fields after those that open it. -/
def recordBytes (table : String) (fields : List Attribute) (time : Time) (count : Nat)
    (content : List UInt8) : List UInt8 :=
  prologueBytes table ++ (timeBytes time ++
    (Slot.countedHeader Slot.map16 ((partAFields table fields).length + count) ++
      ((partAFields table fields).flatMap Attribute.entryBytes ++ content) ++ epilogueBytes))

theorem encodes_envelope {table : String} {time : Time} {bytes : List UInt8}
    {fields : List (Value × Value)} (hfields : Encodes bytes (.map fields)) :
    Encodes (prologueBytes table ++ (timeBytes time ++ (bytes ++ epilogueBytes)))
      (envelope table (.ofTime time) fields) := by
  have hrecord := encodes_array (.cons (encodes_time time) (.cons hfields .nil))
  have hrecords := encodes_array (.cons hrecord .nil)
  have hformat : Encodes epilogueBytes (.map [(.ofText Column.timeFormat,
      .ofText Column.dateTime)]) :=
    encodes_smallMap (.single (encodes_text Column.timeFormat) (encodes_text Column.dateTime))
      (by decide)
  have henvelope := encodes_array (.cons (encodes_text table) (.cons hrecords
    (.cons hformat .nil)))
  simp only [List.append_nil, List.append_assoc, List.length_cons, List.length_nil]
    at henvelope
  rw [prologueBytes, List.append_assoc, List.append_assoc, List.append_assoc]
  exact henvelope

variable {table : String} {fields : List Attribute} {time : Time}
  {body : OpenMap → Encode OpenMap} {content : List UInt8} {entries : List (Value × Value)}

/-- A record whose constant parts are written or copied in any way is one envelope. -/
theorem emits_record (home : String) (htime : time.inCalendar = true)
    (hbody : OpenMap.Adds body content entries) {writeStart writePartA : Encode Unit}
    (hstart : Writes writeStart (prologueBytes table) ())
    (hpartA : Writes writePartA ((partAFields table fields).flatMap Attribute.entryBytes) ()) :
    Emits (do
      writeStart
      writeTime time
      let slot ← reserveCounted
      writePartA
      let map ← body ⟨slot, (partAFields table fields).length⟩
      (ofParts home fields).closeRecord map)
      (recordBytes table fields time entries.length content)
      (envelope table (.ofTime time)
        ((partAFields table fields).map Attribute.entry ++ entries)) := by
  have hcopy := OpenMap.adds_copy hpartA (encodes_properties (partAFields table fields))
  have hmap := (hcopy.bind hbody).emits_map
  rw [List.length_append, List.length_map] at hmap
  have hepilogue := writes_write epilogueBytes.toByteArray
  rw [Bytes.toList_toByteArray] at hepilogue
  have hrecord := hstart.seq ((writes_time htime).seq (hmap.writes.seq hepilogue))
  simp only [OpenMap.start, bind_assoc, pure_bind, Nat.zero_add] at hrecord
  exact ⟨hrecord, encodes_envelope hmap.encodes⟩

/-- A record of the template's own table. -/
theorem emits_openRecord (table : String) (fields : List Attribute)
    (htime : time.inCalendar = true) (hbody : OpenMap.Adds body content entries) :
    Emits (do
      let map ← (ofParts table fields).openRecord time
      let map ← body map
      (ofParts table fields).closeRecord map)
      (recordBytes table fields time entries.length content)
      (envelope table (.ofTime time)
        ((partAFields table fields).map Attribute.entry ++ entries)) := by
  have hstart := writes_write (prologueBytes table).toByteArray
  have hpartA := writes_write
    ((partAFields table fields).flatMap Attribute.entryBytes).toByteArray
  rw [Bytes.toList_toByteArray] at hstart hpartA
  have hrecord := emits_record table htime hbody hstart hpartA
  simp only [openRecord, bind_assoc, pure_bind]
  exact hrecord

/-- A record of another table. The constant fields are copied from behind the entry of
the template's own name. -/
theorem emits_openRecordAs (home table : String) (fields : List Attribute)
    (htime : time.inCalendar = true) (hbody : OpenMap.Adds body content entries) :
    Emits (do
      let map ← (ofParts home fields).openRecordAs table time
      let map ← body map
      (ofParts home fields).closeRecord map)
      (recordBytes table fields time entries.length content)
      (envelope table (.ofTime time)
        ((partAFields table fields).map Attribute.entry ++ entries)) := by
  have hconstant := writes_write ((ofParts home fields).partA.extract
    (ofParts home fields).nameEntryLength (ofParts home fields).partA.size)
  have hextract : ((ofParts home fields).partA.extract (ofParts home fields).nameEntryLength
      (ofParts home fields).partA.size).data.toList =
        (constantFields fields).flatMap Attribute.entryBytes := by
    rw [Bytes.toList_extract_size, ofParts, Bytes.toList_toByteArray, partAFields,
      List.flatMap_cons, List.drop_left]
  rw [hextract] at hconstant
  have hpartA := (writes_nameEntry table).seq hconstant
  have hrecord := emits_record home htime hbody (writes_prologue table) hpartA
  simp only [openRecordAs, bind_assoc, pure_bind]
  simp only [bind_assoc] at hrecord
  exact hrecord

end RecordTemplate

end TelemetryExport
