import TelemetryExport.MessagePack.OpenMap
import TelemetryExport.Record.Column
import TelemetryExport.Record.Placement
import TelemetryExport.Record.TableName

/-! # Record templates

A record is an envelope of one table:

    [ table, [ [ time, fields ] ], { "TimeFormat": "DateTime" } ]

The field map starts with Part A: the table's name and the fields that the
configuration adds to every record. A template holds the bytes of an envelope
that do not depend on the record, so that writing a record copies them. The
count of the field map is filled in when the record is complete.
-/

namespace TelemetryExport

open MessagePack

/-- The constant parts of the envelopes of one table. -/
structure RecordTemplate where
  tableName : String
  /-- The bytes before the time. -/
  prologue : ByteArray
  /-- The entries that open the field map, without the map's header. -/
  partA : ByteArray
  /-- The length of the first of these entries, which holds the table's name. -/
  nameEntryLength : Nat
  /-- The number of these entries. -/
  partACount : Nat
  /-- The bytes after the field map. -/
  epilogue : ByteArray
  /-- The names of the configured fields, also of those without a value. -/
  prepopulated : List String

namespace RecordTemplate

/-- Appends what comes before the time in an envelope of the table. -/
def writePrologue (table : String) : Encode Unit := do
  writeArrayHeader 3
  writeText table
  writeArrayHeader 1
  writeArrayHeader 2

/-- Appends the entry that holds the table's name. -/
def writeNameEntry (table : String) : Encode Unit := do
  writeText Column.envName
  writeText table

/-- Appends the entries of the fields that have a value. -/
def writePrepopulated : List Attribute → Encode Unit
  | [] => pure ()
  | field :: rest => do
      unless field.value.isNull do
        writeText field.key
        writeScalar field.value
      writePrepopulated rest

/-- Appends what comes after the field map. -/
def writeEpilogue : Encode Unit := do
  writeSmallMapHeader 1
  writeText Column.timeFormat
  writeText Column.dateTime

/-- Refuses fields of which one has a reserved name or a name in `earlier`. -/
def checkFieldNames (earlier : List String) : List Attribute → Except ConfigError Unit
  | [] => .ok ()
  | field :: rest =>
      if Column.reserved.contains field.key then .error (.reservedField field.key)
      else if earlier.contains field.key then .error (.repeatedField field.key)
      else checkFieldNames (field.key :: earlier) rest

/-- The template for a table and the fields that every record gets. -/
def make (table : String) (fields : List Attribute) : Except ConfigError RecordTemplate := do
  TableName.check table
  checkFieldNames [] fields
  let encode (action : Encode Nat) : Except ConfigError (Nat × ByteArray) :=
    action.run.mapError (.templateTooLarge table)
  let (_, prologue) ← encode (do writePrologue table; return 0)
  let (nameEntryLength, partA) ← encode (do
    writeNameEntry table
    let length := (← get).cursor
    writePrepopulated fields
    return length)
  let (_, epilogue) ← encode (do writeEpilogue; return 0)
  return {
    tableName := table
    prologue
    partA
    nameEntryLength
    partACount := 1 + (fields.filter (!·.value.isNull)).length
    epilogue
    prepopulated := fields.map (·.key) }

/-- The length of a written time. -/
def timeLength : Nat := 15

/-- The length of a record with no fields beyond Part A. -/
def minRecordLength (template : RecordTemplate) : Nat :=
  template.prologue.size + timeLength + Slot.countedWidth + template.partA.size
    + template.epilogue.size

/-- Opens a record of the template's table and returns its field map, which
already holds Part A. -/
def openRecord (template : RecordTemplate) (time : Time) : Encode OpenMap := do
  Encode.write template.prologue
  writeTime time
  let slot ← Encode.reserveCounted
  Encode.write template.partA
  return ⟨slot, template.partACount⟩

/-- Opens a record of another table, which has the same configured fields. -/
def openRecordAs (template : RecordTemplate) (table : String) (time : Time) : Encode OpenMap := do
  writePrologue table
  writeTime time
  let slot ← Encode.reserveCounted
  writeNameEntry table
  Encode.write (template.partA.extract template.nameEntryLength template.partA.size)
  return ⟨slot, template.partACount⟩

/-- Completes a record: counts its fields and closes the envelope. -/
def closeRecord (template : RecordTemplate) (map : OpenMap) : Encode Unit := do
  map.close
  Encode.write template.epilogue

/-- Whether every record of the template writes the key itself. -/
def claims (template : RecordTemplate) (key : String) : Bool :=
  Column.reserved.contains key || template.prepopulated.contains key

/-- The properties that a record writes, with their destinations. Properties
without a value are left out and displace nothing. -/
def placements (template : RecordTemplate) (choose : String → ColumnChoice)
    (properties : List Attribute) : List Placed :=
  Placed.survivors
    ((properties.filter (!·.value.isNull)).map (Placed.place template.claims choose))

/-- Writes properties into the field map: those with a column first, and after
them, if there are any, the others in one nested map. -/
def writeProperties (template : RecordTemplate) (map : OpenMap)
    (choose : String → ColumnChoice) (properties : List Attribute) : Encode OpenMap := do
  let placed := template.placements choose properties
  let map ← map.fields ((placed.filter (!·.destination.nested)).map Placed.toAttribute)
  let rest := (placed.filter (·.destination.nested)).map Placed.toAttribute
  if rest.isEmpty then
    return map
  else
    map.entry Column.envProperties do
      let nested ← OpenMap.start
      let nested ← nested.fields rest
      nested.close

end RecordTemplate

end TelemetryExport
