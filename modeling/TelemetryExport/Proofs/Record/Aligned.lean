import TelemetryExport.Proofs.Buffer.Aligned
import TelemetryExport.Record.LogEncoder
import TelemetryExport.Record.Span

/-! # Records do not depend on what the storage held before

Every writer of a record does the same on aligned buffers. Whether a record fits, and with
which fault it ends where it does not, is therefore decided by the record and the room
alone. What a record reserved and did not fill in is no exception: nothing reads it.
-/

namespace TelemetryExport

open Encode Buffer

/-! ## MessagePack values -/

namespace MessagePack

/-- A format byte and the number behind it. -/
theorem respects_formatted (format : UInt8) (width n : Nat) :
    Respects Aligned (do writeByte format; writeBigEndian width n) :=
  (respects_writeByte format).seq (respects_writeBigEndian width n)

theorem respects_writeTextHeader (length : Nat) : Respects Aligned (writeTextHeader length) :=
  (respects_writeByte _).ite <|
    (respects_write _).ite <|
    (respects_formatted _ _ _).ite (respects_formatted _ _ _)

theorem respects_writeText (text : String) : Respects Aligned (writeText text) :=
  (respects_writeTextHeader _).seq (respects_write _)

theorem respects_writeUInt (value : UInt64) : Respects Aligned (writeUInt value) :=
  (respects_writeByte _).ite <|
    (respects_write _).ite <|
    (respects_formatted _ _ _).ite <|
    (respects_formatted _ _ _).ite (respects_formatted _ _ _)

theorem respects_writeInt (value : Int64) : Respects Aligned (writeInt value) :=
  (respects_writeUInt _).ite <|
    (respects_writeByte _).ite <|
    (respects_write _).ite <|
    (respects_formatted _ _ _).ite <|
    (respects_formatted _ _ _).ite (respects_formatted _ _ _)

theorem respects_writeScalar (value : Scalar) : Respects Aligned (writeScalar value) := by
  cases value with
  | text value => exact respects_writeText value
  | bool value => exact respects_writeByte _
  | int value => exact respects_writeInt value
  | double value => exact respects_formatted _ _ _
  | null => exact respects_writeByte _

theorem respects_writeTime (time : Time) : Respects Aligned (writeTime time) := by
  have hstamp : Respects Aligned (do
      writeList [0xC7, 12, 0xFF]
      writeBigEndian 4 time.nanoseconds.val
      writeBigEndian 8 time.seconds.toUInt64.toNat) :=
    (respects_write _).seq ((respects_writeBigEndian _ _).seq (respects_writeBigEndian _ _))
  -- A time outside the calendar ends the record here.
  exact hstamp.ite ((respects_throw _).bind fun _ => hstamp)

theorem respects_writeArrayHeader (count : Nat) : Respects Aligned (writeArrayHeader count) :=
  (respects_writeByte _).ite <|
    (respects_formatted _ _ _).ite (respects_formatted _ _ _)

namespace OpenMap

theorem respects_start : Respects Aligned start :=
  (respects_reserve _).bind fun _ => respects_pure _

variable (map : OpenMap)

theorem respects_entry (key : String) {writeValue : Encode Unit}
    (hvalue : Respects Aligned writeValue) : Respects Aligned (map.entry key writeValue) :=
  (respects_writeText key).seq (hvalue.seq (respects_pure _))

theorem respects_field (key : String) (value : Scalar) :
    Respects Aligned (map.field key value) :=
  (respects_pure map).ite (map.respects_entry key (respects_writeScalar value))

theorem respects_fields (properties : List Attribute) :
    Respects Aligned (map.fields properties) :=
  Respects.foldlM properties (fun map _ => map.respects_field _ _) map

theorem respects_close : Respects Aligned map.close :=
  respects_patchCounted _ _ _

end OpenMap

end MessagePack

open MessagePack

/-! ## Envelopes -/

namespace RecordTemplate

variable (template : RecordTemplate)

theorem respects_writePrologue (table : String) : Respects Aligned (writePrologue table) :=
  (respects_writeArrayHeader _).seq <|
    (respects_writeText _).seq <|
    (respects_writeArrayHeader _).seq (respects_writeArrayHeader _)

theorem respects_writeNameEntry (table : String) : Respects Aligned (writeNameEntry table) :=
  (respects_writeText _).seq (respects_writeText _)

theorem respects_openRecord (time : Time) : Respects Aligned (template.openRecord time) :=
  (respects_write _).seq <|
    (respects_writeTime time).seq <|
    (respects_reserve _).bind fun _ =>
    (respects_write _).seq (respects_pure _)

theorem respects_openRecordAs (table : String) (time : Time) :
    Respects Aligned (template.openRecordAs table time) :=
  (respects_writePrologue table).seq <|
    (respects_writeTime time).seq <|
    (respects_reserve _).bind fun _ =>
    (respects_writeNameEntry table).seq <|
    (respects_write _).seq (respects_pure _)

theorem respects_writeProperties (map : OpenMap) (choose : String → ColumnChoice)
    (properties : List Attribute) :
    Respects Aligned (template.writeProperties map choose properties) := by
  refine (map.respects_fields _).bind fun map => (respects_pure map).ite ?_
  exact map.respects_entry _ <| OpenMap.respects_start.bind fun nested =>
    (nested.respects_fields _).bind fun filled => filled.respects_close

theorem respects_closeRecord (map : OpenMap) : Respects Aligned (template.closeRecord map) :=
  map.respects_close.seq (respects_write _)

end RecordTemplate

/-! ## Records -/

theorem LogEncoder.respects_openEnvelope (template : RecordTemplate) (table : Option String)
    (time : Time) : Respects Aligned (openEnvelope template table time) := by
  cases table with
  | none => exact template.respects_openRecord time
  | some table => exact template.respects_openRecordAs table time

theorem LogEncoder.respects_encode (encoder : LogEncoder) (record : LogRecord) :
    Respects Aligned (encoder.encode record) :=
  (respects_openEnvelope _ _ record.time).bind fun map =>
    (map.respects_fields _).bind fun filled =>
    (RecordTemplate.respects_writeProperties _ filled _ _).bind fun complete =>
    RecordTemplate.respects_closeRecord _ complete

theorem SpanCell.respects_write (cell : SpanCell) : Respects Aligned cell.write := by
  cases cell with
  | scalar value => exact respects_writeScalar value
  | time value => exact respects_writeTime value
  | links values =>
      refine (respects_writeArrayHeader _).seq (Respects.forM values fun link => ?_)
      exact (respects_writeByte _).seq <|
        (respects_writeText _).seq <|
        (respects_writeText _).seq <|
        (respects_writeText _).seq (respects_writeText _)

theorem SpanEncoder.respects_encode (encoder : SpanEncoder) (span : Span) :
    Respects Aligned (encoder.encode span) := by
  refine (encoder.template.respects_openRecord span.endTime).bind fun map => ?_
  have hcolumns : Respects Aligned (writeColumns map span.columns) :=
    Respects.foldlM span.columns (fun map column => map.respects_entry _ column.2.respects_write)
      map
  exact hcolumns.bind fun filled =>
    (encoder.template.respects_writeProperties filled _ _).bind fun complete =>
    encoder.template.respects_closeRecord complete

end TelemetryExport
