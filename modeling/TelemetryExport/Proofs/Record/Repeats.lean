import TelemetryExport.Proofs.Record.Aligned
import TelemetryExport.Proofs.Record.Append

/-! # Starting over

An encoding that starts over in a used buffer comes out as in any other buffer of the
capacity: with the same bytes, or with the same fault. Two facts go into this. What an
encoding does follows from the room alone, and where it succeeds it has placed every byte
of what it wrote. A record with a time outside the calendar never gets that far.
-/

namespace TelemetryExport

open MessagePack Encode Buffer

/-! ## Records outside the calendar -/

theorem MessagePack.refuses_writeTime {time : Time} (htime : time.inCalendar = false) :
    Refuses (writeTime time) 0 .timeOutOfRange := by
  simp only [writeTime, htime, if_neg Bool.false_ne_true]
  exact (refuses_throw _).bind

namespace RecordTemplate

theorem refuses_openRecord (template : RecordTemplate) {time : Time}
    (htime : time.inCalendar = false) :
    Refuses (template.openRecord time) (template.prologue.data.toList.length + 0)
      .timeOutOfRange :=
  (writes_write _).bind_refuses (refuses_writeTime htime).bind

theorem refuses_openRecordAs (template : RecordTemplate) (table : String) {time : Time}
    (htime : time.inCalendar = false) :
    Refuses (template.openRecordAs table time) ((prologueBytes table).length + 0)
      .timeOutOfRange :=
  (writes_prologue table).bind_refuses (refuses_writeTime htime).bind

end RecordTemplate

theorem LogEncoder.exists_refuses_encode (encoder : LogEncoder) {record : LogRecord}
    (htime : record.time.inCalendar = false) :
    ∃ length, Refuses (encoder.encode record) length .timeOutOfRange := by
  rcases htarget : encoder.target record with ⟨template, table⟩
  rw [encode, htarget]
  cases table with
  | none => exact ⟨_, (template.refuses_openRecord htime).bind⟩
  | some table => exact ⟨_, (template.refuses_openRecordAs table htime).bind⟩

/-- Columns up to the first that holds a time outside the calendar are written. -/
theorem SpanEncoder.exists_refuses_writeColumns {columns : List (String × SpanCell)}
    (hcolumns : ¬∀ column ∈ columns, column.2.InCalendar) :
    ∃ length, ∀ map, Refuses (writeColumns map columns) length .timeOutOfRange := by
  induction columns with
  | nil => exact absurd (List.forall_mem_nil _) hcolumns
  | cons column rest ih =>
      by_cases hcolumn : column.2.InCalendar
      · have hrest : ¬∀ other ∈ rest, other.2.InCalendar :=
          fun hrest => hcolumns (List.forall_mem_cons.mpr ⟨hcolumn, hrest⟩)
        obtain ⟨length, hrefuses⟩ := ih hrest
        have hentry := OpenMap.adds_entry column.1 (SpanCell.emits_write hcolumn)
        exact ⟨_, fun map => (hentry.writes map).bind_refuses (hrefuses _)⟩
      · obtain ⟨key, cell⟩ := column
        cases cell with
        | scalar value => exact absurd trivial hcolumn
        | time value =>
            have htime := refuses_writeTime (Bool.eq_false_iff.mpr hcolumn)
            exact ⟨_, fun map => ((writes_text key).bind_refuses htime.bind).bind⟩
        | links values => exact absurd trivial hcolumn

theorem SpanEncoder.exists_refuses_encode (encoder : SpanEncoder) {span : Span}
    (hrange : ¬span.IsInCalendar) :
    ∃ length, Refuses (encoder.encode span) length .timeOutOfRange := by
  cases hend : span.endTime.inCalendar with
  | false => exact ⟨_, (encoder.template.refuses_openRecord hend).bind⟩
  | true =>
      have hcolumns : ¬∀ column ∈ span.columns, column.2.InCalendar := by
        intro hcolumns
        refine hrange ⟨hcolumns (Column.startTime, .time span.startTime) ?_, hend⟩
        simp [Span.columns]
      obtain ⟨length, hrefuses⟩ := exists_refuses_writeColumns hcolumns
      simp only [encode, RecordTemplate.openRecord, bind_assoc, pure_bind]
      exact ⟨_, (writes_write _).bind_refuses <| (writes_time hend).bind_refuses <|
        Refuses.reserve fun _ => (writes_write _).bind_refuses (hrefuses _).bind⟩

/-! ## The same again -/

namespace Encode

/-- Two outcomes that nobody can tell apart by what was written, in buffers of one
capacity. -/
inductive Alike (capacity : Nat) :
    EStateM.Result EncodeError Buffer Unit → EStateM.Result EncodeError Buffer Unit → Prop
  | ok {after other : Buffer} (hwritten : other.written = after.written)
      (hafter : after.capacity = capacity) (hother : other.capacity = capacity) :
      Alike capacity (.ok () after) (.ok () other)
  | error (fault : EncodeError) {left other : Buffer} (hleft : left.capacity = capacity)
      (hother : other.capacity = capacity) :
      Alike capacity (.error fault left) (.error fault other)

/-- Whatever the storages hold in which the computation starts over, its outcome is the
same. -/
def Repeats (action : Encode Unit) : Prop :=
  ∀ buffer other : Buffer, buffer.capacity ≤ maxPayloadSize →
    other.capacity = buffer.capacity →
    Alike buffer.capacity (action buffer.reset) (action other.reset)

theorem Writes.repeats {action : Encode Unit} {bytes : List UInt8}
    (hwrites : Writes action bytes ()) (hrespects : Respects Aligned action) :
    action.Repeats := by
  intro buffer other hcapacity hsame
  have hrelated := hrespects buffer.reset other.reset ⟨rfl, hsame⟩
  cases haction : action buffer.reset with
  | ok result after =>
      rw [haction] at hrelated
      obtain ⟨left, hother, -⟩ := hrelated.exists_of_ok
      rw [hother]
      obtain ⟨hroom, -, rfl⟩ := hwrites.of_ok (reset_valid hcapacity) haction
      obtain ⟨hfits, -, rfl⟩ := hwrites.of_ok (reset_valid (hsame ▸ hcapacity)) hother
      refine .ok ?_ (capacity_append hroom) ((capacity_append hfits).trans hsame)
      rw [written_append rfl hroom, written_append rfl hfits]
  | error fault left =>
      rw [haction] at hrelated
      obtain ⟨rest, hother, haligned⟩ := hrelated.exists_of_error
      rw [hother]
      have hleft := (hwrites.of_error (reset_valid hcapacity) haction).2.2.capacity_eq
      exact .error fault hleft (haligned.capacity_eq.trans hleft)

theorem Refuses.repeats {action : Encode Unit} {length : Nat} {fault : EncodeError}
    (hrefuses : Refuses action length fault) (hrespects : Respects Aligned action) :
    action.Repeats := by
  intro buffer other hcapacity hsame
  have hrelated := hrespects buffer.reset other.reset ⟨rfl, hsame⟩
  obtain ⟨cause, left, haction, hextends⟩ := hrefuses.of_run (reset_valid hcapacity)
  rw [haction] at hrelated ⊢
  obtain ⟨rest, hother, haligned⟩ := hrelated.exists_of_error
  rw [hother]
  exact .error cause hextends.capacity_eq (haligned.capacity_eq.trans hextends.capacity_eq)

end Encode

/-! ## Encoders of records -/

theorem LogEncoder.Configured.repeats_encode {encoder : LogEncoder}
    {configured : List Attribute} {listed : Option (List String)}
    (hconfigured : encoder.Configured configured listed) (record : LogRecord) :
    (encoder.encode record).Repeats := by
  cases htime : record.time.inCalendar with
  | true =>
      exact (hconfigured.emits_encode htime).writes.repeats (encoder.respects_encode record)
  | false =>
      obtain ⟨length, hrefuses⟩ := encoder.exists_refuses_encode htime
      exact hrefuses.repeats (encoder.respects_encode record)

theorem SpanEncoder.repeats_encode_of_make {table : String} {configured : List Attribute}
    {listed : Option (List String)} {encoder : SpanEncoder}
    (hmake : SpanEncoder.make table configured listed = .ok encoder) (span : Span) :
    (encoder.encode span).Repeats := by
  by_cases hrange : span.IsInCalendar
  · obtain rfl := SpanEncoder.eq_of_make hmake
    exact (SpanEncoder.emits_placed table hrange.1 hrange.2 rfl rfl).writes.repeats
      (SpanEncoder.respects_encode _ span)
  · obtain ⟨length, hrefuses⟩ := encoder.exists_refuses_encode hrange
    exact hrefuses.repeats (encoder.respects_encode span)

end TelemetryExport
