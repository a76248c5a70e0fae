import TelemetryExport.Proofs.Export.Records
import TelemetryExport.Proofs.Export.Scripted

/-! # Accounts of log and span batches

Every unit of a batch of records is accounted for. A unit that can be encoded is handed
over once, as the bytes that it is by itself, and any other is reported as left out. The
units that were left out and the payloads that were rejected are the ones that the outcome
counts as lost; of the rejections, the first is reported.
-/

namespace TelemetryExport

open Encode

/-! ## What a batch amounts to -/

/-- Why something failed, if it did. -/
def cause? {ε β : Type} : Except ε β → Option ε
  | .ok _ => none
  | .error cause => some cause

theorem cause?_eq_none_iff {ε β : Type} {result : Except ε β} :
    cause? result = none ↔ ∃ value, result = .ok value := by
  cases result with
  | ok value => exact ⟨fun _ => ⟨value, rfl⟩, fun _ => rfl⟩
  | error cause =>
      constructor
      · intro hcause
        cases hcause
      · rintro ⟨_, hok⟩
        cases hok

namespace Journal

/-- Payloads with the answers to them. Those behind the last verdict are accepted. -/
def answered : List Verdict → List ByteArray → List (ByteArray × Verdict)
  | _, [] => []
  | verdicts, payload :: rest =>
      (payload, verdicts.headD (.ok ())) :: answered verdicts.tail rest

/-- Why payloads were rejected, in order. -/
def rejections (attempts : List (ByteArray × Verdict)) : List TransportError :=
  attempts.filterMap (cause? ·.2)

/-- The units that were reported as left out, in order. -/
def drops (journal : Journal) : List Event := journal.events.toList.filter Event.isDropped

/-- All other reports, in order. -/
def notices (journal : Journal) : List Event := journal.events.toList.filter (!·.isDropped)

theorem drops_record (journal : Journal) (event : Event) :
    (journal.record event).drops = journal.drops ++ [event].filter Event.isDropped := by
  rw [drops, record, Array.toList_push, List.filter_append]
  rfl

theorem notices_record (journal : Journal) (event : Event) :
    (journal.record event).notices = journal.notices ++ [event].filter (!·.isDropped) := by
  rw [notices, record, Array.toList_push, List.filter_append]
  rfl

end Journal

namespace Batch

variable {α : Type} (encode : α → Encode Unit) (kind : UnitKind) (capacity : Nat)
  (units : List α)

/-- The encodings of the units that have one within the capacity. -/
def payloads : List ByteArray :=
  units.filterMap fun unit => ((encode unit).alone capacity).toOption

/-- The faults of the units that have none. -/
def faults : List EncodeError :=
  units.filterMap fun unit => cause? ((encode unit).alone capacity)

/-- The units that were lost, without an encoding or with their payload. -/
def lost (journal : Journal) : Nat :=
  (faults encode capacity units).length + (Journal.rejections journal.attempts.toList).length

/-- The account of an export whose payloads were answered by the verdicts. -/
structure Accounts (verdicts : List Verdict) (outcome : Outcome) (journal : Journal) : Prop where
  /-- A unit has an encoding where it can be encoded into the largest payload and that is
  within the capacity. It is the same in both. -/
  alone_iff : ∀ unit ∈ units, ∀ bytes, (encode unit).alone capacity = .ok bytes ↔
    (encode unit).run = .ok ((), bytes) ∧ bytes.size ≤ capacity
  /-- Each encoding is handed over once, in order, and nothing else is. -/
  attempts_eq : journal.attempts.toList =
    Journal.answered verdicts (payloads encode capacity units)
  size_le : ∀ attempt ∈ journal.attempts.toList, attempt.1.size ≤ capacity
  /-- Each unit without an encoding is reported, in order. -/
  drops_eq : journal.drops = (faults encode capacity units).map (.dropped kind)
  /-- Of the rejections the first is reported, and nothing else is. -/
  notices_eq : journal.notices =
    ((Journal.rejections journal.attempts.toList).take 1).map (.rejected 1)
  /-- The outcome counts the units without an encoding and the rejected payloads. -/
  outcome_eq : outcome =
    if lost encode capacity units journal = 0 then .ok ()
    else .error (.partialFailure (lost encode capacity units journal) units.length)
  ok_iff : outcome = .ok () ↔
    (∀ unit ∈ units, ∃ bytes, (encode unit).alone capacity = .ok bytes) ∧
      ∀ attempt ∈ journal.attempts.toList, attempt.2 = .ok ()

end Batch

/-! ## Steps of an export -/

namespace Batch

variable {α : Type} {encode : α → Encode Unit} {kind : UnitKind} {capacity : Nat}
  {units : List α} {unit : α} {tally settled : Tally} {journal after : Journal}

variable (encode kind capacity units) in
/-- What the units still to come add to a tally and a journal. -/
structure Settles (tally : Tally) (journal : Journal) (settled : Tally) (after : Journal) :
    Prop where
  attempts_eq : after.attempts.toList = journal.attempts.toList ++
    Journal.answered journal.verdicts (payloads encode capacity units)
  drops_eq : after.drops = journal.drops ++ (faults encode capacity units).map (.dropped kind)
  /-- A rejection is reported unless there was one before. -/
  notices_eq : after.notices = journal.notices ++
    ((Journal.rejections (Journal.answered journal.verdicts
      (payloads encode capacity units))).take (1 - tally.rejections)).map (.rejected 1)
  total_eq : settled.total = tally.total
  failed_eq : settled.failed = tally.failed + (faults encode capacity units).length +
    (Journal.rejections (Journal.answered journal.verdicts
      (payloads encode capacity units))).length

theorem payloads_cons_ok {payload : ByteArray}
    (halone : (encode unit).alone capacity = .ok payload) :
    payloads encode capacity (unit :: units) = payload :: payloads encode capacity units :=
  List.filterMap_cons_some (congrArg Except.toOption halone)

theorem payloads_cons_error {cause : EncodeError}
    (halone : (encode unit).alone capacity = .error cause) :
    payloads encode capacity (unit :: units) = payloads encode capacity units :=
  List.filterMap_cons_none (congrArg Except.toOption halone)

theorem faults_cons_ok {payload : ByteArray}
    (halone : (encode unit).alone capacity = .ok payload) :
    faults encode capacity (unit :: units) = faults encode capacity units :=
  List.filterMap_cons_none (congrArg cause? halone)

theorem faults_cons_error {cause : EncodeError}
    (halone : (encode unit).alone capacity = .error cause) :
    faults encode capacity (unit :: units) = cause :: faults encode capacity units :=
  List.filterMap_cons_some (congrArg cause? halone)

section

variable {payload : ByteArray} (rest : List ByteArray)

theorem rejections_answered_ok (hverdict : (journal.attempt payload).1 = .ok ()) :
    Journal.rejections (Journal.answered journal.verdicts (payload :: rest)) =
      Journal.rejections (Journal.answered (journal.attempt payload).2.verdicts rest) :=
  List.filterMap_cons_none (congrArg cause? hverdict)

theorem rejections_answered_error {cause : TransportError}
    (hverdict : (journal.attempt payload).1 = .error cause) :
    Journal.rejections (Journal.answered journal.verdicts (payload :: rest)) =
      cause :: Journal.rejections (Journal.answered (journal.attempt payload).2.verdicts rest) :=
  List.filterMap_cons_some (congrArg cause? hverdict)

end

/-- Of several rejections only the first is reported, and only where there was none before. -/
theorem take_cons_rejections (cause : TransportError) (causes : List TransportError)
    (before : Nat) : (cause :: causes).take (1 - before) = [cause].take (1 - before) := by
  cases before with
  | zero => rfl
  | succ count =>
      rw [Nat.sub_eq_zero_of_le (Nat.le_add_left 1 count), List.take_zero, List.take_zero]

theorem settles_nil : Settles encode kind capacity [] tally journal tally journal where
  attempts_eq := (List.append_nil _).symm
  drops_eq := (List.append_nil _).symm
  notices_eq := by
    rw [payloads, List.filterMap_nil, Journal.answered, Journal.rejections, List.filterMap_nil,
      List.take_nil, List.map_nil, List.append_nil]
  total_eq := rfl
  failed_eq := rfl

/-- A unit that cannot be encoded is reported and counted. -/
theorem Settles.drop {cause : EncodeError}
    (hsettles : Settles encode kind capacity units { tally with failed := tally.failed + 1 }
      (journal.record (.dropped kind cause)) settled after)
    (halone : (encode unit).alone capacity = .error cause) :
    Settles encode kind capacity (unit :: units) tally journal settled after where
  attempts_eq := by
    rw [payloads_cons_error halone]
    exact hsettles.attempts_eq
  drops_eq := by
    rw [faults_cons_error halone, hsettles.drops_eq, Journal.drops_record, List.append_assoc]
    rfl
  notices_eq := by
    have hnotices : (journal.record (.dropped kind cause)).notices = journal.notices :=
      (journal.notices_record _).trans (List.append_nil _)
    rw [payloads_cons_error halone, hsettles.notices_eq, hnotices]
    rfl
  total_eq := hsettles.total_eq
  failed_eq := by
    have hfailed := hsettles.failed_eq
    rw [payloads_cons_error halone, faults_cons_error halone, List.length_cons]
    simp only [Journal.record] at hfailed
    omega

/-- A payload that is accepted adds itself. -/
theorem Settles.accept {payload : ByteArray}
    (hsettles : Settles encode kind capacity units tally (journal.attempt payload).2 settled
      after)
    (halone : (encode unit).alone capacity = .ok payload)
    (hverdict : (journal.attempt payload).1 = .ok ()) :
    Settles encode kind capacity (unit :: units) tally journal settled after where
  attempts_eq := by
    rw [payloads_cons_ok halone, hsettles.attempts_eq, Journal.attempts_attempt,
      List.append_assoc]
    rfl
  drops_eq := by
    rw [faults_cons_ok halone]
    exact hsettles.drops_eq
  notices_eq := by
    rw [payloads_cons_ok halone, rejections_answered_ok _ hverdict]
    exact hsettles.notices_eq
  total_eq := hsettles.total_eq
  failed_eq := by
    rw [payloads_cons_ok halone, faults_cons_ok halone, rejections_answered_ok _ hverdict]
    exact hsettles.failed_eq

/-- A payload that is rejected is counted, and reported if it is the first. -/
theorem Settles.reject {payload : ByteArray} {cause : TransportError}
    (hsettles : Settles encode kind capacity units
      { tally with failed := tally.failed + 1, rejections := tally.rejections + 1 }
      (if tally.rejections = 0 then (journal.attempt payload).2.record (.rejected 1 cause)
        else (journal.attempt payload).2) settled after)
    (halone : (encode unit).alone capacity = .ok payload)
    (hverdict : (journal.attempt payload).1 = .error cause) :
    Settles encode kind capacity (unit :: units) tally journal settled after := by
  generalize hnoted : (if tally.rejections = 0 then
    (journal.attempt payload).2.record (.rejected 1 cause)
    else (journal.attempt payload).2) = noted at hsettles
  -- The report, where there is one, is neither a payload nor that of a unit left out.
  obtain ⟨hattempts, hverdicts, hdrops, hnotices⟩ :
      noted.attempts = (journal.attempt payload).2.attempts ∧
      noted.verdicts = (journal.attempt payload).2.verdicts ∧ noted.drops = journal.drops ∧
      noted.notices = journal.notices ++
        ([cause].take (1 - tally.rejections)).map (.rejected 1) := by
    subst hnoted
    by_cases hfirst : tally.rejections = 0
    · rw [if_pos hfirst, hfirst, Journal.drops_record, Journal.notices_record]
      exact ⟨rfl, rfl, List.append_nil _, rfl⟩
    · rw [if_neg hfirst, Nat.sub_eq_zero_of_le (Nat.one_le_iff_ne_zero.mpr hfirst)]
      exact ⟨rfl, rfl, rfl, (List.append_nil _).symm⟩
  have hrejections := rejections_answered_error (payloads encode capacity units) hverdict
  refine ⟨?_, ?_, ?_, hsettles.total_eq, ?_⟩
  · rw [payloads_cons_ok halone, hsettles.attempts_eq, hattempts, hverdicts,
      Journal.attempts_attempt, List.append_assoc]
    rfl
  · rw [faults_cons_ok halone, hsettles.drops_eq, hdrops]
  · rw [payloads_cons_ok halone, hrejections, take_cons_rejections, hsettles.notices_eq,
      hnotices, Nat.sub_eq_zero_of_le (Nat.le_add_left 1 tally.rejections), List.take_zero,
      List.map_nil, List.append_nil]
  · have hfailed := hsettles.failed_eq
    rw [hverdicts] at hfailed
    rw [payloads_cons_ok halone, faults_cons_ok halone, hrejections, List.length_cons]
    simp only at hfailed
    omega

/-- Units that lie in the calendar are all settled. -/
theorem exists_settles (enabled : Bool)
    (hunits : ∀ unit ∈ units, (encode unit).alone capacity ≠ .error .timeOutOfRange)
    (tally : Tally) (journal : Journal) :
    ∃ settled after, sendAlone (.scripted enabled) kind encode capacity units tally journal =
      (settled.outcome, after) ∧
      Settles encode kind capacity units tally journal settled after := by
  induction units generalizing tally journal with
  | nil => exact ⟨tally, journal, rfl, settles_nil⟩
  | cons unit rest ih =>
      have hunit := hunits unit List.mem_cons_self
      have hrest := ih fun other hmem => hunits other (List.mem_cons_of_mem _ hmem)
      cases halone : (encode unit).alone capacity with
      | ok payload =>
          simp only [sendAlone, halone]
          cases hverdict : (journal.attempt payload).1 with
          | ok =>
              obtain ⟨settled, after, hrun, hsettles⟩ := hrest tally (journal.attempt payload).2
              refine ⟨settled, after, ?_, hsettles.accept halone hverdict⟩
              rw [bind_scripted (Tally.send_of_ok enabled journal payload 1 tally hverdict)]
              exact hrun
          | error cause =>
              obtain ⟨settled, after, hrun, hsettles⟩ := hrest _ _
              refine ⟨settled, after, ?_, hsettles.reject halone hverdict⟩
              rw [bind_scripted (Tally.send_of_error enabled journal payload 1 tally hverdict)]
              exact hrun
      | error cause =>
          have htime : cause ≠ .timeOutOfRange := by
            rintro rfl
            exact hunit halone
          obtain ⟨settled, after, hrun, hsettles⟩ := hrest _ _
          refine ⟨settled, after, ?_, hsettles.drop halone⟩
          simp only [sendAlone, halone]
          rw [bind_scripted (Tally.drop_scripted enabled journal kind cause tally)]
          exact hrun

end Batch

/-! ## Whole exports -/

namespace Batch

variable {α : Type} {encode : α → Encode Unit} {kind : UnitKind} {capacity : Nat}
  {units : List α} {verdicts : List Verdict} {settled : Tally} {journal after : Journal}

theorem faults_eq_nil_iff : faults encode capacity units = [] ↔
    ∀ unit ∈ units, ∃ bytes, (encode unit).alone capacity = .ok bytes := by
  simp only [faults, List.filterMap_eq_nil_iff, cause?_eq_none_iff]

theorem rejections_eq_nil_iff {attempts : List (ByteArray × Verdict)} :
    Journal.rejections attempts = [] ↔ ∀ attempt ∈ attempts, attempt.2 = .ok () := by
  simp only [Journal.rejections, List.filterMap_eq_nil_iff, cause?_eq_none_iff]
  exact ⟨fun hall attempt hmem => (hall attempt hmem).elim fun _ => id,
    fun hall attempt hmem => ⟨(), hall attempt hmem⟩⟩

theorem mem_of_mem_answered {payloads : List ByteArray} {attempt : ByteArray × Verdict}
    (hmem : attempt ∈ Journal.answered verdicts payloads) : attempt.1 ∈ payloads := by
  induction payloads generalizing verdicts with
  | nil => cases hmem
  | cons payload rest ih =>
      rcases List.mem_cons.mp hmem with rfl | hrest
      · exact List.mem_cons_self
      · exact List.mem_cons_of_mem _ (ih hrest)

theorem exists_of_mem_payloads {payload : ByteArray}
    (hmem : payload ∈ payloads encode capacity units) :
    ∃ unit ∈ units, (encode unit).alone capacity = .ok payload := by
  obtain ⟨unit, hunit, hpayload⟩ := List.mem_filterMap.mp hmem
  refine ⟨unit, hunit, ?_⟩
  cases halone : (encode unit).alone capacity with
  | ok bytes =>
      rw [halone] at hpayload
      exact congrArg Except.ok (Option.some.inj hpayload)
  | error cause =>
      rw [halone] at hpayload
      cases hpayload

/-- What a whole batch adds to a new tally and a new journal is its account. -/
theorem Settles.accounts
    (hsettles : Settles encode kind capacity units (.start units.length) (.start verdicts)
      settled after)
    (hwrites : ∀ unit ∈ units, ∃ bytes, Writes (encode unit) bytes ()) :
    Accounts encode kind capacity units verdicts settled.outcome after := by
  have hattempts : after.attempts.toList =
      Journal.answered verdicts (payloads encode capacity units) := hsettles.attempts_eq
  have halone : ∀ unit ∈ units, ∀ bytes, (encode unit).alone capacity = .ok bytes ↔
      (encode unit).run = .ok ((), bytes) ∧ bytes.size ≤ capacity := by
    intro unit hmem bytes
    obtain ⟨written, hunit⟩ := hwrites unit hmem
    exact hunit.alone_iff
  have hfailed : settled.failed = lost encode capacity units after := by
    rw [lost, hattempts]
    exact hsettles.failed_eq.trans (congrArg (· + _) (Nat.zero_add _))
  refine ⟨halone, hattempts, ?_, hsettles.drops_eq, ?_, ?_, ?_⟩
  · intro attempt hmem
    rw [hattempts] at hmem
    obtain ⟨unit, hunit, hpayload⟩ := exists_of_mem_payloads (mem_of_mem_answered hmem)
    exact ((halone unit hunit _).mp hpayload).2
  · rw [hattempts]
    exact hsettles.notices_eq
  · rw [← hfailed, Tally.outcome, hsettles.total_eq]
    rfl
  · rw [Tally.outcome_eq_ok_iff, hfailed, lost, Nat.add_eq_zero_iff, List.length_eq_zero_iff,
      List.length_eq_zero_iff, faults_eq_nil_iff, rejections_eq_nil_iff]

/-- An export of units that each have one encoding. -/
theorem exists_accounts (kind : UnitKind) (capacity : Nat)
    (hwrites : ∀ unit ∈ units, ∃ bytes, Writes (encode unit) bytes ())
    (hrepeats : ∀ unit ∈ units, (encode unit).Repeats) {shared : Buffer}
    (hshared : shared.capacity ≤ maxPayloadSize) (verdicts : List Verdict) :
    ∃ outcome left after,
      exportEach (.scripted true) kind encode capacity units shared (.start verdicts) =
        ((outcome, left), after) ∧
      left.capacity ≤ maxPayloadSize ∧
      Accounts encode kind capacity units verdicts outcome after := by
  have hintime : ∀ unit ∈ units, (encode unit).alone capacity ≠ .error .timeOutOfRange := by
    intro unit hmem htime
    obtain ⟨bytes, hunit⟩ := hwrites unit hmem
    cases hunit.isOverflow_of_alone htime
  obtain ⟨left, hleft, hexport⟩ := exists_exportEach_eq (.scripted true) kind capacity hrepeats
    hshared
  obtain ⟨settled, after, hrun, hsettles⟩ :=
    exists_settles true hintime (.start units.length) (.start verdicts)
  refine ⟨settled.outcome, left, after, ?_, hleft, hsettles.accounts hwrites⟩
  have henabled : (Transport.scripted true).isEnabled = (pure true : StateM Journal Bool) := rfl
  rw [hexport, henabled, pure_bind, if_pos rfl]
  exact map_scripted hrun

end Batch

/-- Every export of log records or of spans with times in the calendar accounts for its
units, whatever the shared buffer holds. It leaves a buffer for the next export. -/
theorem accounts_of_make :
    (∀ (table : String) (mappings : List (String × String)) (configured : List Attribute)
        (listed : Option (List String)) (exporter : LogExporter),
      LogEncoder.make table mappings configured listed = .ok exporter.encoder →
      ∀ records : List LogRecord, (∀ record ∈ records, record.time.inCalendar = true) →
      ∀ shared : Buffer, shared.capacity ≤ maxPayloadSize → ∀ verdicts : List Verdict,
        ∃ outcome left after,
          exporter.exportRecords (.scripted true) records shared (.start verdicts) =
            ((outcome, left), after) ∧
          left.capacity ≤ maxPayloadSize ∧
          Batch.Accounts exporter.encoder.encode .logRecord exporter.capacity records verdicts
            outcome after) ∧
    ∀ (table : String) (configured : List Attribute) (listed : Option (List String))
        (exporter : SpanExporter),
      SpanEncoder.make table configured listed = .ok exporter.encoder →
      ∀ spans : List Span, (∀ span ∈ spans, span.IsInCalendar) →
      ∀ shared : Buffer, shared.capacity ≤ maxPayloadSize → ∀ verdicts : List Verdict,
        ∃ outcome left after,
          exporter.exportSpans (.scripted true) spans shared (.start verdicts) =
            ((outcome, left), after) ∧
          left.capacity ≤ maxPayloadSize ∧
          Batch.Accounts exporter.encoder.encode .span exporter.capacity spans verdicts
            outcome after := by
  constructor
  · intro table mappings configured listed exporter hmake records hrange shared hshared verdicts
    have hconfigured := LogEncoder.configured_of_make hmake
    exact Batch.exists_accounts .logRecord exporter.capacity
      (fun record hmem => ⟨_, (hconfigured.emits_encode (hrange record hmem)).writes⟩)
      (fun record _ => hconfigured.repeats_encode record) hshared verdicts
  · intro table configured listed exporter hmake spans hrange shared hshared verdicts
    have hwrites : ∀ span ∈ spans, ∃ bytes, Writes (exporter.encoder.encode span) bytes () := by
      intro span hmem
      rw [SpanEncoder.eq_of_make hmake]
      exact ⟨_, (SpanEncoder.emits_placed table (hrange span hmem).1 (hrange span hmem).2 rfl
        rfl).writes⟩
    exact Batch.exists_accounts .span exporter.capacity hwrites
      (fun span _ => SpanEncoder.repeats_encode_of_make hmake span) hshared verdicts

theorem accounts_of_samples :
    (∃ outcome left after,
      (LogExporter.mk LogEncoder.sampleEncoder 400).exportRecords (.scripted true)
        [LogEncoder.sampleRecord, LogEncoder.sampleRecord] Buffer.empty
        (.start [.error .disabled]) = ((outcome, left), after) ∧
      left.capacity ≤ maxPayloadSize ∧
      Batch.Accounts LogEncoder.sampleEncoder.encode .logRecord 400
        [LogEncoder.sampleRecord, LogEncoder.sampleRecord] [.error .disabled] outcome after) ∧
    ∃ outcome left after,
      (SpanExporter.mk ⟨RecordTemplate.ofParts "Span" SpanEncoder.sampleFields,
        some ["httpMethod", "user"]⟩ 16).exportSpans (.scripted true) [SpanEncoder.sampleSpan]
        Buffer.empty (.start []) = ((outcome, left), after) ∧
      left.capacity ≤ maxPayloadSize ∧
      Batch.Accounts (SpanEncoder.encode ⟨RecordTemplate.ofParts "Span" SpanEncoder.sampleFields,
        some ["httpMethod", "user"]⟩) .span 16 [SpanEncoder.sampleSpan] [] outcome after := by
  have hempty : Buffer.empty.capacity ≤ maxPayloadSize := Nat.le_of_eq Buffer.capacity_empty
  have hrecord : LogEncoder.sampleRecord.time.inCalendar = true := by decide
  have hspan : SpanEncoder.sampleSpan.IsInCalendar := ⟨by decide, by decide⟩
  constructor
  · exact accounts_of_make.1 _ _ _ _ ⟨LogEncoder.sampleEncoder, 400⟩ LogEncoder.make_sample _
      (by simp [hrecord]) _ hempty _
  · exact accounts_of_make.2 _ _ _ ⟨_, 16⟩ SpanEncoder.make_sample _ (by simp [hspan]) _ hempty _

end TelemetryExport
