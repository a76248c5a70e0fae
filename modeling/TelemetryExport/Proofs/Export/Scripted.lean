import TelemetryExport.Export.Tally

/-! # Scripted transports

A journal tells what an export handed over and reported. With a scripted transport each
step of an export has one outcome, which the verdicts in the journal decide.
-/

namespace TelemetryExport

/-! ## Journals -/

namespace Event

/-- The points and bytes of a payload about to be sent. -/
def sending? : Event → Option (Nat × Nat)
  | sending points bytes => some (points, bytes)
  | _ => none

def isDropped : Event → Bool
  | dropped .. => true
  | _ => false

end Event

namespace Journal

/-- What was reported of the payloads, in order. -/
def sendings (journal : Journal) : List (Nat × Nat) :=
  journal.events.toList.filterMap Event.sending?

/-- How many units were reported as left out. -/
def dropped (journal : Journal) : Nat := (journal.events.toList.filter Event.isDropped).length

/-- The journal with one more event. -/
def record (journal : Journal) (event : Event) : Journal :=
  { journal with events := journal.events.push event }

theorem sendings_record (journal : Journal) (event : Event) :
    (journal.record event).sendings = journal.sendings ++ event.sending?.toList := by
  rw [sendings, record, Array.toList_push, List.filterMap_append]
  cases event <;> rfl

theorem dropped_record (journal : Journal) (event : Event) :
    (journal.record event).dropped = journal.dropped + event.isDropped.toNat := by
  rw [dropped, record, Array.toList_push, List.filter_append, List.length_append]
  cases event <;> rfl

end Journal

theorem Tally.outcome_eq_ok_iff {tally : Tally} : tally.outcome = .ok () ↔ tally.failed = 0 := by
  rw [outcome]
  by_cases hzero : tally.failed = 0
  · rw [if_pos hzero]
    exact iff_of_true rfl hzero
  · rw [if_neg hzero]
    refine iff_of_false ?_ hzero
    intro hok
    cases hok

/-! ## Steps of a scripted transport -/

section

variable (enabled : Bool) (journal : Journal)

theorem bind_scripted {σ α β : Type} {first : StateM σ α} {next : α → StateM σ β}
    {before after : σ} {value : α} (hfirst : first before = (value, after)) :
    (first >>= next) before = next value after := by
  change (fun answer : α × σ => next answer.1 answer.2) (first before) = _
  rw [hfirst]

theorem map_scripted {σ α β : Type} {first : StateM σ α} {change : α → β}
    {before after : σ} {value : α} (hfirst : first before = (value, after)) :
    (change <$> first) before = (change value, after) := by
  change (fun answer : α × σ => (change answer.1, answer.2)) (first before) = _
  rw [hfirst]

theorem report_scripted (event : Event) :
    (Transport.scripted enabled).report event journal = ((), journal.record event) := rfl

theorem Tally.drop_scripted (kind : UnitKind) (cause : EncodeError) (tally : Tally) :
    tally.drop (.scripted enabled) kind cause journal =
      ({ tally with failed := tally.failed + 1 }, journal.record (.dropped kind cause)) := rfl

/-- Only the first rejection of an export is reported. -/
theorem Tally.reject_scripted (units : Nat) (cause : TransportError) (tally : Tally) :
    tally.reject (.scripted enabled) units cause journal =
      ({ tally with failed := tally.failed + units, rejections := tally.rejections + 1 },
        if tally.rejections = 0 then journal.record (.rejected units cause) else journal) := by
  by_cases hfirst : tally.rejections = 0
  · simp only [Tally.reject, hfirst, if_true]
    rfl
  · simp only [Tally.reject, hfirst, if_false]
    rfl

variable (payload : ByteArray)

theorem Journal.attempts_attempt : (journal.attempt payload).2.attempts.toList =
    journal.attempts.toList ++ [(payload, (journal.attempt payload).1)] :=
  Array.toList_push

theorem Transport.send_scripted :
    (Transport.scripted enabled).send payload journal = journal.attempt payload := rfl

theorem Tally.send_of_ok (units : Nat) (tally : Tally)
    (hverdict : (journal.attempt payload).1 = .ok ()) :
    tally.send (.scripted enabled) units payload journal =
      (tally, (journal.attempt payload).2) := by
  have hanswer : (Transport.scripted enabled).send payload journal =
      (.ok (), (journal.attempt payload).2) := by
    rw [Transport.send_scripted, ← hverdict]
  exact bind_scripted hanswer

theorem Tally.send_of_error (units : Nat) (tally : Tally) {cause : TransportError}
    (hverdict : (journal.attempt payload).1 = .error cause) :
    tally.send (.scripted enabled) units payload journal =
      ({ tally with failed := tally.failed + units, rejections := tally.rejections + 1 },
        if tally.rejections = 0 then
          (journal.attempt payload).2.record (.rejected units cause)
        else (journal.attempt payload).2) := by
  have hanswer : (Transport.scripted enabled).send payload journal =
      (.error cause, (journal.attempt payload).2) := by
    rw [Transport.send_scripted, ← hverdict]
  exact (bind_scripted hanswer).trans (Tally.reject_scripted enabled _ units cause tally)

/-- A payload that is answered: the answer and what it does to the tally. -/
theorem Tally.send_scripted (units : Nat) (tally : Tally) :
    ∃ counted after, tally.send (.scripted enabled) units payload journal = (counted, after) ∧
      after.attempts.toList =
        journal.attempts.toList ++ [(payload, (journal.attempt payload).1)] ∧
      after.sendings = journal.sendings ∧ after.dropped = journal.dropped ∧
      counted.total = tally.total ∧
      counted.failed + (if (journal.attempt payload).1.isOk then units else 0) =
        tally.failed + units := by
  have hattempts := journal.attempts_attempt payload
  cases hverdict : (journal.attempt payload).1 with
  | ok =>
      rw [hverdict] at hattempts
      exact ⟨_, _, Tally.send_of_ok enabled journal payload units tally hverdict, hattempts, rfl,
        rfl, rfl, rfl⟩
  | error cause =>
      rw [hverdict] at hattempts
      refine ⟨_, _, Tally.send_of_error enabled journal payload units tally hverdict, ?_⟩
      -- The report of a rejection, if there is one, counts neither as a sending nor as a drop.
      by_cases hfirst : tally.rejections = 0
      · rw [if_pos hfirst]
        exact ⟨hattempts, (Journal.sendings_record _ _).trans (List.append_nil _),
          Journal.dropped_record _ _, rfl, rfl⟩
      · rw [if_neg hfirst]
        exact ⟨hattempts, rfl, rfl, rfl, rfl⟩

end

end TelemetryExport
