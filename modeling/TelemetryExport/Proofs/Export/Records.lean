import TelemetryExport.Export.Records
import TelemetryExport.Proofs.Record.Repeats

/-! # Exports of records without their buffer

An export of records writes one unit after the other into one buffer, which other exports
have used before. What it does follows nevertheless from what each unit is by itself, in a
new buffer of the capacity. The same export is therefore told here without any buffer.
-/

namespace TelemetryExport

/-! ## Units by themselves -/

namespace Encode

/-- What a computation writes into a new buffer of the capacity, or the fault in which it
ends there. -/
def alone (capacity : Nat) (action : Encode Unit) : Except EncodeError ByteArray :=
  match action (Buffer.withCapacity capacity) with
  | .ok _ after => .ok after.written
  | .error fault _ => .error fault

variable {action : Encode Unit} {capacity : Nat} {buffer : Buffer} {payload : ByteArray}
  {fault : EncodeError}

theorem exists_of_alone_ok (halone : action.alone capacity = .ok payload) :
    ∃ after, action (Buffer.withCapacity capacity) = .ok () after ∧ payload = after.written := by
  rw [alone] at halone
  cases haction : action (Buffer.withCapacity capacity) with
  | ok result after =>
      rw [haction] at halone
      cases halone
      exact ⟨after, rfl, rfl⟩
  | error cause left =>
      rw [haction] at halone
      cases halone

theorem exists_of_alone_error (halone : action.alone capacity = .error fault) :
    ∃ left, action (Buffer.withCapacity capacity) = .error fault left := by
  rw [alone] at halone
  cases haction : action (Buffer.withCapacity capacity) with
  | ok result after =>
      rw [haction] at halone
      cases halone
  | error cause left =>
      rw [haction] at halone
      cases halone
      exact ⟨left, rfl⟩

theorem Repeats.alike_withCapacity (hrepeats : action.Repeats)
    (hcapacity : buffer.capacity = min capacity maxPayloadSize) :
    Alike buffer.capacity (action buffer.reset) (action (Buffer.withCapacity capacity)) := by
  have hle : buffer.capacity ≤ maxPayloadSize := by
    rw [hcapacity]
    exact Nat.min_le_right _ _
  exact hrepeats buffer (Buffer.withCapacity capacity) hle
    ((Buffer.capacity_withCapacity capacity).trans hcapacity.symm)

theorem Repeats.run_of_alone_ok (hrepeats : action.Repeats)
    (hcapacity : buffer.capacity = min capacity maxPayloadSize)
    (halone : action.alone capacity = .ok payload) :
    ∃ after, action buffer.reset = .ok () after ∧ after.written = payload ∧
      after.capacity = buffer.capacity := by
  have halike := hrepeats.alike_withCapacity hcapacity
  obtain ⟨fresh, hfresh, rfl⟩ := exists_of_alone_ok halone
  rw [hfresh] at halike
  generalize action buffer.reset = outcome at halike ⊢
  cases halike with
  | ok hwritten hafter _ => exact ⟨_, rfl, hwritten.symm, hafter⟩

theorem Repeats.run_of_alone_error (hrepeats : action.Repeats)
    (hcapacity : buffer.capacity = min capacity maxPayloadSize)
    (halone : action.alone capacity = .error fault) :
    ∃ left, action buffer.reset = .error fault left ∧ left.capacity = buffer.capacity := by
  have halike := hrepeats.alike_withCapacity hcapacity
  obtain ⟨fresh, hfresh⟩ := exists_of_alone_error halone
  rw [hfresh] at halike
  generalize action buffer.reset = outcome at halike ⊢
  cases halike with
  | error _ hleft _ => exact ⟨_, rfl, hleft⟩

/-! ### Computations with one encoding -/

variable {bytes : List UInt8}

theorem Writes.alone_of_le (hwrites : Writes action bytes ())
    (hcapacity : bytes.length ≤ capacity) (hlength : bytes.length ≤ maxPayloadSize) :
    action.alone capacity = .ok bytes.toByteArray := by
  have hroom : (Buffer.withCapacity capacity).cursor + bytes.length ≤
      (Buffer.withCapacity capacity).capacity := by
    rw [Buffer.capacity_withCapacity]
    change 0 + _ ≤ _
    omega
  rw [alone, hwrites.appends _ (Buffer.withCapacity_valid capacity) hroom]
  exact congrArg Except.ok (Buffer.written_append rfl hroom)

theorem Writes.isOverflow_of_alone (hwrites : Writes action bytes ())
    (halone : action.alone capacity = .error fault) : fault.isOverflow = true := by
  obtain ⟨left, haction⟩ := exists_of_alone_error halone
  exact (hwrites.of_error (Buffer.withCapacity_valid capacity) haction).2.1

/-- By itself a computation writes the same within any capacity that holds it. -/
theorem Writes.alone_iff (hwrites : Writes action bytes ()) :
    action.alone capacity = .ok payload ↔
      action.run = .ok ((), payload) ∧ payload.size ≤ capacity := by
  constructor
  · intro halone
    obtain ⟨after, haction, rfl⟩ := exists_of_alone_ok halone
    obtain ⟨hroom, -, rfl⟩ := hwrites.of_ok (Buffer.withCapacity_valid capacity) haction
    rw [Buffer.written_append rfl hroom, List.size_toByteArray]
    rw [Buffer.capacity_withCapacity] at hroom
    change 0 + _ ≤ _ at hroom
    exact ⟨hwrites.run_eq (by omega), by omega⟩
  · rintro ⟨hrun, hsize⟩
    obtain ⟨hlength, -, rfl⟩ := hwrites.of_run hrun
    rw [List.size_toByteArray] at hsize
    exact hwrites.alone_of_le hsize hlength

end Encode

/-! ## Exports -/

section

variable {m : Type → Type} [Monad m] {α : Type} (transport : Transport m) (kind : UnitKind)
  (encode : α → Encode Unit) (capacity : Nat)

/-- Sends units one by one, each as it is by itself. -/
def sendAlone : List α → Tally → m Outcome
  | [], tally => return tally.outcome
  | unit :: rest, tally =>
      match (encode unit).alone capacity with
      | .ok payload => do
          let tally ← tally.send transport 1 payload
          sendAlone rest tally
      | .error .timeOutOfRange => return .error (.encode .timeOutOfRange)
      | .error cause => do
          let tally ← tally.drop transport kind cause
          sendAlone rest tally

variable [LawfulMonad m] {encode} {units : List α}

/-- The buffer of an export has no part in what the transport sees, and what is left of it
does not follow from what the transport answers. -/
theorem exists_sendEach_eq (hunits : ∀ unit ∈ units, (encode unit).Repeats) {buffer : Buffer}
    (hcapacity : buffer.capacity = min capacity maxPayloadSize) :
    ∃ left : Buffer, left.capacity = buffer.capacity ∧ ∀ tally,
      sendEach transport kind encode units tally buffer =
        (·, left) <$> sendAlone transport kind encode capacity units tally := by
  induction units generalizing buffer with
  | nil =>
      refine ⟨buffer, rfl, fun tally => ?_⟩
      rw [sendEach, sendAlone, map_pure]
  | cons unit rest ih =>
      have hunit := hunits unit List.mem_cons_self
      have hrest : ∀ other ∈ rest, (encode other).Repeats :=
        fun other hmem => hunits other (List.mem_cons_of_mem _ hmem)
      cases halone : (encode unit).alone capacity with
      | ok payload =>
          obtain ⟨after, hrun, rfl, hafter⟩ := hunit.run_of_alone_ok hcapacity halone
          obtain ⟨left, hleft, hsame⟩ := ih hrest (hafter.trans hcapacity)
          refine ⟨left, hleft.trans hafter, fun tally => ?_⟩
          simp only [sendEach, sendAlone, hrun, halone, hsame, map_bind]
      | error cause =>
          obtain ⟨after, hrun, hafter⟩ := hunit.run_of_alone_error hcapacity halone
          obtain ⟨left, hleft, hsame⟩ := ih hrest (hafter.trans hcapacity)
          -- A time outside the calendar ends the export with this unit.
          by_cases htime : cause = .timeOutOfRange
          · subst htime
            refine ⟨after, hafter, fun tally => ?_⟩
            simp only [sendEach, sendAlone, hrun, halone, map_pure]
          · refine ⟨left, hleft.trans hafter, fun tally => ?_⟩
            simp only [sendEach, sendAlone, hrun, halone, hsame, map_bind]

/-- An export of records from any shared buffer. -/
theorem exists_exportEach_eq (hunits : ∀ unit ∈ units, (encode unit).Repeats)
    {shared : Buffer} (hshared : shared.capacity ≤ maxPayloadSize) :
    ∃ left : Buffer, left.capacity ≤ maxPayloadSize ∧
      exportEach transport kind encode capacity units shared = do
        if ← transport.isEnabled then
          (·, left) <$> sendAlone transport kind encode capacity units (.start units.length)
        else return (.ok (), shared) := by
  have hcapacity : (shared.sizedTo capacity).capacity = min capacity maxPayloadSize :=
    Buffer.capacity_sizedTo hshared capacity
  obtain ⟨left, hleft, hsame⟩ := exists_sendEach_eq transport kind capacity hunits hcapacity
  refine ⟨left, ?_, ?_⟩
  · rw [hleft, hcapacity]
    exact Nat.min_le_right _ _
  · simp only [exportEach, hsame]

/-- But for the buffer that it leaves, an export does not depend on the one it was given. -/
theorem fst_exportEach (hunits : ∀ unit ∈ units, (encode unit).Repeats) {shared : Buffer}
    (hshared : shared.capacity ≤ maxPayloadSize) :
    Prod.fst <$> exportEach transport kind encode capacity units shared = do
      if ← transport.isEnabled then
        sendAlone transport kind encode capacity units (.start units.length)
      else return .ok () := by
  obtain ⟨left, -, hexport⟩ := exists_exportEach_eq transport kind capacity hunits hshared
  rw [hexport, map_bind]
  refine congrArg (_ >>= ·) (funext fun enabled => ?_)
  cases enabled with
  | true =>
      simp only [if_true, Functor.map_map]
      exact id_map _
  | false => simp only [if_false, Bool.false_eq_true, map_pure]

end

end TelemetryExport
