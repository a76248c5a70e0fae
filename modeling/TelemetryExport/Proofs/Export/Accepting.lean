import Mathlib.Data.List.Basic
import TelemetryExport.Proofs.Export.Delivery

/-! # Transports that accept everything

An export changes the state of a transport by the steps of the transport only, so that what
holds of the state throughout those steps holds of it after an export. If no answer of a
scripted transport is a rejection, all payloads of an export are accepted.
-/

namespace TelemetryExport

/-- What holds of the state of a transport still holds after the computation. -/
def Maintains {σ α : Type} (holds : σ → Prop) (action : StateM σ α) : Prop :=
  ∀ state, holds state → holds (action state).2

/-- Whatever is sent or reported, it keeps holding. -/
structure Transport.Maintains {σ : Type} (holds : σ → Prop) (transport : Transport (StateM σ)) :
    Prop where
  isEnabled : TelemetryExport.Maintains holds transport.isEnabled
  send : ∀ payload, TelemetryExport.Maintains holds (transport.send payload)
  report : ∀ event, TelemetryExport.Maintains holds (transport.report event)

section

variable {σ α β : Type} {holds : σ → Prop} {transport : Transport (StateM σ)}

theorem maintains_pure (value : α) : Maintains holds (pure value : StateM σ α) :=
  fun _ hstate => hstate

theorem Maintains.bind {first : StateM σ α} {next : α → StateM σ β} (hfirst : Maintains holds first)
    (hnext : ∀ value, Maintains holds (next value)) : Maintains holds (first >>= next) :=
  fun state hstate => hnext (first state).1 _ (hfirst state hstate)

variable (htransport : transport.Maintains holds)
include htransport

theorem Tally.maintains_drop (kind : UnitKind) (cause : EncodeError) (tally : Tally) :
    Maintains holds (tally.drop transport kind cause) :=
  (htransport.report _).bind fun _ => maintains_pure _

theorem Tally.maintains_send (units : Nat) (payload : ByteArray) (tally : Tally) :
    Maintains holds (tally.send transport units payload) := by
  refine (htransport.send payload).bind fun verdict => ?_
  cases verdict with
  | ok => exact maintains_pure _
  | error cause =>
      unfold Tally.reject
      by_cases hfirst : tally.rejections = 0
      · simp only [hfirst, if_true]
        exact (htransport.report _).bind fun _ => maintains_pure _
      · simp only [hfirst, if_false]
        exact maintains_pure _

namespace Packer

theorem maintains_drop (cause : EncodeError) (packer : Packer) :
    Maintains holds (packer.drop transport cause) :=
  (Tally.maintains_drop htransport _ cause packer.tally).bind fun _ => maintains_pure _

theorem maintains_flush (packer : Packer) : Maintains holds (packer.flush transport) := by
  unfold Packer.flush
  by_cases hzero : packer.points = 0
  · rw [if_pos hzero]
    exact maintains_pure _
  · rw [if_neg hzero]
    exact (htransport.report _).bind fun _ =>
      (Tally.maintains_send htransport _ _ packer.tally).bind fun _ => maintains_pure _

theorem maintains_write (packer : Packer) (item : PlacedPoint) :
    Maintains holds (packer.write transport item) := by
  unfold Packer.write
  cases tryWrite item packer with
  | ok result next => exact maintains_pure _
  | error cause left =>
      by_cases hfull : (cause.isOverflow && decide (0 < left.points)) = true
      · simp only [hfull, if_true]
        refine (maintains_flush htransport left).bind fun flushed => ?_
        cases tryWrite item flushed with
        | ok result next => exact maintains_pure _
        | error cause last => exact maintains_drop htransport cause last
      · simp only [hfull, if_false, Bool.false_eq_true]
        exact maintains_drop htransport cause left

theorem maintains_foldlM (packer : Packer) (items : List PlacedPoint) :
    Maintains holds (items.foldlM (Packer.write transport) packer) := by
  induction items generalizing packer with
  | nil => exact maintains_pure _
  | cons item rest ih =>
      rw [List.foldlM_cons]
      exact (maintains_write htransport packer item).bind fun next => ih next

end Packer

/-- What the transport keeps, an export over it keeps. -/
theorem MetricExporter.maintains_exportMetrics (exporter : MetricExporter) (batch : List Metric) :
    Maintains holds (exporter.exportMetrics transport batch) := by
  refine htransport.isEnabled.bind fun enabled => ?_
  cases enabled with
  | true =>
      exact ((Packer.maintains_foldlM htransport _ _).bind fun packer =>
        Packer.maintains_flush htransport packer).bind fun _ => maintains_pure _
  | false => exact maintains_pure _

end

/-- No payload was rejected, and none will be. -/
structure Journal.AcceptsAll (journal : Journal) : Prop where
  verdicts_eq : journal.verdicts = []
  attempts_ok : ∀ attempt ∈ journal.attempts.toList, attempt.2 = .ok ()

theorem Transport.maintains_acceptsAll (enabled : Bool) :
    (scripted enabled).Maintains Journal.AcceptsAll where
  isEnabled := maintains_pure _
  send := by
    rintro payload journal ⟨hverdicts, hattempts⟩
    refine ⟨congrArg List.tail hverdicts, fun attempt hmem => ?_⟩
    change attempt ∈ (journal.attempt payload).2.attempts.toList at hmem
    rw [Journal.attempts_attempt] at hmem
    rcases List.mem_append.mp hmem with hmem | hmem
    · exact hattempts attempt hmem
    · rw [List.mem_singleton.mp hmem]
      change journal.verdicts.headD _ = _
      rw [hverdicts, List.headD_nil]
  report := fun _ _ hjournal => ⟨hjournal.verdicts_eq, hjournal.attempts_ok⟩

theorem MetricExporter.acceptsAll_exportMetrics (exporter : MetricExporter)
    (batch : List Metric) :
    ((exporter.exportMetrics (.scripted true) batch).run (Journal.start [])).2.AcceptsAll :=
  maintains_exportMetrics (Transport.maintains_acceptsAll true) exporter batch _
    ⟨rfl, fun _ hmem => absurd hmem List.not_mem_nil⟩

/-- Where no payload is rejected, the points that fit no request are lost, and no others. -/
theorem Packer.Shipping.failed_of_acceptsAll {properties : List Attribute}
    {capacity total : Nat} {points : List PlacedPoint} {shipments : List Shipment}
    {packer : Packer} {journal : Journal}
    (hshipping : Shipping properties capacity total points shipments [] packer journal)
    (haccepts : journal.AcceptsAll) :
    packer.tally.failed = (points.filter (!·.fits properties capacity)).length := by
  have haccepted : Shipment.accepted shipments = shipments.flatMap (·.run) := by
    rw [Shipment.accepted, List.filter_eq_self.mpr]
    intro shipment hmem
    have hattempt : (shipment.payload, shipment.verdict) ∈ journal.attempts.toList := by
      rw [hshipping.attempts_eq]
      exact List.mem_map_of_mem hmem
    have hverdict : shipment.verdict = .ok () := haccepts.attempts_ok _ hattempt
    rw [hverdict]
    rfl
  have hruns := hshipping.runs_eq
  have hfailed := hshipping.failed_eq
  have hsplit := List.length_eq_length_filter_add (l := points) (·.fits properties capacity)
  rw [List.append_nil] at hruns
  rw [haccepted, hruns, List.length_nil, Nat.add_zero] at hfailed
  omega

end TelemetryExport
