import TelemetryExport.Proofs.Export.Shipping
import TelemetryExport.Proofs.Metric.Session

/-! # Delivery of a batch

An export loses, repeats, reorders and misplaces no point. The payloads carry the
points of the batch in the order of sending, cut into runs, without those that fit no
request; each is read as the request of its run; what is reported of a payload is what
a reader finds in it; and the outcome says how many points no accepted payload
carries.
-/

namespace TelemetryExport

/-- How many data points a payload is read as carrying. -/
def Message.Request.countPoints (payload : ByteArray) : Nat :=
  (Message.Request.decode payload).elim 0 (·.points.length)

/-- What an export of the batch did, and what came of it. -/
structure Delivers (properties : List Attribute) (capacity : Nat) (batch : List Metric)
    (outcome : Outcome) (journal : Journal) (shipments : List Shipment) : Prop where
  /-- These payloads were handed over, in this order, and so answered. -/
  attempts_eq : journal.attempts.toList = shipments.map fun shipment =>
    (shipment.payload, shipment.verdict)
  carries : ∀ shipment ∈ shipments, shipment.Carries properties capacity
  /-- Their runs make up the points of the batch, without those that fit no request. -/
  runs_eq : shipments.flatMap (·.run) =
    (PlacedPoint.sendOrder batch).filter (·.fits properties capacity)
  /-- Of those that fit no request each was reported. -/
  dropped_eq : journal.dropped + (shipments.flatMap (·.run)).length =
    (PlacedPoint.sendOrder batch).length
  sendings_eq : journal.sendings = shipments.map fun shipment =>
    (Message.Request.countPoints shipment.payload, shipment.payload.size)
  outcome_ok : outcome = .ok () ↔ Shipment.accepted shipments = PlacedPoint.sendOrder batch
  outcome_error : outcome ≠ .ok () → outcome = .error (.partialFailure
    ((PlacedPoint.sendOrder batch).length - (Shipment.accepted shipments).length)
    (PlacedPoint.sendOrder batch).length)

variable {properties : List Attribute} {capacity : Nat}

theorem Shipment.Carries.countPoints_eq {shipment : Shipment}
    (hcarries : shipment.Carries properties capacity) :
    Message.Request.countPoints shipment.payload = shipment.run.length := by
  rw [Message.Request.countPoints, hcarries.decode_eq, Option.elim_some, hcarries.points_eq,
    List.length_map]

/-- The accepted points are the sent ones but for those of rejected payloads. -/
theorem Shipment.accepted_sublist (shipments : List Shipment) :
    (accepted shipments).Sublist (shipments.flatMap (·.run)) := by
  induction shipments with
  | nil => exact List.Sublist.refl _
  | cons shipment rest ih =>
      rw [accepted, List.filter_cons, List.flatMap_cons]
      cases shipment.verdict.isOk with
      | true =>
          rw [if_pos rfl, List.flatMap_cons]
          exact (List.Sublist.refl _).append ih
      | false => exact ih.trans (List.sublist_append_right _ _)

/-- When every point was seen and nothing is left in the packer, all is delivered. -/
theorem Packer.Shipping.delivers {batch : List Metric} {shipments : List Shipment}
    {packer : Packer} {journal : Journal}
    (hshipping : Packer.Shipping properties capacity (PlacedPoint.sendOrder batch).length
      (PlacedPoint.sendOrder batch) shipments [] packer journal) :
    Delivers properties capacity batch packer.tally.outcome journal shipments := by
  have hruns := hshipping.runs_eq
  have hfailed := hshipping.failed_eq
  rw [List.append_nil] at hruns
  rw [List.length_nil, Nat.add_zero] at hfailed
  have hsublist := Shipment.accepted_sublist shipments
  rw [hruns] at hsublist
  -- If as many points were accepted as there are, all of them were.
  have hok : packer.tally.failed = 0 ↔
      Shipment.accepted shipments = PlacedPoint.sendOrder batch := by
    constructor
    · intro hzero
      exact (hsublist.trans List.filter_sublist).eq_of_length (by omega)
    · intro hall
      rw [hall] at hfailed
      omega
  constructor
  · exact hshipping.attempts_eq
  · exact hshipping.carries
  · exact hruns
  · rw [hruns]
    exact hshipping.dropped_eq
  · rw [hshipping.sendings_eq]
    apply List.map_congr_left
    intro shipment hmem
    rw [(hshipping.carries shipment hmem).countPoints_eq]
  · rw [← hok]
    exact Tally.outcome_eq_ok_iff
  · intro hlost
    have hzero : packer.tally.failed ≠ 0 := mt Tally.outcome_eq_ok_iff.mpr hlost
    rw [Tally.outcome, if_neg hzero, hshipping.total_eq, ← hfailed, Nat.add_sub_cancel]

namespace MetricExporter

/-- What an export comes to when every point was seen and what remained was sent. -/
theorem exists_shipping_of_exportMetrics {exporter : MetricExporter}
    (hformat : RequestFormat.make properties = .ok exporter.format)
    (hcapacity : exporter.buffer.capacity ≤ maxPayloadSize) (batch : List Metric)
    (verdicts : List Verdict) :
    ∃ shipments packer journal,
      (exporter.exportMetrics (.scripted true) batch).run (Journal.start verdicts) =
        ((packer.tally.outcome, { exporter with buffer := packer.encoder.buffer }), journal) ∧
      Packer.Shipping properties exporter.buffer.capacity (PlacedPoint.sendOrder batch).length
        (PlacedPoint.sendOrder batch) shipments [] packer journal ∧
      shipments.map (·.run) =
        Cargo.pack properties exporter.buffer.capacity (PlacedPoint.sendOrder batch) := by
  obtain ⟨shipments, packer, journal, hrun, hshipping, hpack⟩ := Packer.shipping_writeAll hformat
    hcapacity batch verdicts true (PlacedPoint.sendOrder batch).length
  have hexport : (exporter.exportMetrics (.scripted true) batch).run (Journal.start verdicts) =
      (fun answer : Packer × Journal =>
        ((answer.1.tally.outcome, { exporter with buffer := answer.1.encoder.buffer }), answer.2))
        ((Packer.start exporter.format exporter.buffer (Metric.countPoints batch)).writeAll
          (.scripted true) (PlacedPoint.ofBatch batch) (Journal.start verdicts)) := rfl
  rw [← PlacedPoint.length_ofBatch, PlacedPoint.ofBatch_eq_sendOrder, hrun] at hexport
  exact ⟨shipments, packer, journal, hexport, hshipping, hpack⟩

/-- Whatever the batch, the resource, the capacity and the answers to the payloads, the
batch is delivered. -/
theorem delivers_of_exportMetrics {exporter : MetricExporter}
    (hformat : RequestFormat.make properties = .ok exporter.format)
    (hcapacity : exporter.buffer.capacity ≤ maxPayloadSize) (batch : List Metric)
    (verdicts : List Verdict) :
    ∃ shipments, Delivers properties exporter.buffer.capacity batch
      ((exporter.exportMetrics (.scripted true) batch).run (Journal.start verdicts)).1.1
      ((exporter.exportMetrics (.scripted true) batch).run (Journal.start verdicts)).2
      shipments := by
  obtain ⟨shipments, packer, journal, hexport, hshipping, -⟩ :=
    exists_shipping_of_exportMetrics hformat hcapacity batch verdicts
  rw [hexport]
  exact ⟨shipments, hshipping.delivers⟩

/-! ### A batch of two points that fill a request each -/

/-- An exporter whose requests have room for one plain point. -/
def plainExporter : MetricExporter := ⟨Session.plainFormat, Buffer.withCapacity 80⟩

theorem plainExporter_capacity_le : plainExporter.buffer.capacity ≤ maxPayloadSize := by
  rw [plainExporter, Buffer.capacity_withCapacity]
  decide

def plainBatch : List Metric :=
  [{ Session.plainMetric with
      data := .gauge [⟨[], .epoch, .epoch, .int 7, []⟩, ⟨[], .epoch, .epoch, .int 8, []⟩] }]

/-- The journal before the first payload, with an answer that rejects the second. -/
def plainJournal : Journal := Journal.start [.ok (), .error .disabled]

/-! ### A batch with points of every kind, one of which has no form -/

/-- A metric of the scope with the name. -/
def metricOf (scope : String) (data : MetricData) : Metric :=
  { Session.plainMetric with scope := ⟨scope, none, []⟩, data }

/-- The metrics of two scopes in turn. The second histogram has a bucket too few. -/
def mixedBatch : List Metric :=
  [metricOf "a" (.gauge [⟨[], .epoch, .epoch, .int 1, []⟩]),
    metricOf "b" (.sum [⟨[], .epoch, .epoch, .int 2, []⟩, ⟨[], .epoch, .epoch, .int 3, []⟩]
      .delta true),
    metricOf "a" (.histogram
      [⟨[], .epoch, .epoch, 4, none, [4, 0], [.zero], none, none, []⟩,
        ⟨[], .epoch, .epoch, 5, none, [5], [.zero], none, none, []⟩] .cumulative),
    metricOf "b" (.exponential
      [⟨[], .epoch, .epoch, 6, none, 0, 6, ⟨0, []⟩, ⟨0, []⟩, none, none, .zero⟩] .delta)]

/-- An exporter whose requests have room for two of these points. -/
def mixedExporter : MetricExporter := ⟨Session.plainFormat, Buffer.withCapacity 140⟩

theorem mixedExporter_capacity : mixedExporter.buffer.capacity = 140 := by
  rw [mixedExporter, Buffer.capacity_withCapacity]
  decide

/-- The points of the first scope are sent before those of the second, five of the six in
three payloads. -/
theorem delivers_mixedBatch :
    (PlacedPoint.sendOrder mixedBatch).map (·.index) = [0, 2, 2, 1, 1, 3] ∧
      ((mixedExporter.exportMetrics (.scripted true) mixedBatch).run
        plainJournal).2.sendings.map (·.1) = [2, 2, 1] ∧
      ((mixedExporter.exportMetrics (.scripted true) mixedBatch).run plainJournal).2.dropped = 1 ∧
      ∃ shipments, Delivers [] mixedExporter.buffer.capacity mixedBatch
        ((mixedExporter.exportMetrics (.scripted true) mixedBatch).run plainJournal).1.1
        ((mixedExporter.exportMetrics (.scripted true) mixedBatch).run plainJournal).2
        shipments := by
  have hcapacity : mixedExporter.buffer.capacity ≤ maxPayloadSize := by
    rw [mixedExporter_capacity]
    decide
  obtain ⟨shipments, packer, journal, hexport, hshipping, hpack⟩ :=
    exists_shipping_of_exportMetrics Session.make_plain hcapacity mixedBatch
      [.ok (), .error .disabled]
  rw [plainJournal]
  refine ⟨by decide +kernel, ?_, ?_,
    delivers_of_exportMetrics Session.make_plain hcapacity mixedBatch _⟩
  · have hlengths : journal.sendings.map (·.1) = (shipments.map (·.run)).map List.length := by
      rw [hshipping.sendings_eq, List.map_map, List.map_map]
      rfl
    rw [hexport]
    refine hlengths.trans ?_
    rw [hpack, mixedExporter_capacity]
    decide +kernel
  · have hdropped := hshipping.dropped_eq
    have hfits : ((PlacedPoint.sendOrder mixedBatch).filter (·.fits [] 140)).length = 5 := by
      decide +kernel
    have hpoints : (PlacedPoint.sendOrder mixedBatch).length = 6 := by decide +kernel
    rw [mixedExporter_capacity, hfits, hpoints] at hdropped
    rw [hexport]
    change journal.dropped = 1
    omega

end MetricExporter

end TelemetryExport
