import TelemetryExport.Proofs.Export.Delivery

/-! # The fate of a point

Whether an export leaves a point out is a matter of the point, of what stands around it
in a request and of the capacity. A point is left out when it has no form in the schema,
or when a request with nothing but the point in it is longer than the capacity. The other
points of the batch, how far the request is filled when the turn comes to the point, and
the answers to the payloads do not matter.
-/

namespace TelemetryExport

open WrittenField Wire

namespace DataPoint

/-- The point has no form in the schema. A histogram may come without any buckets. -/
def Malformed : DataPoint → Prop
  | number _ => False
  | histogram point => point.counts ≠ [] ∧ point.counts.length ≠ point.bounds.length + 1
  | exponential point => point.scale.toInt < -10 ∨ 20 < point.scale.toInt

/-- The histogram has not one bucket more than bounds, be it that it has no bucket at
all, or the scale is out of range. -/
def Mismatched : DataPoint → Prop
  | number _ => False
  | histogram point => point.counts.length ≠ point.bounds.length + 1
  | exponential point => point.scale.toInt < -10 ∨ 20 < point.scale.toInt

theorem isValid_eq_false_iff {point : DataPoint} : point.isValid = false ↔ point.Malformed := by
  cases point with
  | number point => exact iff_of_false (fun heq => nomatch heq) id
  | histogram point =>
      rw [isValid, Malformed, decide_eq_false_iff_not, not_or]
  | exponential point =>
      rw [isValid, Malformed, decide_eq_false_iff_not]
      omega

end DataPoint

namespace PlacedPoint

variable (properties : List Attribute) (item : PlacedPoint)

/-! ### A point alone, from the inside out -/

def aloneInInstrument : WrittenField :=
  message (Schema.Metric.instrument (.ofData item.metric.data))
    (encodeAll (item.metric.data.headerFields ++ [RequestEncoder.pointField item.point]))

def aloneInMetric : WrittenField :=
  message Schema.ScopeMetrics.metrics
    (encodeAll (item.metric.headerFields ++ [item.aloneInInstrument]))

def aloneInScope : WrittenField :=
  message Schema.ResourceMetrics.scopeMetrics
    (encodeAll [item.scope.field, item.aloneInMetric])

/-- The request made of the resource, the headers around the point, and the point. -/
def alone : List UInt8 :=
  encodeAll [message Schema.Request.resourceMetrics
    (encodeAll [RequestFormat.resourceField properties, item.aloneInScope])]

theorem bytes_append_empty :
    (Draft.empty.append properties item).bytes = item.alone properties := rfl

/-- The length of the request decides whether a point that has a form fits. -/
theorem fits_eq_false_iff {capacity : Nat} : item.fits properties capacity = false ↔
    item.point.Malformed ∨ capacity < (item.alone properties).length := by
  have hlength : (item.alone properties).length =
      item.openLength properties + item.point.cost := by
    rw [← bytes_append_empty, Draft.length_bytes_append, Draft.cost_empty]
    exact Nat.zero_add _
  rw [hlength, ← DataPoint.isValid_eq_false_iff, fits, Bool.and_eq_false_iff,
    decide_eq_false_iff_not, Nat.not_le]

end PlacedPoint

/-- How many points are left out as a journal goes on. -/
theorem Packer.Shipping.dropped_concat {properties : List Attribute} {capacity total : Nat}
    {seen : List PlacedPoint} {item : PlacedPoint} {shipments sent : List Shipment}
    {run extended : List PlacedPoint} {packer next : Packer} {journal after : Journal}
    (hshipping : Shipping properties capacity total seen shipments run packer journal)
    (hnext : Shipping properties capacity total (seen ++ [item]) sent extended next after) :
    after.dropped = journal.dropped + if item.fits properties capacity then 0 else 1 := by
  have hbefore := hshipping.dropped_eq
  have hafter := hnext.dropped_eq
  rw [List.filter_append, List.length_append, List.length_append, List.filter_cons,
    List.filter_nil, List.length_singleton] at hafter
  cases hfits : item.fits properties capacity with
  | true =>
      rw [hfits, if_pos rfl, List.length_singleton] at hafter
      rw [if_pos rfl]
      omega
  | false =>
      rw [hfits, if_neg Bool.false_ne_true, List.length_nil] at hafter
      rw [if_neg Bool.false_ne_true]
      omega

namespace MetricExporter

/-- Whether the point can be written into an empty request of the exporter. -/
def encodesAlone (exporter : MetricExporter) (item : PlacedPoint) : Bool :=
  match Packer.tryWrite item (Packer.start exporter.format exporter.buffer 1) with
  | .ok .. => true
  | .error .. => false

/-- The packer and the journal of an export that has come so far through its batch. -/
def handle (exporter : MetricExporter) (verdicts : List Verdict) (total : Nat)
    (points : List PlacedPoint) : Packer × Journal :=
  points.foldlM (Packer.write (.scripted true))
    (Packer.start exporter.format exporter.buffer total) (Journal.start verdicts)

/-- Which points of the batch an export leaves out. -/
structure LeavesOut (properties : List Attribute) (exporter : MetricExporter)
    (batch : List Metric) (verdicts : List Verdict) : Prop where
  /-- The batch is handled point by point, and what remains is sent. -/
  journal_eq : ((exporter.exportMetrics (.scripted true) batch).run (Journal.start verdicts)).2 =
    let packed := exporter.handle verdicts (PlacedPoint.sendOrder batch).length
      (PlacedPoint.sendOrder batch)
    (packed.1.flush (.scripted true) packed.2).2
  /-- When its turn comes, a point is reported as left out just if it cannot be encoded
  alone, whatever stands before and behind it. -/
  dropped_eq : ∀ before item rest, PlacedPoint.sendOrder batch = before ++ item :: rest →
    let total := (PlacedPoint.sendOrder batch).length
    (exporter.handle verdicts total (before ++ [item])).2.dropped =
      (exporter.handle verdicts total before).2.dropped +
        if exporter.encodesAlone item then 0 else 1
  /-- The others are all in the payloads. -/
  carries : ∃ shipments, Delivers properties exporter.buffer.capacity batch
      ((exporter.exportMetrics (.scripted true) batch).run (Journal.start verdicts)).1.1
      ((exporter.exportMetrics (.scripted true) batch).run (Journal.start verdicts)).2
      shipments ∧
    shipments.flatMap (·.run) = (PlacedPoint.sendOrder batch).filter exporter.encodesAlone
  /-- What it takes that a point cannot be encoded alone. -/
  encodesAlone_eq_false_iff : ∀ item, exporter.encodesAlone item = false ↔
    item.point.Malformed ∨ exporter.buffer.capacity < (item.alone properties).length
  /-- What a request holds in which the point was encoded alone. -/
  payload_eq : ∀ item next,
    Packer.tryWrite item (Packer.start exporter.format exporter.buffer 1) = .ok () next →
    next.encoder.payload.data.toList = item.alone properties

variable {properties : List Attribute} {exporter : MetricExporter}

/-- An empty request takes just the points that fit. -/
theorem encodesAlone_eq_fits (hformat : RequestFormat.make properties = .ok exporter.format)
    (hcapacity : exporter.buffer.capacity ≤ maxPayloadSize) (item : PlacedPoint) :
    exporter.encodesAlone item = item.fits properties exporter.buffer.capacity := by
  have hstart := Packer.packs_start hformat hcapacity 1
  rcases hstart.tryWrite (List.pairwise_singleton _ item) with
    ⟨next, hrun, -, -, hfits⟩ | ⟨fault, left, hrun, -, -, -, hrefused⟩
  · rw [hfits, encodesAlone, hrun]
  · have hunfit : item.fits properties exporter.buffer.capacity = false := by
      rw [Bool.eq_false_iff]
      exact fun hfits => (hrefused hfits).2 rfl
    rw [hunfit, encodesAlone, hrun]

theorem payload_eq_alone (hformat : RequestFormat.make properties = .ok exporter.format)
    (hcapacity : exporter.buffer.capacity ≤ maxPayloadSize) {item : PlacedPoint} {next : Packer}
    (hrun : Packer.tryWrite item (Packer.start exporter.format exporter.buffer 1) = .ok () next) :
    next.encoder.payload.data.toList = item.alone properties := by
  have hstart := Packer.packs_start hformat hcapacity 1
  rcases hstart.tryWrite (List.pairwise_singleton _ item) with
    ⟨written, hok, hpacks, -⟩ | ⟨fault, left, herror, -⟩
  · rw [hrun] at hok
    cases hok
    rw [RequestEncoder.payload, Buffer.toList_written, hpacks.rests.bytes_eq]
    exact item.bytes_append_empty properties
  · rw [hrun] at herror
    cases herror

/-- The state of an export that has come so far. -/
theorem shipping_handle (hformat : RequestFormat.make properties = .ok exporter.format)
    (hcapacity : exporter.buffer.capacity ≤ maxPayloadSize) (verdicts : List Verdict)
    (total : Nat) {points : List PlacedPoint} (hsorted : points.Pairwise PlacedPoint.Before)
    (hpoints : ∀ item ∈ points, item.point ∈ item.metric.data.points) :
    ∃ shipments run, Packer.Shipping properties exporter.buffer.capacity total points shipments run
      (exporter.handle verdicts total points).1 (exporter.handle verdicts total points).2 := by
  obtain ⟨shipments, run, packer, journal, hfold, hshipping, -⟩ :=
    (Packer.shipping_start hformat hcapacity total verdicts).foldlM hsorted hpoints true
  refine ⟨shipments, run, ?_⟩
  rw [handle, hfold]
  exact hshipping

/-- Whatever the resource, the capacity, the batch and the answers to the payloads, the
points left out are those that cannot be encoded alone. -/
theorem leavesOut_of_exportMetrics
    (hformat : RequestFormat.make properties = .ok exporter.format)
    (hcapacity : exporter.buffer.capacity ≤ maxPayloadSize) (batch : List Metric)
    (verdicts : List Verdict) : LeavesOut properties exporter batch verdicts where
  journal_eq := by
    rw [← PlacedPoint.ofBatch_eq_sendOrder, PlacedPoint.length_ofBatch]
    rfl
  dropped_eq := by
    intro before item rest hbatch total
    rw [List.append_cons] at hbatch
    have hnext := PlacedPoint.pairwise_of_sendOrder_eq hbatch
    have hpoints : ∀ other ∈ before ++ [item], other.point ∈ other.metric.data.points :=
      fun _ => PlacedPoint.point_mem_of_sendOrder_eq hbatch
    obtain ⟨_, _, hearlier⟩ := shipping_handle hformat hcapacity verdicts total
      (hnext.sublist (List.sublist_append_left _ _))
      (fun other hmem => hpoints other (List.mem_append_left _ hmem))
    obtain ⟨_, _, hlater⟩ := shipping_handle hformat hcapacity verdicts total hnext hpoints
    rw [encodesAlone_eq_fits hformat hcapacity]
    exact hearlier.dropped_concat hlater
  carries := by
    obtain ⟨shipments, packer, journal, hexport, hshipping, -⟩ :=
      exists_shipping_of_exportMetrics hformat hcapacity batch verdicts
    rw [hexport]
    refine ⟨shipments, hshipping.delivers, ?_⟩
    rw [hshipping.delivers.runs_eq]
    apply List.filter_congr
    intro item _
    rw [encodesAlone_eq_fits hformat hcapacity]
  encodesAlone_eq_false_iff := by
    intro item
    rw [encodesAlone_eq_fits hformat hcapacity, PlacedPoint.fits_eq_false_iff]
  payload_eq := fun item next hrun => payload_eq_alone hformat hcapacity hrun

/-! ### Histograms whose buckets do not go with their bounds -/

/-- A histogram with a single bound and these bucket counts. -/
def histogramPoint (counts : List UInt64) : HistogramPoint :=
  ⟨[], .epoch, .epoch, 0, none, counts, [.zero], none, none, []⟩

def histogramBatch (counts : List UInt64) : List Metric :=
  [{ Session.plainMetric with data := .histogram [histogramPoint counts] .delta }]

theorem leavesOut_histogramBatch :
    ((plainExporter.exportMetrics (.scripted true) (histogramBatch [1])).run plainJournal).1.1 =
        .error (.partialFailure 1 1) ∧
      LeavesOut [] plainExporter (histogramBatch [1]) [.ok (), .error .disabled] := by
  constructor
  · decide +kernel
  · exact leavesOut_of_exportMetrics Session.make_plain plainExporter_capacity_le _ _

/-- A histogram without buckets has a bound too many, and is sent all the same. -/
theorem not_forall_dropped_iff_mismatched :
    ¬ ∀ (properties : List Attribute) (exporter : MetricExporter) (batch : List Metric)
        (verdicts : List Verdict) (before : List PlacedPoint) (item : PlacedPoint)
        (rest : List PlacedPoint),
      RequestFormat.make properties = .ok exporter.format →
      exporter.buffer.capacity ≤ maxPayloadSize →
      PlacedPoint.sendOrder batch = before ++ item :: rest →
      ((exporter.handle verdicts (PlacedPoint.sendOrder batch).length
            (before ++ [item])).2.dropped =
          (exporter.handle verdicts (PlacedPoint.sendOrder batch).length before).2.dropped + 1 ↔
        item.point.Mismatched ∨ exporter.buffer.capacity < (item.alone properties).length) := by
  intro hdecides
  have hmismatched : (histogramPoint []).counts.length ≠ (histogramPoint []).bounds.length + 1 := by
    decide
  have hdropped := (hdecides [] plainExporter (histogramBatch []) [] [] _ [] Session.make_plain
    plainExporter_capacity_le rfl).mpr (.inl hmismatched)
  revert hdropped
  decide +kernel

end MetricExporter

end TelemetryExport
