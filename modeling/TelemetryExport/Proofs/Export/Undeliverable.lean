import Mathlib.Data.List.Forall2
import TelemetryExport.Proofs.Export.Accepting
import TelemetryExport.Proofs.Export.Encoding
import TelemetryExport.Proofs.Export.Fate

/-! # Points that cannot be delivered

A point that fits no request is in no payload. Still it can be seen in the payloads that it
was there: where it overflows a request that holds points, that request is sent before the
point is tried again. Between such places the payloads are those of a batch without the
points that cannot be delivered, byte for byte, and where there is no such place all of
them are. Otherwise such points only add to the count of the lost ones.
-/

namespace TelemetryExport

open WrittenField OpenMessage RequestEncoder

/-! ## Metrics without some of their points -/

/-- The instrument with some of its points only. -/
def MetricData.retain (keep : DataPoint → Bool) : MetricData → MetricData
  | gauge points => gauge (points.filter fun point => keep (.number point))
  | sum points temporality monotonic =>
      sum (points.filter fun point => keep (.number point)) temporality monotonic
  | histogram points temporality =>
      histogram (points.filter fun point => keep (.histogram point)) temporality
  | exponential points temporality =>
      exponential (points.filter fun point => keep (.exponential point)) temporality

/-- The metric with some of its points only. -/
def Metric.retain (keep : Metric → DataPoint → Bool) (metric : Metric) : Metric :=
  { metric with data := metric.data.retain (keep metric) }

/-- The point among those of its metric that are retained. -/
def PlacedPoint.retain (keep : Metric → DataPoint → Bool) (item : PlacedPoint) : PlacedPoint :=
  { item with metric := item.metric.retain keep }

theorem MetricData.points_retain (keep : DataPoint → Bool) (data : MetricData) :
    (data.retain keep).points = data.points.filter keep := by
  cases data <;> rw [retain, points, points, List.filter_map] <;> rfl

/-- Both openings write the same, and leave the same instrument open. -/
structure Opening.Alike (properties : List Attribute) (opening other : Opening) : Prop where
  fields_eq : opening.fields properties = other.fields properties
  message_eq : ∀ current, opening.message properties current = other.message properties current
  instrumentAfter_eq : ∀ current, opening.instrumentAfter current = other.instrumentAfter current

section

variable {properties : List Attribute} {openings others : List Opening}

theorem Opening.totalCost_of_alike (halike : List.Forall₂ (Alike properties) openings others) :
    totalCost properties openings = totalCost properties others := by
  induction halike with
  | nil => rfl
  | cons hfirst _ ih =>
      rw [totalCost, List.foldr_cons, cost, hfirst.fields_eq]
      exact congrArg (_ + ·) ih

theorem Draft.foldl_add_of_alike
    (halike : List.Forall₂ (Opening.Alike properties) openings others) (draft : Draft) :
    openings.foldl (add properties) draft = others.foldl (add properties) draft := by
  induction halike generalizing draft with
  | nil => rfl
  | cons hfirst _ ih =>
      rw [List.foldl_cons, List.foldl_cons, ih, add, hfirst.message_eq, hfirst.instrumentAfter_eq]
      rfl

end

section

variable (keep : Metric → DataPoint → Bool) (properties : List Attribute) (capacity : Nat)

/-- No header says anything of the points behind it. -/
theorem PlacedPoint.openings_retain (item : PlacedPoint) :
    List.Forall₂ (Opening.Alike properties) (item.retain keep).openings item.openings := by
  have hinstrument : Opening.Alike properties (.instrument (item.metric.retain keep).data)
      (.instrument item.metric.data) := by
    rw [Metric.retain]
    cases item.metric.data <;> exact ⟨rfl, fun _ => rfl, fun _ => rfl⟩
  exact .cons ⟨rfl, fun _ => rfl, fun _ => rfl⟩ (.cons ⟨rfl, fun _ => rfl, fun _ => rfl⟩
    (.cons ⟨rfl, fun _ => rfl, fun _ => rfl⟩ (.cons hinstrument .nil)))

theorem Draft.missing_retain (draft : Draft) (item : PlacedPoint) :
    List.Forall₂ (Opening.Alike properties) (draft.missing (item.retain keep))
      (draft.missing item) :=
  List.forall₂_drop _ (item.openings_retain keep properties)

theorem Draft.append_retain (draft : Draft) (item : PlacedPoint) :
    draft.append properties (item.retain keep) = draft.append properties item := by
  have hopened := foldl_add_of_alike (draft.missing_retain keep properties item)
    (draft.closeTo (draft.kept item))
  exact congrArg (put item) hopened

theorem Draft.leading_retain (draft : Draft) (item : PlacedPoint) :
    draft.leading properties (item.retain keep) = draft.leading properties item := by
  rw [leading, leading, Opening.totalCost_of_alike (draft.missing_retain keep properties item)]
  rfl

theorem PlacedPoint.fits_retain (item : PlacedPoint) :
    (item.retain keep).fits properties capacity = item.fits properties capacity := by
  have hcost := Opening.totalCost_of_alike (item.openings_retain keep properties)
  have hopen : (item.retain keep).openLength properties = item.openLength properties := hcost
  rw [fits, fits, hopen]
  rfl

theorem Draft.ofRun_retain (run : List PlacedPoint) :
    ofRun properties (run.map (·.retain keep)) = ofRun properties run := by
  rw [ofRun, List.foldl_map, ofRun]
  congr 1
  funext draft item
  exact draft.append_retain keep properties item

namespace Cargo

/-- The cargo with every point among those of its metric that are retained. -/
def retain (cargo : Cargo) : Cargo :=
  ⟨cargo.sent.map (List.map (·.retain keep)), cargo.run.map (·.retain keep)⟩

theorem cut_retain (cargo : Cargo) : (cargo.retain keep).cut = cargo.cut.retain keep := by
  by_cases hrun : cargo.run = []
  · rw [cut_of_nil hrun, cut_of_nil (List.map_eq_nil_iff.mpr hrun)]
  · rw [cut_of_ne_nil hrun, cut_of_ne_nil (mt List.map_eq_nil_iff.mp hrun), retain, retain,
      List.map_append]
    rfl

theorem overflows_retain (cargo : Cargo) (item : PlacedPoint) :
    (cargo.retain keep).overflows properties capacity (item.retain keep) =
      cargo.overflows properties capacity item := by
  rw [overflows, retain, Draft.ofRun_retain, Draft.leading_retain, overflows]

theorem load_retain (cargo : Cargo) (item : PlacedPoint) :
    (cargo.retain keep).load properties capacity (item.retain keep) =
      (cargo.load properties capacity item).retain keep := by
  have hpush : ∀ ready : Cargo, (ready.retain keep).push (item.retain keep) =
      (ready.push item).retain keep := by
    intro ready
    rw [push, push, retain, retain, List.map_append]
    rfl
  rw [load, load, overflows_retain, PlacedPoint.fits_retain, cut_retain]
  split <;> split <;> first | exact hpush _ | rfl

/-- Points are cut at the same places whatever else their metrics hold. -/
theorem pack_retain (items : List PlacedPoint) :
    pack properties capacity (items.map (·.retain keep)) =
      (pack properties capacity items).map (List.map (·.retain keep)) := by
  have hfold : ∀ cargo : Cargo,
      (items.map (·.retain keep)).foldl (load properties capacity) (cargo.retain keep) =
        (items.foldl (load properties capacity) cargo).retain keep := by
    induction items with
    | nil => exact fun _ => rfl
    | cons item rest ih =>
        intro cargo
        rw [List.map_cons, List.foldl_cons, List.foldl_cons, load_retain, ih]
  have hempty := hfold empty
  rw [pack, pack, show empty = empty.retain keep from rfl, hempty, cut_retain]
  rfl

end Cargo

end

/-! ## Batches without some of their points -/

namespace PlacedPoint

theorem sendOrder_retain (keep : Metric → DataPoint → Bool) (batch : List Metric) :
    sendOrder (batch.map (·.retain keep)) =
      ((sendOrder batch).filter fun item => keep item.metric item.point).map (·.retain keep) := by
  have hscopes : (batch.map (·.retain keep)).map (·.scope) = batch.map (·.scope) := by
    rw [List.map_map]
    rfl
  rw [sendOrder, sendOrder, hscopes, List.filter_flatMap, List.map_flatMap]
  congr 1
  funext position
  obtain ⟨scope, group⟩ := position
  -- Within a group the metrics stand in the same order.
  dsimp only
  rw [List.zipIdx_map, List.filter_map, List.flatMap_map, List.filter_flatMap, List.map_flatMap]
  congr 1
  funext member
  obtain ⟨metric, index⟩ := member
  rw [List.filter_map, List.map_map]
  change (metric.data.retain (keep metric)).points.map _ = _
  rw [MetricData.points_retain]
  rfl

end PlacedPoint

namespace Scope

/-- Of scopes that are the same the first one is the one first seen. -/
theorem find?_of_mem_firstSeen {scopes : List Scope} {first scope : Scope}
    (hfirst : first ∈ firstSeen scopes) (hsame : first.identity = scope.identity) :
    scopes.find? (·.identity = scope.identity) = some first := by
  induction scopes with
  | nil => exact absurd hfirst List.not_mem_nil
  | cons head rest ih =>
      rcases List.mem_cons.mp hfirst with rfl | hmem
      · rw [List.find?_cons, decide_eq_true hsame]
      · obtain ⟨hrest, hother⟩ := List.mem_filter.mp hmem
        have hhead : head.identity ≠ scope.identity := by
          intro hhead
          exact of_decide_eq_true hother (hsame.trans hhead.symm)
        rw [List.find?_cons, decide_eq_false hhead]
        exact ih hrest

/-- The scope that stands in a batch for all that are the same as the given one. -/
def heading (batch : List Metric) (scope : Scope) : Scope :=
  ((batch.map (·.scope)).find? (·.identity = scope.identity)).getD scope

end Scope

theorem PlacedPoint.heading_of_mem_sendOrder {batch : List Metric} {item : PlacedPoint}
    (hmem : item ∈ sendOrder batch) : Scope.heading batch item.metric.scope = item.scope := by
  obtain ⟨⟨scope, group⟩, hgroup, hmem⟩ := List.mem_flatMap.mp hmem
  obtain ⟨⟨metric, index⟩, hmetric, hmem⟩ := List.mem_flatMap.mp hmem
  obtain ⟨point, -, rfl⟩ := List.mem_map.mp hmem
  have hsame := of_decide_eq_true (List.mem_filter.mp hmetric).2
  rw [Scope.heading, Scope.find?_of_mem_firstSeen (List.fst_mem_of_mem_zipIdx hgroup) hsame.symm]
  rfl

/-! ## Exports -/

namespace MetricExporter

/-- What an export of the batch comes to when all its payloads are accepted. -/
def exportAccepted (exporter : MetricExporter) (batch : List Metric) : Outcome × Journal :=
  let ((outcome, _), journal) :=
    (exporter.exportMetrics (.scripted true) batch).run (Journal.start [])
  (outcome, journal)

/-- The payloads of that export. -/
def sends (exporter : MetricExporter) (batch : List Metric) : List (List UInt8) :=
  (exporter.exportAccepted batch).2.attempts.toList.map fun attempt => attempt.1.data.toList

/-- Whether a point of the batch can be encoded alone, with the headers it has there. -/
def isDeliverable (exporter : MetricExporter) (batch : List Metric) (metric : Metric)
    (point : DataPoint) : Bool :=
  exporter.encodesAlone ⟨0, Scope.heading batch metric.scope, 0, metric, point⟩

/-- The batch without the points that cannot be encoded alone. -/
def deliverable (exporter : MetricExporter) (batch : List Metric) : List Metric :=
  batch.map (·.retain (exporter.isDeliverable batch))

/-- When its turn comes behind the points before it, a point that cannot be encoded alone
overflows a request that holds points, so that the request is sent before the point is
tried again. -/
def Interrupts (exporter : MetricExporter) (batch : List Metric) (before : List PlacedPoint)
    (item : PlacedPoint) : Prop :=
  exporter.encodesAlone item = false ∧ ∃ cause left,
    Packer.tryWrite item (exporter.handle [] (PlacedPoint.sendOrder batch).length before).1 =
      .error cause left ∧ cause.isOverflow = true ∧ 0 < left.points

/-- What the points that cannot be encoded alone do to an export whose payloads are accepted. -/
structure MarksCutsOnly (properties : List Attribute) (exporter : MetricExporter)
    (batch : List Metric) : Prop where
  /-- Without them the others are packed one behind the other. -/
  sends_deliverable : exporter.sends (exporter.deliverable batch) =
    (Cargo.pack properties exporter.buffer.capacity
      ((PlacedPoint.sendOrder batch).filter exporter.encodesAlone)).map
        (RunEncoding.encode properties)
  /-- With them the others are packed in pieces, each as though it came alone. -/
  sends_eq : exporter.sends batch =
    (Cargo.pieces properties exporter.buffer.capacity .empty
      (PlacedPoint.sendOrder batch)).flatMap fun piece =>
        (Cargo.pack properties exporter.buffer.capacity piece).map (RunEncoding.encode properties)
  flatten_pieces : (Cargo.pieces properties exporter.buffer.capacity .empty
    (PlacedPoint.sendOrder batch)).flatten =
      (PlacedPoint.sendOrder batch).filter exporter.encodesAlone
  /-- A piece ends just where a point interrupts the request in front of it. -/
  interrupts_iff : ∀ before item rest, PlacedPoint.sendOrder batch = before ++ item :: rest →
    (exporter.Interrupts batch before item ↔
      (before.foldl (Cargo.load properties exporter.buffer.capacity) .empty).interruptedBy
        properties exporter.buffer.capacity item = true)
  /-- If no point does, the payloads are the same, byte for byte. -/
  unmarked : (∀ before item rest, PlacedPoint.sendOrder batch = before ++ item :: rest →
      ¬exporter.Interrupts batch before item) →
    exporter.sends batch = exporter.sends (exporter.deliverable batch)
  /-- The points count as failed, and no others. -/
  outcome_eq : (exporter.exportAccepted batch).1 =
    let lost := (PlacedPoint.sendOrder batch).filter fun item => !exporter.encodesAlone item
    if lost = [] then .ok ()
    else .error (.partialFailure lost.length (PlacedPoint.sendOrder batch).length)
  outcome_deliverable : (exporter.exportAccepted (exporter.deliverable batch)).1 = .ok ()

variable {properties : List Attribute} {exporter : MetricExporter}

theorem encodesAlone_retain (hformat : RequestFormat.make properties = .ok exporter.format)
    (hcapacity : exporter.buffer.capacity ≤ maxPayloadSize)
    (keep : Metric → DataPoint → Bool) (item : PlacedPoint) :
    exporter.encodesAlone (item.retain keep) = exporter.encodesAlone item := by
  rw [encodesAlone_eq_fits hformat hcapacity, encodesAlone_eq_fits hformat hcapacity,
    PlacedPoint.fits_retain]

/-- Without the points that cannot be encoded alone the others are sent in the same order. -/
theorem sendOrder_deliverable (hformat : RequestFormat.make properties = .ok exporter.format)
    (hcapacity : exporter.buffer.capacity ≤ maxPayloadSize) (batch : List Metric) :
    PlacedPoint.sendOrder (exporter.deliverable batch) =
      ((PlacedPoint.sendOrder batch).filter exporter.encodesAlone).map
        (·.retain (exporter.isDeliverable batch)) := by
  rw [deliverable, PlacedPoint.sendOrder_retain]
  refine congrArg (List.map _) (List.filter_congr fun item hmem => ?_)
  -- Neither where a group nor where a metric stands is written.
  rw [isDeliverable, PlacedPoint.heading_of_mem_sendOrder hmem,
    encodesAlone_eq_fits hformat hcapacity, encodesAlone_eq_fits hformat hcapacity]
  rfl

/-- The payloads are those of the runs into which the points are cut. -/
theorem sends_eq_map_pack (hformat : RequestFormat.make properties = .ok exporter.format)
    (hcapacity : exporter.buffer.capacity ≤ maxPayloadSize) (batch : List Metric) :
    exporter.sends batch =
      (Cargo.pack properties exporter.buffer.capacity (PlacedPoint.sendOrder batch)).map
        (RunEncoding.encode properties) := by
  obtain ⟨shipments, packer, journal, hexport, hshipping, hpack⟩ :=
    exists_shipping_of_exportMetrics hformat hcapacity batch []
  rw [sends, exportAccepted, hexport, ← hpack]
  exact hshipping.payloads_eq (PlacedPoint.pairwise_sendOrder batch)

/-- A run is written the same whatever else its metrics hold. -/
theorem sends_deliverable_eq (hformat : RequestFormat.make properties = .ok exporter.format)
    (hcapacity : exporter.buffer.capacity ≤ maxPayloadSize) (batch : List Metric) :
    exporter.sends (exporter.deliverable batch) =
      (Cargo.pack properties exporter.buffer.capacity
        ((PlacedPoint.sendOrder batch).filter exporter.encodesAlone)).map
          (RunEncoding.encode properties) := by
  have hsorted := PlacedPoint.pairwise_sendOrder (exporter.deliverable batch)
  have hsortedAll := PlacedPoint.pairwise_sendOrder batch
  rw [sendOrder_deliverable hformat hcapacity] at hsorted
  rw [sends_eq_map_pack hformat hcapacity, sendOrder_deliverable hformat hcapacity,
    Cargo.pack_retain, List.map_map]
  refine List.map_congr_left fun run hmem => ?_
  have hne := Cargo.ne_nil_of_mem_pack hmem
  have hrun := Cargo.sublist_of_mem_pack hmem
  rw [Function.comp_apply, ← RunEncoding.bytes_ofRun (hsorted.sublist (hrun.map _))
      (mt List.map_eq_nil_iff.mp hne),
    ← RunEncoding.bytes_ofRun (hsortedAll.sublist (hrun.trans List.filter_sublist)) hne,
    Draft.ofRun_retain]

/-- In the packer are the points of the last run. -/
theorem packs_handle (hformat : RequestFormat.make properties = .ok exporter.format)
    (hcapacity : exporter.buffer.capacity ≤ maxPayloadSize) (total : Nat) {batch : List Metric}
    {before rest : List PlacedPoint} (hbatch : PlacedPoint.sendOrder batch = before ++ rest) :
    Packer.Packs properties exporter.buffer.capacity (exporter.handle [] total before).1
      (before.foldl (Cargo.load properties exporter.buffer.capacity) .empty).run := by
  obtain ⟨sent, run, packer, journal, hfold, hshipping, hcargo⟩ :=
    (Packer.shipping_start hformat hcapacity total []).foldlM
      (PlacedPoint.pairwise_of_sendOrder_eq hbatch)
      (fun _ => PlacedPoint.point_mem_of_sendOrder_eq hbatch) true
  have hrun : run = (before.foldl (Cargo.load properties exporter.buffer.capacity) .empty).run :=
    congrArg Cargo.run hcargo
  rw [handle, hfold, ← hrun]
  exact hshipping.packs

theorem interrupts_iff_interruptedBy
    (hformat : RequestFormat.make properties = .ok exporter.format)
    (hcapacity : exporter.buffer.capacity ≤ maxPayloadSize) {batch : List Metric}
    {before rest : List PlacedPoint} {item : PlacedPoint}
    (hbatch : PlacedPoint.sendOrder batch = before ++ item :: rest) :
    exporter.Interrupts batch before item ↔
      (before.foldl (Cargo.load properties exporter.buffer.capacity) .empty).interruptedBy
        properties exporter.buffer.capacity item = true := by
  have hpacks := packs_handle hformat hcapacity (PlacedPoint.sendOrder batch).length hbatch
  rw [List.append_cons] at hbatch
  have hheld := (Cargo.holdsSome_foldl properties exporter.buffer.capacity before).sublist
  have hsorted := (PlacedPoint.pairwise_of_sendOrder_eq hbatch).sublist
    (((List.sublist_append_right _ _).trans hheld).append (List.Sublist.refl [item]))
  rw [Cargo.interruptedBy, Bool.and_eq_true, Bool.and_eq_true, Bool.not_eq_true',
    Bool.not_eq_true', List.isEmpty_eq_false_iff, ← encodesAlone_eq_fits hformat hcapacity,
    Interrupts, Cargo.overflows_eq_true_iff]
  refine and_congr_right fun halone => ?_
  rcases hpacks.tryWrite hsorted with ⟨next, htry, -, -, hfits⟩ |
    ⟨fault, left, htry, hleft, -, hoverflow, -⟩
  · rw [← encodesAlone_eq_fits hformat hcapacity, halone] at hfits
    cases hfits
  · have hholds : 0 < left.points ↔ (before.foldl
        (Cargo.load properties exporter.buffer.capacity) .empty).run ≠ [] := by
      rw [hleft.points_eq]
      exact List.length_pos_iff
    rw [← hholds, ← hoverflow, htry]
    constructor
    · rintro ⟨cause, last, herror, hcause, hlast⟩
      cases herror
      exact ⟨hlast, hcause⟩
    · rintro ⟨hlast, hcause⟩
      exact ⟨fault, left, rfl, hcause, hlast⟩

/-- The points that cannot be encoded alone are lost, and no others. -/
theorem outcome_exportAccepted (hformat : RequestFormat.make properties = .ok exporter.format)
    (hcapacity : exporter.buffer.capacity ≤ maxPayloadSize) (batch : List Metric) :
    (exporter.exportAccepted batch).1 =
      let lost := (PlacedPoint.sendOrder batch).filter fun item => !exporter.encodesAlone item
      if lost = [] then .ok ()
      else .error (.partialFailure lost.length (PlacedPoint.sendOrder batch).length) := by
  obtain ⟨shipments, packer, journal, hexport, hshipping, -⟩ :=
    exists_shipping_of_exportMetrics hformat hcapacity batch []
  have haccepts := acceptsAll_exportMetrics exporter batch
  rw [hexport] at haccepts
  have hlost := hshipping.failed_of_acceptsAll haccepts
  rw [exportAccepted, hexport]
  change packer.tally.outcome = _
  rw [Tally.outcome, hlost, hshipping.total_eq, funext (encodesAlone_eq_fits hformat hcapacity)]
  simp only [List.length_eq_zero_iff]

/-- Whatever the resource, the capacity and the batch. -/
theorem marksCutsOnly_of_make (hformat : RequestFormat.make properties = .ok exporter.format)
    (hcapacity : exporter.buffer.capacity ≤ maxPayloadSize) (batch : List Metric) :
    MarksCutsOnly properties exporter batch where
  sends_deliverable := sends_deliverable_eq hformat hcapacity batch
  sends_eq := by
    rw [sends_eq_map_pack hformat hcapacity, Cargo.pack_eq_flatMap_pieces, List.map_flatMap]
  flatten_pieces := by
    rw [Cargo.flatten_pieces, funext (encodesAlone_eq_fits hformat hcapacity)]
  interrupts_iff := fun _ _ _ hbatch => interrupts_iff_interruptedBy hformat hcapacity hbatch
  unmarked := by
    intro hfree
    rw [sends_deliverable_eq hformat hcapacity, sends_eq_map_pack hformat hcapacity,
      Cargo.pack_eq_flatMap_pieces, Cargo.pieces_of_forall, List.flatMap_singleton,
      funext (encodesAlone_eq_fits hformat hcapacity)]
    intro before item rest hbatch
    rw [← Bool.not_eq_true, ← interrupts_iff_interruptedBy hformat hcapacity hbatch]
    exact hfree before item rest hbatch
  outcome_eq := outcome_exportAccepted hformat hcapacity batch
  outcome_deliverable := by
    rw [outcome_exportAccepted hformat hcapacity, if_pos]
    rw [sendOrder_deliverable hformat hcapacity, List.filter_eq_nil_iff]
    intro item hmem
    obtain ⟨kept, hkept, rfl⟩ := List.mem_map.mp hmem
    rw [encodesAlone_retain hformat hcapacity, (List.mem_filter.mp hkept).2]
    exact Bool.false_ne_true

/-! ### A batch with a point that is too large between two others -/

/-- An exporter whose requests have room for two plain points. -/
def pairExporter : MetricExporter := ⟨Session.plainFormat, Buffer.withCapacity 100⟩

theorem pairExporter_capacity_le : pairExporter.buffer.capacity ≤ maxPayloadSize := by
  rw [pairExporter, Buffer.capacity_withCapacity]
  decide

/-- The second point has too many exemplars for any request. -/
def crowdedBatch : List Metric :=
  [{ Session.plainMetric with
      data := .gauge [⟨[], .epoch, .epoch, .int 1, []⟩,
        ⟨[], .epoch, .epoch, .int 2, List.replicate 3 ⟨[], .epoch, .int 1, none, none⟩⟩,
        ⟨[], .epoch, .epoch, .int 3, []⟩] }]

theorem marksCutsOnly_crowdedBatch :
    (pairExporter.exportAccepted crowdedBatch).1 = .error (.partialFailure 1 3) ∧
      (pairExporter.sends crowdedBatch).length = 2 ∧
      MarksCutsOnly [] pairExporter crowdedBatch := by
  refine ⟨?_, ?_, marksCutsOnly_of_make Session.make_plain pairExporter_capacity_le crowdedBatch⟩
  · rw [outcome_exportAccepted Session.make_plain pairExporter_capacity_le]
    simp only [encodesAlone_eq_fits Session.make_plain pairExporter_capacity_le]
    decide +kernel
  · rw [sends_eq_map_pack Session.make_plain pairExporter_capacity_le, List.length_map]
    decide +kernel

/-- The point that is too large has the first point sent by itself. -/
theorem not_forall_sends_eq :
    ¬ ∀ (properties : List Attribute) (exporter : MetricExporter) (batch : List Metric),
      RequestFormat.make properties = .ok exporter.format →
      exporter.buffer.capacity ≤ maxPayloadSize →
      exporter.sends batch = exporter.sends (exporter.deliverable batch) := by
  intro hsame
  have hlength := congrArg List.length
    (hsame [] pairExporter crowdedBatch Session.make_plain pairExporter_capacity_le)
  rw [sends_deliverable_eq Session.make_plain pairExporter_capacity_le,
    sends_eq_map_pack Session.make_plain pairExporter_capacity_le, List.length_map,
    List.length_map, funext (encodesAlone_eq_fits Session.make_plain pairExporter_capacity_le)]
    at hlength
  revert hlength
  decide +kernel

end MetricExporter

end TelemetryExport
