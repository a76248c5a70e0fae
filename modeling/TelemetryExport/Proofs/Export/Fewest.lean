import Mathlib.Data.List.Chain
import Mathlib.Order.Bounds.Defs
import TelemetryExport.Proofs.Export.Encoding

/-! # As few payloads as possible

A batch of which no point is left out is sent in as few payloads as there can be. A run is
only cut off when it has no room for the next point, and a stretch of a run fits wherever
the run does. However else the points are cut, no run of the other cutting reaches further
than the run sent in its place.
-/

namespace TelemetryExport

/-- Runs of which none has room for the first item of the next are no more than the runs of
any other cutting, if whatever lies within a run of it fits. -/
theorem length_le_of_isChain {α : Type} (fits : List α → Prop) {runs cuts : List (List α)}
    {front : List α} (hne : ∀ run ∈ runs, run ≠ [])
    (hfull : runs.IsChain fun run next => ∀ item ∈ next.head?, ¬fits (run ++ [item]))
    (hcuts : ∀ cut ∈ cuts, ∀ run item, run ++ [item] <:+: cut → fits (run ++ [item]))
    (hflatten : cuts.flatten = front ++ runs.flatten) : runs.length ≤ cuts.length := by
  -- Run by run. What the cuts reach back in front of the first run only helps the runs.
  induction runs generalizing cuts front with
  | nil => exact Nat.zero_le _
  | cons run rest ih =>
      have hrest : ∀ other ∈ rest, other ≠ [] :=
        fun other hmem => hne other (List.mem_cons_of_mem _ hmem)
      cases cuts with
      | nil =>
          rw [List.flatten_nil, List.flatten_cons, eq_comm, List.append_eq_nil_iff,
            List.append_eq_nil_iff] at hflatten
          exact absurd hflatten.2.1 (hne run List.mem_cons_self)
      | cons cut cuts =>
          have hlater : ∀ other ∈ cuts, ∀ run item, run ++ [item] <:+: other →
              fits (run ++ [item]) :=
            fun other hmem => hcuts other (List.mem_cons_of_mem _ hmem)
          rw [List.flatten_cons, List.flatten_cons, ← List.append_assoc,
            List.append_eq_append_iff] at hflatten
          rcases hflatten with ⟨back, -, hback⟩ | ⟨ahead, hcut, hahead⟩
          · exact Nat.succ_le_succ (ih hrest hfull.tail hlater hback)
          · cases ahead with
            | nil =>
                have hback : cuts.flatten = [] ++ rest.flatten := hahead.symm
                exact Nat.succ_le_succ (ih hrest hfull.tail hlater hback)
            | cons item more =>
                -- The cut would hold the run together with the first item of the next.
                have hfits : fits (run ++ [item]) := by
                  refine hcuts cut List.mem_cons_self run item ⟨front, more, ?_⟩
                  rw [hcut, List.append_assoc, List.append_assoc, List.append_assoc]
                  rfl
                cases rest with
                | nil => exact absurd hahead (List.cons_ne_nil _ _).symm
                | cons next others =>
                    obtain ⟨first, tail, rfl⟩ :=
                      List.exists_cons_of_ne_nil (hrest next List.mem_cons_self)
                    rw [List.flatten_cons, List.cons_append, List.cons_append,
                      List.cons.injEq] at hahead
                    have hunfit := (List.isChain_cons_cons.mp hfull).1 first rfl
                    rw [hahead.1] at hunfit
                    exact absurd hfits hunfit

/-! ## Cuttings -/

/-- A way of cutting points into runs, each of which fits a request. -/
structure Cutting (properties : List Attribute) (capacity : Nat) (points : List PlacedPoint)
    (runs : List (List PlacedPoint)) : Prop where
  flatten_eq : runs.flatten = points
  ne_nil : ∀ run ∈ runs, run ≠ []
  length_le : ∀ run ∈ runs, (RunEncoding.encode properties run).length ≤ capacity

/-- A request with the first run has no room for the first point of the second. -/
def Overfull (properties : List Attribute) (capacity : Nat) (run next : List PlacedPoint) : Prop :=
  ∀ item ∈ next.head?, capacity < (RunEncoding.encode properties (run ++ [item])).length

variable {properties : List Attribute} {capacity : Nat} {points : List PlacedPoint}
  {runs cuts : List (List PlacedPoint)}

theorem Cutting.length_le_of_infix (hcutting : Cutting properties capacity points runs)
    (hsorted : points.Pairwise PlacedPoint.Before) {run inner : List PlacedPoint}
    (hrun : run ∈ runs) (hstretch : inner <:+: run) (hne : inner ≠ []) :
    (RunEncoding.encode properties inner).length ≤ capacity := by
  have hmem := List.sublist_flatten_of_mem hrun
  rw [hcutting.flatten_eq] at hmem
  have hrunSorted := hsorted.sublist hmem
  have hshorter : (Draft.ofRun properties inner).bytes.length ≤
      (Draft.ofRun properties run).bytes.length :=
    Draft.length_ofRun_le_of_infix hstretch hrunSorted
  rw [RunEncoding.bytes_ofRun hrunSorted (hcutting.ne_nil run hrun),
    RunEncoding.bytes_ofRun (hrunSorted.sublist hstretch.sublist) hne] at hshorter
  exact Nat.le_trans hshorter (hcutting.length_le run hrun)

/-- A cutting of which no run has room for the next point has the fewest runs. -/
theorem Cutting.isLeast (hcutting : Cutting properties capacity points runs)
    (hsorted : points.Pairwise PlacedPoint.Before)
    (hfull : runs.IsChain (Overfull properties capacity)) :
    IsLeast {count | ∃ cuts, Cutting properties capacity points cuts ∧ cuts.length = count}
      runs.length := by
  refine ⟨⟨runs, hcutting, rfl⟩, ?_⟩
  rintro count ⟨cuts, hcuts, rfl⟩
  have hflatten : cuts.flatten = [] ++ runs.flatten := by
    rw [hcuts.flatten_eq, hcutting.flatten_eq, List.nil_append]
  refine length_le_of_isChain (fun run => (RunEncoding.encode properties run).length ≤ capacity)
    hcutting.ne_nil ?_ ?_ hflatten
  · exact hfull.imp fun run next hover item hmem => Nat.not_le_of_lt (hover item hmem)
  · intro cut hcut run item hstretch
    exact hcuts.length_le_of_infix hsorted hcut hstretch (List.append_ne_nil_of_right_ne_nil _
      (List.cons_ne_nil _ _))

/-! ## Runs that are cut off late -/

/-- No run has room for the first point of the next, and a run is open once one was sent. -/
structure Cargo.Tight (properties : List Attribute) (capacity : Nat) (cargo : Cargo) : Prop where
  isChain : (cargo.sent ++ [cargo.run]).IsChain (Overfull properties capacity)
  sent_eq_nil : cargo.run = [] → cargo.sent = []

namespace Cargo

variable {cargo : Cargo} {item : PlacedPoint}

theorem tight_empty : empty.Tight properties capacity where
  isChain := List.isChain_singleton _
  sent_eq_nil := fun _ => rfl

/-- A run that goes on begins with the same point. -/
theorem Tight.push (htight : cargo.Tight properties capacity) (item : PlacedPoint) :
    (cargo.push item).Tight properties capacity where
  isChain := by
    have hchain := htight.isChain
    rcases List.eq_nil_or_concat cargo.run with hrun | ⟨run, last, hrun⟩
    · rw [Cargo.push, htight.sent_eq_nil hrun]
      exact List.isChain_singleton _
    · rw [List.isChain_append] at hchain
      refine List.isChain_append.mpr ⟨hchain.1, List.isChain_singleton _, ?_⟩
      intro before hbefore next hnext first hfirst
      obtain rfl := Option.some.inj hnext
      have hne : cargo.run ≠ [] := by
        rw [hrun, List.concat_eq_append]
        exact List.append_ne_nil_of_right_ne_nil _ (List.cons_ne_nil _ _)
      rw [Cargo.push, List.head?_append_of_ne_nil _ hne] at hfirst
      exact hchain.2.2 before hbefore cargo.run rfl first hfirst
  sent_eq_nil := fun hrun => absurd hrun (List.append_ne_nil_of_right_ne_nil _
    (List.cons_ne_nil _ _))

/-- A run that is cut off because it has no room for the point in front of the next. -/
theorem Tight.push_cut (htight : cargo.Tight properties capacity) (hne : cargo.run ≠ [])
    (hfull : capacity < (RunEncoding.encode properties (cargo.run ++ [item])).length) :
    (cargo.cut.push item).Tight properties capacity where
  isChain := by
    rw [cut_of_ne_nil hne, Cargo.push]
    refine List.isChain_append.mpr ⟨htight.isChain, List.isChain_singleton _, ?_⟩
    intro before hbefore next hnext first hfirst
    rw [List.getLast?_concat] at hbefore
    obtain rfl := Option.some.inj hbefore
    obtain rfl := Option.some.inj hnext
    obtain rfl := Option.some.inj hfirst
    exact hfull
  sent_eq_nil := fun hrun => absurd hrun (List.append_ne_nil_of_right_ne_nil _
    (List.cons_ne_nil _ _))

/-- A point that fits a request goes where there is room for it. -/
theorem Tight.load (htight : cargo.Tight properties capacity)
    (hfits : item.fits properties capacity = true)
    (hsorted : (cargo.run ++ [item]).Pairwise PlacedPoint.Before) :
    (cargo.load properties capacity item).Tight properties capacity := by
  obtain ⟨hvalid, halone⟩ := PlacedPoint.fits_iff.mp hfits
  have hconcat : cargo.run ++ [item] ≠ [] :=
    List.append_ne_nil_of_right_ne_nil _ (List.cons_ne_nil _ _)
  by_cases hfull : cargo.overflows properties capacity item = true
  · rw [load_of_overflows hfull, if_pos hfits]
    rw [overflows_of_valid hvalid] at hfull
    refine htight.push_cut (fun hrun => ?_) ?_
    · -- An empty request has room for every point that fits one.
      rw [hrun, Draft.ofRun_concat, Draft.length_bytes_append] at hfull
      change capacity < 0 + Draft.empty.cost properties item at hfull
      rw [Nat.zero_add, Draft.cost_empty] at hfull
      exact Nat.not_lt_of_le halone hfull
    · rw [← RunEncoding.bytes_ofRun hsorted hconcat]
      exact hfull
  · rw [load_of_room hfull, if_pos hfits]
    exact htight.push item

theorem Tight.foldl {items : List PlacedPoint} (htight : cargo.Tight properties capacity)
    (hfits : ∀ item ∈ items, item.fits properties capacity = true)
    (hsorted : (cargo.run ++ items).Pairwise PlacedPoint.Before) :
    (items.foldl (Cargo.load properties capacity) cargo).Tight properties capacity := by
  induction items generalizing cargo with
  | nil => exact htight
  | cons item rest ih =>
      rw [List.append_cons] at hsorted
      have hnext := htight.load (hfits item List.mem_cons_self)
        (hsorted.sublist (List.sublist_append_left _ _))
      refine ih hnext (fun other hmem => hfits other (List.mem_cons_of_mem _ hmem)) ?_
      exact hsorted.sublist ((run_load_sublist cargo item).append (List.Sublist.refl _))

/-- If all points fit a request, no run has room for the first point of the next. -/
theorem isChain_pack (hfits : ∀ item ∈ points, item.fits properties capacity = true)
    (hsorted : points.Pairwise PlacedPoint.Before) :
    (pack properties capacity points).IsChain (Overfull properties capacity) := by
  have htight := tight_empty.foldl hfits hsorted
  rw [pack]
  by_cases hrun : (points.foldl (load properties capacity) empty).run = []
  · rw [cut_of_nil hrun, htight.sent_eq_nil hrun]
    exact List.isChain_nil
  · rw [cut_of_ne_nil hrun]
    exact htight.isChain

end Cargo

/-! ## Exports -/

namespace Packer

variable {total : Nat} {shipments : List Shipment} {run : List PlacedPoint} {packer : Packer}
  {journal : Journal}

/-- No point was left out just if all of them fit a request. -/
theorem Shipping.dropped_eq_zero_iff
    (hshipping : Shipping properties capacity total points shipments run packer journal) :
    journal.dropped = 0 ↔ ∀ item ∈ points, item.fits properties capacity = true := by
  have hcount := hshipping.dropped_eq
  rw [← List.filter_eq_self]
  constructor
  · intro hdropped
    rw [hdropped, Nat.zero_add] at hcount
    exact List.filter_sublist.eq_of_length hcount
  · intro hfits
    rw [hfits] at hcount
    omega

theorem Shipping.size_attempts
    (hshipping : Shipping properties capacity total points shipments run packer journal) :
    journal.attempts.size = (shipments.map (·.run)).length := by
  rw [← Array.length_toList, hshipping.attempts_eq, List.length_map, List.length_map]

/-- Once nothing is left in the packer, the points have been cut into the runs sent. -/
theorem Shipping.cutting
    (hshipping : Shipping properties capacity total points shipments [] packer journal)
    (hfits : ∀ item ∈ points, item.fits properties capacity = true)
    (hsorted : points.Pairwise PlacedPoint.Before) :
    Cutting properties capacity points (shipments.map (·.run)) where
  flatten_eq := by
    rw [← List.flatMap_def, ← List.append_nil (shipments.flatMap _), hshipping.runs_eq,
      List.filter_eq_self.mpr hfits]
  ne_nil := by
    intro run hmem
    obtain ⟨shipment, hshipment, rfl⟩ := List.mem_map.mp hmem
    exact (hshipping.carries shipment hshipment).run_ne_nil
  length_le := by
    intro run hmem
    have hsent := List.mem_map_of_mem (f := RunEncoding.encode properties) hmem
    rw [← hshipping.payloads_eq hsorted, hshipping.attempts_eq, List.map_map] at hsent
    obtain ⟨shipment, hshipment, hencode⟩ := List.mem_map.mp hsent
    rw [← hencode]
    exact (hshipping.carries shipment hshipment).size_le

end Packer

namespace MetricExporter

/-- How many payloads an export of the batch sends, and which points they carry. -/
structure SendsFewest (properties : List Attribute) (exporter : MetricExporter)
    (batch : List Metric) (journal : Journal) : Prop where
  /-- The payloads are a way of cutting the points of the batch, and none could also have
  carried the first point of the next one. -/
  exists_cutting : ∃ runs,
    Cutting properties exporter.buffer.capacity (PlacedPoint.sendOrder batch) runs ∧
    journal.attempts.toList.map (fun attempt => attempt.1.data.toList) =
      runs.map (RunEncoding.encode properties) ∧
    runs.IsChain (Overfull properties exporter.buffer.capacity)
  /-- No way of cutting the points takes fewer payloads. -/
  isLeast : IsLeast {count | ∃ runs,
    Cutting properties exporter.buffer.capacity (PlacedPoint.sendOrder batch) runs ∧
    runs.length = count} journal.attempts.size

variable {exporter : MetricExporter}

/-- Whatever the resource, the capacity, the batch and the answers to the payloads, if no
point is left out. -/
theorem sendsFewest_of_dropped_eq_zero
    (hformat : RequestFormat.make properties = .ok exporter.format)
    (hcapacity : exporter.buffer.capacity ≤ maxPayloadSize) (batch : List Metric)
    (verdicts : List Verdict)
    (hdropped : ((exporter.exportMetrics (.scripted true) batch).run
      (Journal.start verdicts)).2.dropped = 0) :
    SendsFewest properties exporter batch
      ((exporter.exportMetrics (.scripted true) batch).run (Journal.start verdicts)).2 := by
  obtain ⟨shipments, packer, journal, hexport, hshipping, hpack⟩ :=
    exists_shipping_of_exportMetrics hformat hcapacity batch verdicts
  have hsorted := PlacedPoint.pairwise_sendOrder batch
  rw [hexport] at hdropped ⊢
  have hfits := hshipping.dropped_eq_zero_iff.mp hdropped
  have hcutting := hshipping.cutting hfits hsorted
  have hfull := Cargo.isChain_pack hfits hsorted
  rw [← hpack] at hfull
  refine ⟨⟨_, hcutting, hshipping.payloads_eq hsorted, hfull⟩, ?_⟩
  rw [show journal.attempts.size = _ from hshipping.size_attempts]
  exact hcutting.isLeast hsorted hfull

/-! ### A batch of two points that takes two payloads -/

theorem sendsFewest_plainBatch :
    ((plainExporter.exportMetrics (.scripted true) plainBatch).run (Journal.start [])).2.dropped =
        0 ∧
      ((plainExporter.exportMetrics (.scripted true) plainBatch).run
        (Journal.start [])).2.attempts.size = 2 ∧
      SendsFewest [] plainExporter plainBatch
        ((plainExporter.exportMetrics (.scripted true) plainBatch).run (Journal.start [])).2 := by
  obtain ⟨shipments, packer, journal, hexport, hshipping, hpack⟩ :=
    exists_shipping_of_exportMetrics Session.make_plain plainExporter_capacity_le plainBatch []
  have hkept : ((plainExporter.exportMetrics (.scripted true) plainBatch).run
      (Journal.start [])).2.dropped = 0 := by
    rw [hexport]
    exact hshipping.dropped_eq_zero_iff.mpr (by decide +kernel)
  refine ⟨hkept, ?_, ?_⟩
  · rw [hexport]
    refine hshipping.size_attempts.trans ?_
    rw [hpack]
    decide +kernel
  · exact sendsFewest_of_dropped_eq_zero Session.make_plain plainExporter_capacity_le plainBatch []
      hkept

end MetricExporter

end TelemetryExport
