import Mathlib.Data.List.Forall2
import TelemetryExport.Proofs.Export.Asserting
import TelemetryExport.Proofs.Export.Fate

/-! # The state between two points

A packer keeps four accounts of one request: how many points it carries, which messages
are open, which instrument, and whose scope and metric these are. They are brought up to
date at different moments, and taken back on different paths. Between two points they
agree. Either the request is empty and nothing is open, or it ends in a point and exactly
the messages around that point are open, each with its tag and its length in the header.
From there no assertion of a writer fails, and a point is refused for want of room or of a
form only.
-/

namespace TelemetryExport

open WrittenField OpenMessage RequestEncoder

/-! ## What is open in a draft -/

namespace Opening

/-- The field of its parent that the message is. -/
def number : Opening → Nat
  | .resource => Schema.Request.resourceMetrics
  | .scope _ => Schema.ResourceMetrics.scopeMetrics
  | .metric _ => Schema.ScopeMetrics.metrics
  | .instrument data => Schema.Metric.instrument (Instrument.ofData data)

/-- The open message is the one that was opened, with more in it. -/
structure Opens (properties : List Attribute) (opening : Opening) (inner : OpenMessage) :
    Prop where
  number_eq : inner.number = opening.number
  prefix_fields : opening.fields properties <+: inner.fields

theorem opens_message (properties : List Attribute) (instrument : Option Instrument)
    (opening : Opening) : opening.Opens properties (opening.message properties instrument) where
  number_eq := by cases opening <;> rfl
  prefix_fields := List.prefix_rfl

end Opening

namespace OpenMessage

variable {properties : List Attribute} {openings : List Opening} {opens : List OpenMessage}

theorem prefix_grow (more fields : List WrittenField) (opens : List OpenMessage) :
    fields <+: (grow more fields opens).1 := by
  cases opens with
  | nil => exact List.prefix_append _ _
  | cons inner deeper => exact List.prefix_rfl

theorem prefix_content (fields : List WrittenField) (opens : List OpenMessage) :
    fields <+: content fields opens := by
  cases opens with
  | nil => exact List.prefix_rfl
  | cons inner deeper => exact List.prefix_append _ _

theorem prefix_close (depth : Nat) (fields : List WrittenField) (opens : List OpenMessage) :
    fields <+: (close depth fields opens).1 := by
  cases depth with
  | zero => exact prefix_content fields opens
  | succ depth => cases opens <;> exact List.prefix_rfl

/-- What is written goes into the innermost message, behind what is there. -/
theorem opens_grow (hopens : List.Forall₂ (Opening.Opens properties) openings opens)
    (more fields : List WrittenField) :
    List.Forall₂ (Opening.Opens properties) openings (grow more fields opens).2 := by
  induction hopens generalizing fields with
  | nil => exact .nil
  | @cons opening inner _ deeper hinner _ ih =>
      exact .cons ⟨hinner.number_eq, hinner.prefix_fields.trans (prefix_grow more _ deeper)⟩
        (ih inner.fields)

/-- Messages that are closed stay behind what is in the message around them. -/
theorem opens_close (hopens : List.Forall₂ (Opening.Opens properties) openings opens)
    (depth : Nat) (fields : List WrittenField) :
    List.Forall₂ (Opening.Opens properties) (openings.take depth) (close depth fields opens).2 := by
  induction hopens generalizing depth fields with
  | nil =>
      rw [List.take_nil]
      cases depth <;> exact .nil
  | @cons opening inner _ deeper hinner _ ih =>
      cases depth with
      | zero => exact .nil
      | succ depth =>
          exact .cons ⟨hinner.number_eq, hinner.prefix_fields.trans (prefix_close depth _ deeper)⟩
            (ih depth inner.fields)

end OpenMessage

namespace Draft

variable {properties : List Attribute} {draft : Draft} {openings : List Opening}
  {run : List PlacedPoint} {item : PlacedPoint}

theorem opens_foldl_add (hopens : List.Forall₂ (Opening.Opens properties) openings draft.opens)
    (more : List Opening) :
    List.Forall₂ (Opening.Opens properties) (openings ++ more)
      (more.foldl (add properties) draft).opens := by
  induction more generalizing openings draft with
  | nil =>
      rw [List.append_nil]
      exact hopens
  | cons opening rest ih =>
      rw [List.append_cons]
      exact ih (List.rel_append hopens
        (.cons (opening.opens_message properties draft.instrument) .nil))

/-- Behind a point just the messages around it are open, if those that stay open are of the
same scope and metric. -/
theorem opens_append (hopens : List.Forall₂ (Opening.Opens properties) openings draft.opens)
    (hsame : openings.take (draft.kept item) = item.openings.take (draft.kept item)) :
    List.Forall₂ (Opening.Opens properties) item.openings
      (draft.append properties item).opens := by
  have hkept := opens_close hopens (draft.kept item) draft.fields
  rw [hsame] at hkept
  have hclosed : List.Forall₂ (Opening.Opens properties) _
      (draft.closeTo (draft.kept item)).opens := hkept
  have hprepared := opens_foldl_add hclosed (draft.missing item)
  rw [missing, List.take_append_drop] at hprepared
  exact opens_grow hprepared [pointField item.point] _

/-- Behind a run just the messages around its last point are open. -/
theorem opens_ofRun (hsorted : (run ++ [item]).Pairwise PlacedPoint.Before) :
    List.Forall₂ (Opening.Opens properties) item.openings
      (ofRun properties (run ++ [item])).opens := by
  induction run using List.reverseRecOn generalizing item with
  | nil =>
      have hnone : List.Forall₂ (Opening.Opens properties) [] empty.opens := .nil
      exact opens_append hnone rfl
  | append_singleton run last ih =>
      obtain ⟨hearlier, -, hbefore⟩ := List.pairwise_append.mp hsorted
      rw [ofRun_concat]
      refine opens_append (ih hearlier) ?_
      -- What stays open is the same for both points.
      cases hbefore last (List.mem_append_right _ (List.mem_singleton.mpr rfl)) item
          (List.mem_singleton.mpr rfl) with
      | group hgroup => rw [kept_of_before_group _ _ hgroup]; rfl
      | metric hgroup hscope hindex =>
          rw [kept_of_before_metric _ _ hgroup hindex, PlacedPoint.openings, hscope]
          rfl
      | point hgroup hscope hindex hmetric =>
          rw [kept_of_before_point _ _ hgroup hindex, PlacedPoint.openings, hscope, hmetric]
          rfl

end Draft

/-! ## Where the headers are -/

namespace OpenMessage

/-- From the header on, the bytes are that of the message, up to their end. -/
structure StandsAt (bytes : List UInt8) (inner : OpenMessage) (slot : Slot) : Prop where
  width_eq : slot.valueStart = slot.headerStart + Slot.messageWidth
  drop_eq : ∃ more, bytes.drop slot.headerStart =
    Slot.messageHeader inner.number (encodeAll (inner.fields ++ more)).length ++
      encodeAll (inner.fields ++ more)

/-- Every open message reaches to the end of the bytes. -/
theorem standsAt_slotsFrom (fields : List WrittenField) (opens : List OpenMessage)
    (before : List UInt8) :
    List.Forall₂ (StandsAt (before ++ encodeAll (content fields opens))) opens
      (slotsFrom before.length fields opens) := by
  induction opens generalizing fields before with
  | nil => exact .nil
  | cons inner deeper ih =>
      obtain ⟨more, hmore⟩ := prefix_content inner.fields deeper
      have hinside := ih inner.fields (before ++ encodeAll fields ++
        Slot.messageHeader inner.number (encodeAll (content inner.fields deeper)).length)
      have hbytes : before ++ encodeAll (content fields (inner :: deeper)) =
          before ++ encodeAll fields ++
            Slot.messageHeader inner.number (encodeAll (content inner.fields deeper)).length ++
            encodeAll (content inner.fields deeper) := by
        rw [content_cons, encodeAll_append, encodeAll_singleton, encode]
        simp only [List.append_assoc]
      have hlength : (before ++ encodeAll fields).length =
          before.length + (encodeAll fields).length := List.length_append
      rw [← hbytes, List.length_append, hlength, length_messageHeader] at hinside
      refine .cons ⟨rfl, more, ?_⟩ hinside
      rw [hbytes, hmore, List.append_assoc (before ++ encodeAll fields), ← hlength]
      exact List.drop_left

end OpenMessage

namespace RequestEncoder

/-- The message that was opened stands at the slot. Its header holds the tag of its field
and the length from where its content starts to the cursor, and its content begins with
what the opening wrote. -/
structure HoldsOpen (properties : List Attribute) (encoder : RequestEncoder) (opening : Opening)
    (slot : Slot) : Prop where
  within : slot.Within encoder.buffer
  header_eq : (encoder.buffer.bytes.drop slot.headerStart).take Slot.messageWidth =
    Slot.messageHeader opening.number (slot.contentLength encoder.buffer)
  prefix_content : encodeAll (opening.fields properties) <+:
    encoder.buffer.bytes.drop slot.valueStart

theorem holdsOpen_of_standsAt {properties : List Attribute} {encoder : RequestEncoder}
    (hvalid : encoder.buffer.Valid) {opening : Opening} {inner : OpenMessage} {slot : Slot}
    (hopens : opening.Opens properties inner)
    (hstands : StandsAt encoder.buffer.bytes inner slot) :
    encoder.HoldsOpen properties opening slot := by
  obtain ⟨hwidth, more, hdrop⟩ := hstands
  have hheader : (Slot.messageHeader inner.number
      (encodeAll (inner.fields ++ more)).length).length = Slot.messageWidth := rfl
  have hpositive : 0 < Slot.messageWidth := by decide
  -- What is behind the header tells where the cursor is.
  have hlength := congrArg List.length hdrop
  rw [List.length_drop, Buffer.length_bytes hvalid, List.length_append, hheader] at hlength
  have hcontent : slot.contentLength encoder.buffer =
      (encodeAll (inner.fields ++ more)).length := by
    rw [Slot.contentLength, hwidth]
    omega
  refine ⟨⟨hwidth, by omega⟩, ?_, ?_⟩
  · rw [hdrop, ← hopens.number_eq, hcontent]
    exact List.take_left' hheader
  · obtain ⟨written, hwritten⟩ := hopens.prefix_fields
    rw [hwidth, ← List.drop_drop, hdrop, List.drop_left' hheader, ← hwritten, List.append_assoc,
      encodeAll_append]
    exact List.prefix_append _ _

/-- In a complete request every header is right. -/
theorem Completes.holdsOpen {encoder : RequestEncoder} {fields : List WrittenField}
    {opens : List OpenMessage} (hcompletes : Completes encoder fields opens)
    {properties : List Attribute} {openings : List Opening}
    (hopens : List.Forall₂ (Opening.Opens properties) openings opens) :
    List.Forall₂ (encoder.HoldsOpen properties) openings encoder.levels.toList := by
  have hvalid := hcompletes.valid
  have hstands := standsAt_slotsFrom fields opens []
  rw [List.nil_append, ← hcompletes.bytes_eq, List.length_nil, ← hcompletes.slots] at hstands
  generalize encoder.levels.toList = slots at hstands ⊢
  clear hcompletes
  induction hopens generalizing slots with
  | nil =>
      cases hstands
      exact .nil
  | cons hfirst _ ih =>
      cases hstands with
      | cons hslot hrest =>
          exact .cons (holdsOpen_of_standsAt hvalid hfirst hslot) (ih _ hrest)

theorem within_of_holdsOpen {properties : List Attribute} {encoder : RequestEncoder}
    {openings : List Opening} {slots : List Slot}
    (hholds : List.Forall₂ (encoder.HoldsOpen properties) openings slots) :
    ∀ slot ∈ slots, slot.Within encoder.buffer := by
  induction hholds with
  | nil => exact fun _ hmem => absurd hmem List.not_mem_nil
  | cons hfirst _ ih =>
      intro slot hmem
      rcases List.mem_cons.mp hmem with rfl | hmem
      · exact hfirst.within
      · exact ih slot hmem

end RequestEncoder

namespace Packer

/-- Nothing is in the request, and nothing is open. -/
structure IsEmpty (packer : Packer) : Prop where
  points_eq : packer.points = 0
  cursor_eq : packer.encoder.buffer.cursor = 0
  depth_eq : packer.encoder.depth = 0
  instrument_eq : packer.encoder.instrument = none
  levels_eq : packer.levels = .none

/-- The request ends in the point, and just the messages around it are open. -/
structure IsBehind (properties : List Attribute) (packer : Packer) (item : PlacedPoint) :
    Prop where
  points_pos : 0 < packer.points
  depth_eq : packer.encoder.depth = 4
  instrument_eq : packer.encoder.instrument = some (Instrument.ofData item.metric.data)
  levels_eq : packer.levels = ⟨some item.group, some item.index⟩
  holdsOpen : List.Forall₂ (packer.encoder.HoldsOpen properties) item.openings
    packer.encoder.levels.toList

variable {properties : List Attribute} {capacity total : Nat} {packer : Packer}
  {run seen : List PlacedPoint} {item : PlacedPoint} {shipments : List Shipment}
  {journal : Journal}

theorem Packs.isEmpty (hpacks : Packs properties capacity packer []) : packer.IsEmpty where
  points_eq := hpacks.points_eq
  cursor_eq := hpacks.rests.cursor_eq
  depth_eq := hpacks.rests.drafts.depth_eq
  instrument_eq := hpacks.rests.instrument_eq
  levels_eq := hpacks.rests.levels_eq

theorem Packs.isBehind (hpacks : Packs properties capacity packer (run ++ [item])) :
    packer.IsBehind properties item where
  points_pos := by
    rw [hpacks.points_eq, List.length_append]
    exact Nat.succ_pos _
  depth_eq := by
    rw [hpacks.rests.drafts.depth_eq, Draft.ofRun_concat]
    exact (Draft.isSettled_ofRun properties run).length_opens_append item
  instrument_eq := by
    rw [hpacks.rests.instrument_eq]
    exact Draft.instrument_ofRun properties hpacks.sorted
  levels_eq := by
    rw [hpacks.rests.levels_eq, Draft.ofRun_concat]
    rfl
  holdsOpen := hpacks.rests.completes.holdsOpen (Draft.opens_ofRun hpacks.sorted)

/-- A packer that packs a run is ready for any point. -/
theorem Packs.ready (hpacks : Packs properties capacity packer run) : packer.Ready := by
  rcases List.eq_nil_or_concat run with rfl | ⟨before, last, rfl⟩
  · have hempty := hpacks.isEmpty
    refine .inl ⟨hpacks.valid, hempty.depth_eq, fun slot hmem => ?_⟩
    rw [List.eq_nil_of_length_eq_zero ((SlotStack.length_toList _).trans hempty.depth_eq)] at hmem
    exact absurd hmem List.not_mem_nil
  · rw [List.concat_eq_append] at hpacks
    have hbehind := hpacks.isBehind
    exact .inr ⟨hpacks.valid, hbehind.depth_eq, within_of_holdsOpen hbehind.holdsOpen⟩

/-- Between two points the packer is empty or behind one of the points seen so far. -/
theorem Shipping.isEmpty_or_isBehind
    (hshipping : Shipping properties capacity total seen shipments run packer journal) :
    packer.IsEmpty ∨ ∃ item ∈ seen, packer.IsBehind properties item := by
  have hpacks := hshipping.packs
  have hsublist := hshipping.run_sublist
  rcases List.eq_nil_or_concat run with rfl | ⟨before, last, rfl⟩
  · exact .inl hpacks.isEmpty
  · rw [List.concat_eq_append] at hpacks hsublist
    refine .inr ⟨last, hsublist.subset ?_, hpacks.isBehind⟩
    exact List.mem_append_right _ (List.mem_singleton.mpr rfl)

/-- No assertion fails from one point to the next, and so on to the last. -/
theorem Shipping.run_foldlM {items : List PlacedPoint}
    (hshipping : Shipping properties capacity total seen shipments run packer journal)
    (hsorted : (seen ++ items).Pairwise PlacedPoint.Before)
    (hpoints : ∀ other ∈ seen ++ items, other.point ∈ other.metric.data.points)
    (enabled : Bool) :
    (items.foldlM (Asserting.write (.scripted enabled)) packer).run journal =
      (Except.ok <$> items.foldlM (Packer.write (.scripted enabled)) packer) journal := by
  induction items generalizing seen shipments run packer journal with
  | nil => rfl
  | cons item rest ih =>
      rw [List.append_cons] at hsorted hpoints
      obtain ⟨sent, extended, next, after, hwrite, hnext, -⟩ := hshipping.write
        (hsorted.sublist (List.sublist_append_left _ _))
        (fun other hmem => hpoints other (List.mem_append_left _ hmem)) enabled
      have hasserting : (Asserting.write (.scripted enabled) packer item).run journal =
          (.ok next, after) := by
        rw [Asserting.run_write _ hshipping.packs.ready]
        exact map_scripted hwrite
      have hplain : (Except.ok (ε := Violation) <$>
          (item :: rest).foldlM (Packer.write (.scripted enabled)) packer) journal =
          (Except.ok <$> rest.foldlM (Packer.write (.scripted enabled)) next) after := by
        rw [List.foldlM_cons, map_bind]
        exact bind_scripted hwrite
      rw [hplain, ← ih hnext hsorted hpoints, List.foldlM_cons, ExceptT.run_bind]
      exact bind_scripted hasserting

end Packer

/-! ## Every write of an export -/

namespace MetricExporter

/-- What holds between two writes of an export and inside each of them. -/
structure WritesSoundly (properties : List Attribute) (exporter : MetricExporter)
    (batch : List Metric) (verdicts : List Verdict) : Prop where
  /-- Between two points the request is empty, or ends in a point seen so far. -/
  between : ∀ before rest, PlacedPoint.sendOrder batch = before ++ rest →
    let packer := (exporter.handle verdicts (PlacedPoint.sendOrder batch).length before).1
    packer.IsEmpty ∨ ∃ item ∈ before, packer.IsBehind properties item
  /-- No assertion fails: with them, the batch is written as without. -/
  asserting_eq :
    let items := PlacedPoint.sendOrder batch
    let packer := Packer.start exporter.format exporter.buffer items.length
    (Asserting.writeAll (.scripted true) packer items).run (Journal.start verdicts) =
      (Except.ok <$> packer.writeAll (.scripted true) items) (Journal.start verdicts)
  /-- The first attempt to write a point fails of a foreseen fault only, and so does the
  second, behind a payload. -/
  isForeseen_of_tryWrite : ∀ before item rest,
    PlacedPoint.sendOrder batch = before ++ item :: rest →
    let packer := (exporter.handle verdicts (PlacedPoint.sendOrder batch).length before).1
    ∀ fault left, Packer.tryWrite item packer = .error fault left → fault.isForeseen = true ∧
      ∀ tally again after, Packer.tryWrite item { left with tally }.restart = .error again after →
        again.isForeseen = true

variable {properties : List Attribute} {exporter : MetricExporter}

/-- The state of an export after some of the points of its batch. -/
theorem shipping_handle_of_prefix
    (hformat : RequestFormat.make properties = .ok exporter.format)
    (hcapacity : exporter.buffer.capacity ≤ maxPayloadSize) {batch : List Metric}
    (verdicts : List Verdict) (total : Nat) {before rest : List PlacedPoint}
    (hbatch : PlacedPoint.sendOrder batch = before ++ rest) :
    ∃ shipments run, Packer.Shipping properties exporter.buffer.capacity total before shipments run
      (exporter.handle verdicts total before).1 (exporter.handle verdicts total before).2 := by
  exact shipping_handle hformat hcapacity verdicts total
    (PlacedPoint.pairwise_of_sendOrder_eq hbatch)
    fun _ => PlacedPoint.point_mem_of_sendOrder_eq hbatch

/-- Whatever the resource, the capacity, the batch and the answers to the payloads. -/
theorem writesSoundly_of_make (hformat : RequestFormat.make properties = .ok exporter.format)
    (hcapacity : exporter.buffer.capacity ≤ maxPayloadSize) (batch : List Metric)
    (verdicts : List Verdict) : WritesSoundly properties exporter batch verdicts where
  between := by
    intro before rest hbatch packer
    obtain ⟨shipments, run, hshipping⟩ := shipping_handle_of_prefix hformat hcapacity verdicts
      (PlacedPoint.sendOrder batch).length hbatch
    exact hshipping.isEmpty_or_isBehind
  asserting_eq := by
    intro items packer
    have hsorted : ([] ++ items).Pairwise PlacedPoint.Before :=
      PlacedPoint.pairwise_sendOrder batch
    have hpoints : ∀ item ∈ [] ++ items, item.point ∈ item.metric.data.points :=
      fun _ => PlacedPoint.point_mem_of_mem_sendOrder
    have hstart := Packer.shipping_start hformat hcapacity items.length verdicts
    obtain ⟨_, _, next, after, hfold, -⟩ := hstart.foldlM hsorted hpoints true
    change items.foldlM (Packer.write (.scripted true)) packer (Journal.start verdicts) = _ at hfold
    have hasserting : (items.foldlM (Asserting.write (.scripted true)) packer).run
        (Journal.start verdicts) = (.ok next, after) := by
      rw [hstart.run_foldlM hsorted hpoints true]
      exact map_scripted hfold
    rw [Asserting.writeAll, Packer.writeAll, ExceptT.run_bind, map_bind, bind_scripted hfold]
    exact bind_scripted hasserting
  isForeseen_of_tryWrite := by
    intro before item rest hbatch packer fault left hfault
    obtain ⟨shipments, run, hshipping⟩ := shipping_handle_of_prefix hformat hcapacity verdicts
      (PlacedPoint.sendOrder batch).length hbatch
    have htry : Upholds (Asserting.tryWrite item) _ packer _ _ :=
      Asserting.upholds_tryWrite hshipping.packs.ready
    have hfirst := htry.of_error fault left hfault
    refine ⟨hfirst.1, fun tally again after hagain => ?_⟩
    have hready := Asserting.ready_restart { left with tally } hfirst.2
    exact ((Asserting.upholds_tryWrite hready).of_error again after hagain).1

/-! ### A batch whose second point is refused for want of room -/

/-- The first of the points fills a request, so that it is sent before the second. -/
theorem writesSoundly_plainBatch :
    (plainExporter.handle [] 2 ((PlacedPoint.sendOrder plainBatch).take 1)).1.points = 1 ∧
      (plainExporter.handle [] 2 (PlacedPoint.sendOrder plainBatch)).2.sendings = [(1, 59)] ∧
      WritesSoundly [] plainExporter plainBatch [] := by
  refine ⟨?_, ?_, writesSoundly_of_make Session.make_plain plainExporter_capacity_le _ _⟩
  · decide +kernel
  · decide +kernel

end MetricExporter

end TelemetryExport
