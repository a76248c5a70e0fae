import TelemetryExport.Proofs.Export.Cargo
import TelemetryExport.Proofs.Export.Scripted

/-! # Shipping a batch

An export sends one payload after the other, and what remains at the end. At every
moment the runs that were sent, followed by the run in the packer, are the points seen
so far without those that fit no request. Points are lost with a payload that is
rejected, or because they fit none, and in no other way.
-/

namespace TelemetryExport

open RequestEncoder

/-- A payload that was handed over, with the points it carries and the answer. -/
structure Shipment where
  run : List PlacedPoint
  payload : ByteArray
  verdict : Verdict

namespace Shipment

/-- What one payload is like: within the capacity, and read as the request of a run that
is not empty, with the points of the run and no message without a point. -/
structure Carries (properties : List Attribute) (capacity : Nat) (shipment : Shipment) :
    Prop where
  run_ne_nil : shipment.run ≠ []
  size_le : shipment.payload.size ≤ capacity
  decode_eq : Message.Request.decode shipment.payload =
    some (Message.Request.ofRun properties shipment.run)
  points_eq : (Message.Request.ofRun properties shipment.run).points =
    shipment.run.map (·.point.message)
  filled : (Message.Request.ofRun properties shipment.run).Filled

/-- The runs that were sent, and the one that is open. -/
def cargo (shipments : List Shipment) (run : List PlacedPoint) : Cargo :=
  ⟨shipments.map (·.run), run⟩

/-- The points in payloads that were accepted. -/
def accepted (shipments : List Shipment) : List PlacedPoint :=
  (shipments.filter (·.verdict.isOk)).flatMap (·.run)

theorem length_accepted_concat (shipments : List Shipment) (shipment : Shipment) :
    (accepted (shipments ++ [shipment])).length =
      (accepted shipments).length + if shipment.verdict.isOk then shipment.run.length else 0 := by
  rw [accepted, List.filter_append, List.flatMap_append, List.length_append, List.filter_cons]
  cases shipment.verdict.isOk with
  | true =>
      rw [if_pos rfl, if_pos rfl, List.filter_nil, List.flatMap_cons, List.flatMap_nil,
        List.append_nil, accepted]
  | false => rfl

end Shipment

namespace Packer

/-! ## The state of an export -/

/-- What holds after some points were seen: which payloads were sent, which run is in the
packer, and what became of every point. -/
structure Shipping (properties : List Attribute) (capacity total : Nat)
    (seen : List PlacedPoint) (shipments : List Shipment) (run : List PlacedPoint)
    (packer : Packer) (journal : Journal) : Prop where
  packs : Packs properties capacity packer run
  attempts_eq : journal.attempts.toList = shipments.map fun shipment =>
    (shipment.payload, shipment.verdict)
  sendings_eq : journal.sendings = shipments.map fun shipment =>
    (shipment.run.length, shipment.payload.size)
  carries : ∀ shipment ∈ shipments, shipment.Carries properties capacity
  payload_eq : ∀ shipment ∈ shipments,
    shipment.payload.data.toList = (Draft.ofRun properties shipment.run).bytes
  runs_eq : shipments.flatMap (·.run) ++ run = seen.filter (·.fits properties capacity)
  total_eq : packer.tally.total = total
  failed_eq : packer.tally.failed + (Shipment.accepted shipments).length + run.length =
    seen.length
  dropped_eq : journal.dropped + (seen.filter (·.fits properties capacity)).length = seen.length

variable {properties : List Attribute} {capacity total : Nat} {seen : List PlacedPoint}
  {shipments : List Shipment} {run : List PlacedPoint} {packer : Packer} {journal : Journal}
  {item : PlacedPoint}

theorem Shipping.run_sublist
    (hshipping : Shipping properties capacity total seen shipments run packer journal) :
    run.Sublist seen := by
  have hfits := List.filter_sublist (l := seen) (p := (·.fits properties capacity))
  rw [← hshipping.runs_eq] at hfits
  exact (List.sublist_append_right _ _).trans hfits

/-- The payload that a packer with points would send. -/
theorem Packs.carries (hpacks : Packs properties capacity packer run)
    (hpoints : ∀ item ∈ run, item.point ∈ item.metric.data.points) (hne : run ≠ [])
    (verdict : Verdict) :
    Shipment.Carries properties capacity ⟨run, packer.encoder.payload, verdict⟩ where
  run_ne_nil := hne
  size_le := by
    change packer.encoder.buffer.written.size ≤ capacity
    rw [Buffer.size_written hpacks.valid, hpacks.rests.cursor_eq]
    exact hpacks.length_bytes_le
  decode_eq := (hpacks.presents hne hpoints).decode
  points_eq := Message.Request.points_ofRun properties hpacks.sorted hpoints
  filled := Message.Request.filled_ofRun properties hne hpoints

theorem Packs.payload_eq (hpacks : Packs properties capacity packer run) :
    packer.encoder.payload.data.toList = (Draft.ofRun properties run).bytes := by
  rw [RequestEncoder.payload, Buffer.toList_written, hpacks.rests.bytes_eq]

/-- Sending the request makes its run one more shipment. -/
theorem Shipping.flush
    (hshipping : Shipping properties capacity total seen shipments run packer journal)
    (hpoints : ∀ item ∈ seen, item.point ∈ item.metric.data.points) (enabled : Bool) :
    ∃ sent next after, Packer.flush (.scripted enabled) packer journal = (next, after) ∧
      Shipping properties capacity total seen sent [] next after ∧
      Shipment.cargo sent [] = (Shipment.cargo shipments run).cut := by
  by_cases hzero : packer.points = 0
  · have hrun : run = [] := by
      rw [← List.length_eq_zero_iff, ← hshipping.packs.points_eq, hzero]
    refine ⟨shipments, packer, journal, ?_, ?_⟩
    · simp only [Packer.flush, hzero, if_true]
      rfl
    · rw [hrun] at hshipping ⊢
      exact ⟨hshipping, rfl⟩
  · have hne : run ≠ [] := by
      rw [ne_eq, ← List.length_eq_zero_iff, ← hshipping.packs.points_eq]
      exact hzero
    have hrunPoints : ∀ item ∈ run, item.point ∈ item.metric.data.points :=
      fun item hmem => hpoints item (hshipping.run_sublist.subset hmem)
    -- The payload is announced before it is handed over.
    let announced := journal.record (.sending packer.points packer.encoder.payload.size)
    obtain ⟨counted, after, hsend, hattempts, hsendings, hdropped, htotal, hfailed⟩ :=
      Tally.send_scripted enabled announced packer.encoder.payload packer.points packer.tally
    have hflush : Packer.flush (.scripted enabled) packer journal =
        ({ packer with tally := counted }.restart, after) := by
      simp only [Packer.flush, hzero, if_false]
      rw [bind_scripted (report_scripted enabled journal _), bind_scripted hsend]
      rfl
    have hpacked := hshipping.packs.points_eq
    refine ⟨shipments ++ [⟨run, packer.encoder.payload,
      (announced.attempt packer.encoder.payload).1⟩], _, after, hflush, ?_, ?_⟩
    case refine_2 =>
      rw [Cargo.cut_of_ne_nil hne, Shipment.cargo, List.map_append]
      rfl
    constructor
    · exact hshipping.packs.restart counted
    · rw [hattempts, List.map_append, ← hshipping.attempts_eq]
      rfl
    · rw [hsendings, Journal.sendings_record, List.map_append, ← hshipping.sendings_eq, hpacked]
      rfl
    · intro shipment hmem
      rcases List.mem_append.mp hmem with hmem | hmem
      · exact hshipping.carries shipment hmem
      · rw [List.mem_singleton.mp hmem]
        exact hshipping.packs.carries hrunPoints hne _
    · intro shipment hmem
      rcases List.mem_append.mp hmem with hmem | hmem
      · exact hshipping.payload_eq shipment hmem
      · rw [List.mem_singleton.mp hmem]
        exact hshipping.packs.payload_eq
    · rw [List.flatMap_append, List.flatMap_cons, List.flatMap_nil, List.append_nil,
        List.append_nil]
      exact hshipping.runs_eq
    · exact htotal.trans hshipping.total_eq
    · have hcounted := hshipping.failed_eq
      rw [Shipment.length_accepted_concat, List.length_nil]
      change counted.failed + _ + 0 = seen.length
      rw [hpacked] at hfailed
      change _ + ((Shipment.accepted shipments).length + if
        (announced.attempt packer.encoder.payload).1.isOk then run.length else 0) + 0 = _
      omega
    · rw [hdropped, Journal.dropped_record]
      exact hshipping.dropped_eq

/-- Leaving out a point that fits no request. -/
theorem Shipping.drop
    (hshipping : Shipping properties capacity total seen shipments run packer journal)
    (hunfit : item.fits properties capacity = false) (enabled : Bool) (cause : EncodeError) :
    ∃ next after, Packer.drop (.scripted enabled) cause packer journal = (next, after) ∧
      Shipping properties capacity total (seen ++ [item]) shipments run next after := by
  have hseen : (seen ++ [item]).filter (·.fits properties capacity) =
      seen.filter (·.fits properties capacity) := by
    rw [List.filter_append, List.filter_cons, hunfit]
    exact List.append_nil _
  refine ⟨{ packer with tally := { packer.tally with failed := packer.tally.failed + 1 } },
    journal.record (.dropped .dataPoint cause), rfl, ?_⟩
  constructor
  · exact hshipping.packs.counted _
  · exact hshipping.attempts_eq
  · rw [Journal.sendings_record]
    exact (List.append_nil _).trans hshipping.sendings_eq
  · exact hshipping.carries
  · exact hshipping.payload_eq
  · rw [hseen]
    exact hshipping.runs_eq
  · exact hshipping.total_eq
  · have hcounted := hshipping.failed_eq
    rw [List.length_append, List.length_singleton]
    change packer.tally.failed + 1 + _ + _ = _
    omega
  · have hcounted := hshipping.dropped_eq
    rw [hseen, Journal.dropped_record, List.length_append, List.length_singleton]
    change journal.dropped + 1 + _ = _
    omega

/-- A point that was written is the last of the run. -/
theorem Shipping.written
    (hshipping : Shipping properties capacity total seen shipments run packer journal)
    (hfits : item.fits properties capacity = true) {next : Packer}
    (hpacks : Packs properties capacity next (run ++ [item]))
    (htally : next.tally = packer.tally) :
    Shipping properties capacity total (seen ++ [item]) shipments (run ++ [item]) next
      journal := by
  have hseen : (seen ++ [item]).filter (·.fits properties capacity) =
      seen.filter (·.fits properties capacity) ++ [item] := by
    rw [List.filter_append, List.filter_cons, if_pos hfits]
    rfl
  constructor
  · exact hpacks
  · exact hshipping.attempts_eq
  · exact hshipping.sendings_eq
  · exact hshipping.carries
  · exact hshipping.payload_eq
  · rw [hseen, ← hshipping.runs_eq, List.append_assoc]
  · rw [htally]
    exact hshipping.total_eq
  · have hcounted := hshipping.failed_eq
    rw [htally, List.length_append, List.length_append, List.length_singleton]
    omega
  · have hcounted := hshipping.dropped_eq
    rw [hseen, List.length_append, List.length_append, List.length_singleton]
    omega

/-- A point that was not written leaves everything as it was. -/
theorem Shipping.unwritten
    (hshipping : Shipping properties capacity total seen shipments run packer journal)
    {left : Packer} (hpacks : Packs properties capacity left run)
    (htally : left.tally = packer.tally) :
    Shipping properties capacity total seen shipments run left journal where
  packs := hpacks
  attempts_eq := hshipping.attempts_eq
  sendings_eq := hshipping.sendings_eq
  carries := hshipping.carries
  payload_eq := hshipping.payload_eq
  runs_eq := hshipping.runs_eq
  total_eq := by
    rw [htally]
    exact hshipping.total_eq
  failed_eq := by
    rw [htally]
    exact hshipping.failed_eq
  dropped_eq := hshipping.dropped_eq

/-- Each point is written, into the request as it is or into the next one, or left out. -/
theorem Shipping.write
    (hshipping : Shipping properties capacity total seen shipments run packer journal)
    (hsorted : (seen ++ [item]).Pairwise PlacedPoint.Before)
    (hpoints : ∀ other ∈ seen ++ [item], other.point ∈ other.metric.data.points)
    (enabled : Bool) :
    ∃ sent extended next after,
      Packer.write (.scripted enabled) packer item journal = (next, after) ∧
      Shipping properties capacity total (seen ++ [item]) sent extended next after ∧
      Shipment.cargo sent extended =
        (Shipment.cargo shipments run).load properties capacity item := by
  have hnext : (run ++ [item]).Pairwise PlacedPoint.Before :=
    hsorted.sublist (hshipping.run_sublist.append (List.Sublist.refl _))
  rcases hshipping.packs.tryWrite hnext with
    ⟨next, htry, hpacks, htally, hfits⟩ |
    ⟨cause, left, htry, hpacks, htally, hoverflow, hrefused⟩
  · refine ⟨shipments, run ++ [item], next, journal, ?_,
      hshipping.written hfits hpacks htally, ?_⟩
    · simp only [Packer.write, htry]
      rfl
    · have hroom : ¬(Shipment.cargo shipments run).overflows properties capacity item = true := by
        rw [Cargo.overflows_of_valid (PlacedPoint.fits_iff.mp hfits).1]
        exact Nat.not_lt_of_le hpacks.length_bytes_le
      rw [Cargo.load_of_room hroom, if_pos hfits]
      rfl
  · have hleft := hshipping.unwritten hpacks htally
    have hcargo : cause.isOverflow = true ↔
        (Shipment.cargo shipments run).overflows properties capacity item = true := by
      rw [Cargo.overflows_eq_true_iff]
      exact hoverflow
    by_cases hfull : (cause.isOverflow && decide (0 < left.points)) = true
    · -- What the request holds is sent, and the point is tried in an empty one.
      obtain ⟨sent, flushed, after, hflush, hflushed, hcut⟩ := hleft.flush
        (fun other hmem => hpoints other (List.mem_append_left _ hmem)) enabled
      have hload := Cargo.load_of_overflows (hcargo.mp (Bool.and_eq_true_iff.mp hfull).1)
      rw [← hcut] at hload
      rcases hflushed.packs.tryWrite (List.pairwise_singleton _ item) with
        ⟨next, hretry, hpacks, htally, hfits⟩ | ⟨cause, left, hretry, hpacks, htally, -, hrefused⟩
      · rw [if_pos hfits] at hload
        refine ⟨sent, [item], next, after, ?_, hflushed.written hfits hpacks htally, hload.symm⟩
        simp only [Packer.write, htry, hfull, if_true]
        rw [bind_scripted hflush]
        simp only [hretry]
        rfl
      · -- An empty request that refuses the point shows that it fits none.
        have hunfit : item.fits properties capacity = false := by
          rw [Bool.eq_false_iff]
          exact fun hfits => (hrefused hfits).2 rfl
        rw [hunfit, if_neg Bool.false_ne_true] at hload
        obtain ⟨next, reported, hdrop, hdropped⟩ :=
          (hflushed.unwritten hpacks htally).drop hunfit enabled cause
        refine ⟨sent, [], next, reported, ?_, hdropped, hload.symm⟩
        simp only [Packer.write, htry, hfull, if_true]
        rw [bind_scripted hflush]
        simp only [hretry]
        exact hdrop
    · -- It was not refused for want of room, or the request was empty already.
      have hempty : (Shipment.cargo shipments run).overflows properties capacity item = true →
          run = [] := by
        intro hshort
        by_contra hne
        apply hfull
        rw [hcargo.mpr hshort, Bool.true_and, decide_eq_true_eq, hpacks.points_eq]
        exact List.length_pos_iff.mpr hne
      have hunfit : item.fits properties capacity = false := by
        rw [Bool.eq_false_iff]
        intro hfits
        obtain ⟨hshort, hne⟩ := hrefused hfits
        exact hne (hempty ((Cargo.overflows_of_valid (PlacedPoint.fits_iff.mp hfits).1).mpr hshort))
      obtain ⟨next, reported, hdrop, hdropped⟩ := hleft.drop hunfit enabled cause
      refine ⟨shipments, run, next, reported, ?_, hdropped, ?_⟩
      · simp only [Packer.write, htry, hfull, if_false, Bool.false_eq_true]
        exact hdrop
      · exact (Cargo.load_of_unfit hunfit hempty).symm

/-- From the first point to the last. -/
theorem Shipping.foldlM {items : List PlacedPoint}
    (hshipping : Shipping properties capacity total seen shipments run packer journal)
    (hsorted : (seen ++ items).Pairwise PlacedPoint.Before)
    (hpoints : ∀ other ∈ seen ++ items, other.point ∈ other.metric.data.points)
    (enabled : Bool) :
    ∃ sent last next after,
      items.foldlM (Packer.write (.scripted enabled)) packer journal = (next, after) ∧
      Shipping properties capacity total (seen ++ items) sent last next after ∧
      Shipment.cargo sent last =
        items.foldl (Cargo.load properties capacity) (Shipment.cargo shipments run) := by
  -- On the points to come, whatever became of those seen so far.
  induction items generalizing seen shipments run packer journal with
  | nil =>
      refine ⟨shipments, run, packer, journal, rfl, ?_, rfl⟩
      rw [List.append_nil]
      exact hshipping
  | cons item rest ih =>
      rw [List.append_cons] at hsorted hpoints ⊢
      obtain ⟨sent, extended, next, after, hwrite, hnext, hload⟩ := hshipping.write
        (hsorted.sublist (List.sublist_append_left _ _))
        (fun other hmem => hpoints other (List.mem_append_left _ hmem)) enabled
      obtain ⟨all, last, final, done, hrest, hfinal, hcargo⟩ := ih hnext hsorted hpoints
      refine ⟨all, last, final, done, ?_, hfinal, ?_⟩
      · rw [List.foldlM_cons, bind_scripted hwrite]
        exact hrest
      · rw [hcargo, hload, List.foldl_cons]

theorem shipping_start {format : RequestFormat}
    (hformat : RequestFormat.make properties = .ok format) {buffer : Buffer}
    (hcapacity : buffer.capacity ≤ maxPayloadSize) (total : Nat) (verdicts : List Verdict) :
    Shipping properties buffer.capacity total [] [] [] (start format buffer total)
      (Journal.start verdicts) where
  packs := packs_start hformat hcapacity total
  attempts_eq := rfl
  sendings_eq := rfl
  carries := fun _ hmem => absurd hmem List.not_mem_nil
  payload_eq := fun _ hmem => absurd hmem List.not_mem_nil
  runs_eq := rfl
  total_eq := rfl
  failed_eq := rfl
  dropped_eq := rfl

/-- A whole batch is packed, and what remains is sent. -/
theorem shipping_writeAll {format : RequestFormat}
    (hformat : RequestFormat.make properties = .ok format) {buffer : Buffer}
    (hcapacity : buffer.capacity ≤ maxPayloadSize) (batch : List Metric)
    (verdicts : List Verdict) (enabled : Bool) (total : Nat) :
    ∃ sent next after,
      (start format buffer total).writeAll (.scripted enabled) (PlacedPoint.sendOrder batch)
        (Journal.start verdicts) = (next, after) ∧
      Shipping properties buffer.capacity total (PlacedPoint.sendOrder batch) sent [] next
        after ∧
      sent.map (·.run) =
        Cargo.pack properties buffer.capacity (PlacedPoint.sendOrder batch) := by
  have hsorted : ([] ++ PlacedPoint.sendOrder batch).Pairwise PlacedPoint.Before :=
    PlacedPoint.pairwise_sendOrder batch
  have hpoints : ∀ item ∈ [] ++ PlacedPoint.sendOrder batch,
      item.point ∈ item.metric.data.points :=
    fun _ hmem => PlacedPoint.point_mem_of_mem_sendOrder hmem
  obtain ⟨_, _, packed, written, hfold, hpacked, hcargo⟩ :=
    (shipping_start hformat hcapacity total verdicts).foldlM hsorted hpoints enabled
  obtain ⟨sent, next, after, hflush, hshipping, hcut⟩ := hpacked.flush hpoints enabled
  rw [hcargo] at hcut
  exact ⟨sent, next, after, (bind_scripted hfold).trans hflush, hshipping,
    congrArg Cargo.sent hcut⟩

end Packer

end TelemetryExport
