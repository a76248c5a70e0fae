import TelemetryExport.Proofs.Export.Packing
import TelemetryExport.Proofs.Metric.Asserting

/-! # Packing with assertions

An attempt to write a point is made with the checks of every writer, and one more: going
back after a fault never takes the cursor forward. Between two points either no message is
open or those around a point are, and from there no check fails, in whatever order the
points come and whether or not there is room for them.
-/

namespace TelemetryExport

open RequestEncoder (OpenTo)

namespace Asserting

/-! ## Attempts -/

def onEncoder {α : Type} (action : Asserting RequestEncoder α) : Asserting Packer α :=
  Packer.onEncoder action.run

def openResource : Asserting Packer Unit := do
  if (← get).encoder.depth = 0 then
    onEncoder beginResource
    modify ({ · with levels := .none })

def openScope (item : PlacedPoint) : Asserting Packer Unit := do
  if (← get).levels.group ≠ some item.group then
    Packer.closeTo Level.scope
    modify fun packer => { packer with levels := { packer.levels with metric := none } }
    onEncoder (beginScope item.scope)
    modify fun packer => { packer with levels := { packer.levels with group := item.group } }

def openMetric (item : PlacedPoint) : Asserting Packer Unit := do
  if (← get).levels.metric ≠ some item.index then
    Packer.closeTo Level.metric
    onEncoder (beginMetric item.metric)
    onEncoder (beginInstrument item.metric.data)
    modify fun packer => { packer with levels := { packer.levels with metric := item.index } }

def append (item : PlacedPoint) : Asserting Packer Unit := do
  openResource
  openScope item
  openMetric item
  onEncoder (emit item.point)

/-- Writes a point into the request. An attempt goes back after a fault and never after a
violation. -/
def tryWrite (item : PlacedPoint) : Asserting Packer Unit := fun packer =>
  let checkpoint := packer.encoder.checkpoint
  let levels := packer.levels
  match (append item).run packer with
  | .ok (.ok ()) packer => .ok (.ok ()) { packer with points := packer.points + 1 }
  | .ok (.error violation) packer => .ok (.error violation) packer
  | .error fault packer =>
      if checkpoint.position.position ≤ packer.encoder.buffer.cursor then
        .error fault { packer with encoder := packer.encoder.rewind checkpoint, levels }
      else .ok (.error .forward) packer

variable {m : Type → Type} [Monad m]

def write (transport : Transport m) (packer : Packer) (item : PlacedPoint) :
    ExceptT Violation m Packer := ExceptT.mk do
  match (tryWrite item).run packer with
  | .ok (.ok ()) packer => return .ok packer
  | .ok (.error violation) _ => return .error violation
  | .error cause packer =>
      if cause.isOverflow && 0 < packer.points then
        let packer ← packer.flush transport
        match (tryWrite item).run packer with
        | .ok (.ok ()) packer => return .ok packer
        | .ok (.error violation) _ => return .error violation
        | .error cause packer => return .ok (← packer.drop transport cause)
      else
        return .ok (← packer.drop transport cause)

def writeAll (transport : Transport m) (packer : Packer) (items : List PlacedPoint) :
    ExceptT Violation m Packer := do
  let packer ← items.foldlM (write transport) packer
  ExceptT.lift (packer.flush transport)

/-! ## The messages around a point -/

variable {packer : Packer} {item : PlacedPoint}

theorem leadsTo_onEncoder {action : Asserting RequestEncoder Unit} {plain : EncodeRequest Unit}
    {reached : RequestEncoder → Prop}
    (haction : LeadsTo RequestEncoder.buffer action plain packer.encoder reached) :
    LeadsTo (·.encoder.buffer) (onEncoder action) (Packer.onEncoder plain) packer
      (fun after => reached after.encoder ∧ after.levels = packer.levels) := by
  have hok {ι : Type} {inner : EncodeRequest ι} {result : ι} {encoder : RequestEncoder}
      (hinner : inner packer.encoder = .ok result encoder) :
      Packer.onEncoder inner packer = .ok result { packer with encoder } := by
    simp only [Packer.onEncoder, hinner]
  have herror {ι : Type} {inner : EncodeRequest ι} {fault : EncodeError} {encoder : RequestEncoder}
      (hinner : inner packer.encoder = .error fault encoder) :
      Packer.onEncoder inner packer = .error fault { packer with encoder } := by
    simp only [Packer.onEncoder, hinner]
  refine (Upholds.zoom Packer.onEncoder hok herror haction).imp ?_ ?_
  · rintro _ _ ⟨encoder, rfl, hprecedes, hreached⟩
    exact ⟨hprecedes, hreached, rfl⟩
  · rintro _ ⟨encoder, rfl, hprecedes⟩
    exact hprecedes

/-- What is closed, and what is noted as open, does not touch the buffer. -/
theorem leadsTo_modify {change : Packer → Packer} (hvalid : packer.encoder.buffer.Valid)
    (hbuffer : (change packer).encoder.buffer = packer.encoder.buffer) :
    LeadsTo (·.encoder.buffer) (modify change) (modify change) packer (· = change packer) := by
  refine Upholds.of_plain ?_ ?_
  · rintro _ _ ⟨⟩
    refine ⟨?_, rfl⟩
    change packer.encoder.buffer.Precedes (change packer).encoder.buffer
    rw [hbuffer]
    exact hvalid.precedes_self
  · rintro _ _ ⟨⟩

end Asserting

/-- Between two points no message is open, or those around a point are. -/
def Packer.Ready (packer : Packer) : Prop :=
  packer.encoder.OpenTo Level.resource ∨ packer.encoder.OpenTo Level.dataPoint

namespace Asserting

variable {packer : Packer} {item : PlacedPoint}

theorem leadsTo_openResource (hready : packer.Ready) :
    LeadsTo (·.encoder.buffer) openResource Packer.openResource packer fun after =>
      after.encoder.OpenTo Level.scope ∧ after.levels = .none ∨
        after.encoder.OpenTo Level.dataPoint := by
  refine Upholds.get ?_
  rcases hready with hopen | hopen
  · have hdepth : packer.encoder.depth = 0 := hopen.depth_eq
    rw [if_pos hdepth, if_pos hdepth]
    refine (leadsTo_onEncoder (leadsTo_beginResource hopen)).bind fun _ after hafter => ?_
    refine (leadsTo_modify hafter.1.valid rfl).imp ?_
    rintro _ rfl
    exact .inl ⟨hafter.1, rfl⟩
  · have hdepth : packer.encoder.depth ≠ 0 := by
      rw [hopen.depth_eq]
      decide
    rw [if_neg hdepth, if_neg hdepth]
    exact Upholds.pure ⟨hopen.valid.precedes_self, .inr hopen⟩

/-- Behind an opening, and behind a point too, a level is the innermost once the messages inside
it are closed. -/
theorem openTo_closeTo {encoder : RequestEncoder} {level : Nat} {noted : Prop}
    (hopen : encoder.OpenTo level ∧ noted ∨ encoder.OpenTo Level.dataPoint)
    (hlevel : level ≤ Level.dataPoint) : (encoder.closeTo level).OpenTo level := by
  rcases hopen with ⟨hopen, -⟩ | hopen
  · exact hopen.closeTo (Nat.le_refl _)
  · exact hopen.closeTo hlevel

/-- The messages inside the resource are closed for a scope, unless it is open. -/
theorem leadsTo_openScope
    (hopen : packer.encoder.OpenTo Level.scope ∧ packer.levels = .none ∨
      packer.encoder.OpenTo Level.dataPoint) :
    LeadsTo (·.encoder.buffer) (openScope item) (Packer.openScope item) packer fun after =>
      after.encoder.OpenTo Level.metric ∧ after.levels.metric = none ∨
        after.encoder.OpenTo Level.dataPoint := by
  refine Upholds.get ?_
  by_cases hgroup : packer.levels.group ≠ some item.group
  · rw [if_pos hgroup, if_pos hgroup]
    have hclosed : (packer.encoder.closeTo Level.scope).OpenTo Level.scope :=
      openTo_closeTo hopen (by decide)
    refine LeadsTo.bind (leadsTo_modify hclosed.valid rfl) ?_
    rintro _ _ rfl
    refine LeadsTo.bind (leadsTo_modify hclosed.valid rfl) ?_
    rintro _ _ rfl
    refine (leadsTo_onEncoder (leadsTo_beginScope item.scope hclosed)).bind fun _ after hafter => ?_
    refine (leadsTo_modify hafter.1.valid rfl).imp ?_
    rintro _ rfl
    refine .inl ⟨hafter.1, ?_⟩
    change after.levels.metric = none
    rw [hafter.2]
  · rw [if_neg hgroup, if_neg hgroup]
    -- A scope that is noted as open was left open behind a point.
    rcases hopen with ⟨-, hlevels⟩ | hopen
    · rw [hlevels] at hgroup
      exact absurd (Option.some_ne_none _).symm hgroup
    · exact Upholds.pure ⟨hopen.valid.precedes_self, .inr hopen⟩

theorem leadsTo_openMetric
    (hopen : packer.encoder.OpenTo Level.metric ∧ packer.levels.metric = none ∨
      packer.encoder.OpenTo Level.dataPoint) :
    LeadsTo (·.encoder.buffer) (openMetric item) (Packer.openMetric item) packer
      (·.encoder.OpenTo Level.dataPoint) := by
  refine Upholds.get ?_
  by_cases hindex : packer.levels.metric ≠ some item.index
  · rw [if_pos hindex, if_pos hindex]
    have hclosed : (packer.encoder.closeTo Level.metric).OpenTo Level.metric :=
      openTo_closeTo hopen (by decide)
    refine LeadsTo.bind (leadsTo_modify hclosed.valid rfl) ?_
    rintro _ _ rfl
    refine (leadsTo_onEncoder (leadsTo_beginMetric item.metric hclosed)).bind fun _ inner hinner =>
      ?_
    refine (leadsTo_onEncoder (leadsTo_beginInstrument item.metric.data hinner.1)).bind
      fun _ after hafter => ?_
    refine (leadsTo_modify hafter.1.valid rfl).imp ?_
    rintro _ rfl
    exact hafter.1
  · rw [if_neg hindex, if_neg hindex]
    rcases hopen with ⟨-, hlevels⟩ | hopen
    · rw [hlevels] at hindex
      exact absurd (Option.some_ne_none _).symm hindex
    · exact Upholds.pure ⟨hopen.valid.precedes_self, hopen⟩

theorem leadsTo_append (hready : packer.Ready) :
    LeadsTo (·.encoder.buffer) (append item) (Packer.append item) packer
      (·.encoder.OpenTo Level.dataPoint) := by
  refine (leadsTo_openResource hready).bind fun _ _ hresource => ?_
  refine (leadsTo_openScope hresource).bind fun _ _ hscope => ?_
  refine (leadsTo_openMetric hscope).bind fun _ _ hmetric => ?_
  exact (leadsTo_onEncoder (leadsTo_emit item.point hmetric)).imp fun _ => And.left

/-! ## Attempts and writes -/

/-- An attempt fails no assertion, and fails of a foreseen fault only. -/
theorem upholds_tryWrite (hready : packer.Ready) :
    Upholds (tryWrite item) (Packer.tryWrite item) packer (fun _ _ => True)
      (·.encoder.buffer.capacity ≤ maxPayloadSize) := by
  have happend : LeadsTo (·.encoder.buffer) (append item) _ packer _ := leadsTo_append hready
  cases hplain : Packer.append item packer with
  | ok result after =>
      have hrun : Packer.tryWrite item packer =
          .ok () { after with points := after.points + 1 } := by
        simp only [Packer.tryWrite, hplain]
      refine ⟨?_, fun _ _ _ => trivial, ?_⟩
      · change tryWrite item packer = _
        simp only [tryWrite, Upholds.run_of_ok happend hplain, Functor.map, EStateM.map, hrun]
      · rw [hrun]
        rintro _ _ ⟨⟩
  | error fault left =>
      have hleft := Upholds.of_error happend fault left hplain
      have hback : packer.encoder.checkpoint.position.position ≤ left.encoder.buffer.cursor :=
        hleft.2.cursor_le
      have hrun : Packer.tryWrite item packer = .error fault { left with
          encoder := left.encoder.rewind packer.encoder.checkpoint
          levels := packer.levels } := by
        simp only [Packer.tryWrite, hplain]
      refine ⟨?_, fun _ _ _ => trivial, ?_⟩
      · change tryWrite item packer = _
        simp only [tryWrite, Upholds.run_of_error happend hplain, if_pos hback, Functor.map,
          EStateM.map, hrun]
      · rw [hrun]
        rintro _ _ ⟨⟩
        exact ⟨hleft.1, hleft.2.valid.capacity_le⟩

/-- An empty request is ready for any point. -/
theorem ready_restart (packer : Packer)
    (hcapacity : packer.encoder.buffer.capacity ≤ maxPayloadSize) : packer.restart.Ready := by
  refine .inl ⟨⟨Nat.zero_le _, hcapacity⟩, ?_, fun slot hmem => ?_⟩
  · exact Nat.min_zero _
  · change slot ∈ packer.encoder.levels.clear.toList at hmem
    rw [SlotStack.toList_clear] at hmem
    exact absurd hmem List.not_mem_nil

section

variable {m : Type → Type} [Monad m] [LawfulMonad m] (transport : Transport m)

/-- The last attempt to write a point, after which it is left out. -/
theorem run_attempt (hready : packer.Ready) :
    (match (tryWrite item).run packer with
      | .ok (.ok ()) packer => pure (.ok packer)
      | .ok (.error violation) _ => pure (.error violation)
      | .error cause packer => do return .ok (← packer.drop transport cause)) =
      (Except.ok <$> match Packer.tryWrite item packer with
        | .ok () packer => pure packer
        | .error cause packer => packer.drop transport cause : m (Except Violation Packer)) := by
  have htry : Upholds (tryWrite item) _ packer _ _ := upholds_tryWrite hready
  cases hplain : Packer.tryWrite item packer with
  | ok result after =>
      simp only [htry.run_of_ok hplain, map_pure]
  | error cause left =>
      simp only [htry.run_of_error hplain, bind_pure_comp]

/-- What is sent before the second attempt leaves an empty request. -/
theorem flush_bind {β : Type} (hpoints : packer.points ≠ 0) (next : Packer → m β) :
    packer.flush transport >>= next = (do
      transport.report (.sending packer.points packer.encoder.payload.size)
      let tally ← packer.tally.send transport packer.points packer.encoder.payload
      next { packer with tally }.restart) := by
  simp only [Packer.flush, if_neg hpoints, bind_assoc, pure_bind]

/-- No assertion fails while a point is written or left out. -/
theorem run_write (hready : packer.Ready) :
    (write transport packer item).run = Except.ok <$> packer.write transport item := by
  have htry : Upholds (tryWrite item) _ packer _ _ := upholds_tryWrite hready
  cases hplain : Packer.tryWrite item packer with
  | ok result after =>
      simp only [write, Packer.write, htry.run_of_ok hplain, hplain, map_pure]
      rfl
  | error cause left =>
      have hcapacity := (htry.of_error cause left hplain).2
      by_cases hfull : (cause.isOverflow && decide (0 < left.points)) = true
      · have hpoints : left.points ≠ 0 := by
          rw [Bool.and_eq_true, decide_eq_true_eq] at hfull
          exact Nat.ne_of_gt hfull.2
        simp only [write, Packer.write, htry.run_of_error hplain, hplain, hfull, if_true,
          ExceptT.run_mk, flush_bind transport hpoints, map_bind]
        -- Both go on from the same request, which is empty.
        refine bind_congr fun _ => bind_congr fun tally => ?_
        exact run_attempt transport (ready_restart { left with tally } hcapacity)
      · simp only [write, Packer.write, htry.run_of_error hplain, hplain, hfull, if_false,
          ExceptT.run_mk, Bool.false_eq_true, bind_pure_comp]

end

end Asserting

end TelemetryExport
