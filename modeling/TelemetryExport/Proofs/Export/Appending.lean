import TelemetryExport.Proofs.Export.Draft

/-! # Appending a point to a request

A packer follows a draft when its request holds what is in the draft, and rests on it
when moreover every header is right. Appending a point leads from one draft to the
next. It opens the messages around the point that are not open yet, and what each of
these steps costs is known beforehand, so that the whole succeeds if and only if the
point has a form in the schema and everything that is missing fits. An attempt that
fails has touched nothing that was there before, and fails of overflow if the point
has a form.
-/

namespace TelemetryExport

open WrittenField OpenMessage RequestEncoder
open Encode (bind_of_ok bind_of_error)

namespace Packer

/-- What was there before still is. -/
structure Keeps (before after : Packer) : Prop where
  encoder_keeps : RequestEncoder.Keeps before.encoder after.encoder
  points_eq : after.points = before.points
  tally_eq : after.tally = before.tally

theorem Keeps.trans {first second third : Packer} (hfirst : Keeps first second)
    (hsecond : Keeps second third) : Keeps first third where
  encoder_keeps :=
    ⟨hsecond.encoder_keeps.resource_eq.trans hfirst.encoder_keeps.resource_eq,
      hfirst.encoder_keeps.extends_buffer.trans hsecond.encoder_keeps.extends_buffer⟩
  points_eq := hsecond.points_eq.trans hfirst.points_eq
  tally_eq := hsecond.tally_eq.trans hfirst.tally_eq

/-- So many bytes came to the request, and nothing else changed in the packer but the
open messages. -/
structure Advances (before after : Packer) (cost : Nat) : Prop where
  cursor_eq : after.encoder.buffer.cursor = before.encoder.buffer.cursor + cost
  capacity_eq : after.encoder.buffer.capacity = before.encoder.buffer.capacity
  resource_eq : after.encoder.resource = before.encoder.resource
  points_eq : after.points = before.points
  tally_eq : after.tally = before.tally

theorem Advances.trans {first second third : Packer} {cost more : Nat}
    (hfirst : Advances first second cost) (hsecond : Advances second third more) :
    Advances first third (cost + more) where
  cursor_eq := by rw [hsecond.cursor_eq, hfirst.cursor_eq, Nat.add_assoc]
  capacity_eq := hsecond.capacity_eq.trans hfirst.capacity_eq
  resource_eq := hsecond.resource_eq.trans hfirst.resource_eq
  points_eq := hsecond.points_eq.trans hfirst.points_eq
  tally_eq := hsecond.tally_eq.trans hfirst.tally_eq

theorem Advances.toList_resource {before after : Packer} {cost : Nat} {bytes : List UInt8}
    (hadvances : Advances before after cost)
    (hresource : before.encoder.resource.data.toList = bytes) :
    after.encoder.resource.data.toList = bytes := by
  rw [hadvances.resource_eq]
  exact hresource

/-- The action appends so many bytes and leads to such a state if what it appends has a
form and fits. Otherwise it fails and keeps what was there, of overflow just if there is
no room for what comes before the fault in the form. -/
structure Attempt (action : EStateM EncodeError Packer Unit) (packer : Packer) (valid : Bool)
    (cost leading : Nat) (reached : Packer → Prop) : Prop where
  of_le : valid = true →
    packer.encoder.buffer.cursor + cost ≤ packer.encoder.buffer.capacity →
    ∃ next, action packer = .ok () next ∧ Advances packer next cost ∧ reached next
  of_lt : (valid = true →
      packer.encoder.buffer.capacity < packer.encoder.buffer.cursor + cost) →
    ∃ fault left, action packer = .error fault left ∧ Keeps packer left ∧
      (fault.isOverflow = true ↔
        packer.encoder.buffer.capacity < packer.encoder.buffer.cursor + leading)

/-- An attempt that can fail of overflow only and touches nothing that was there. -/
def Prepares (action : EStateM EncodeError Packer Unit) (packer : Packer) (cost : Nat)
    (reached : Packer → Prop) : Prop :=
  Attempt action packer true cost cost fun next => Keeps packer next ∧ reached next

variable {packer : Packer} {first rest : EStateM EncodeError Packer Unit} {valid : Bool}
  {cost more leading ahead : Nat} {reached final : Packer → Prop} {properties : List Attribute}

theorem Attempt.imp (hattempt : Attempt first packer valid cost leading reached)
    (himp : ∀ next, reached next → final next) :
    Attempt first packer valid cost leading final where
  of_le := by
    intro hvalid hroom
    obtain ⟨next, hrun, hadvances, hreached⟩ := hattempt.of_le hvalid hroom
    exact ⟨next, hrun, hadvances, himp next hreached⟩
  of_lt := hattempt.of_lt

theorem Prepares.imp (hprepares : Prepares first packer cost reached)
    (himp : ∀ next, reached next → final next) : Prepares first packer cost final :=
  Attempt.imp hprepares fun next hnext => ⟨hnext.1, himp next hnext.2⟩

/-- What was prepared need not be undone when the attempt after it fails. -/
theorem Prepares.attempt (hfirst : Prepares first packer cost reached)
    (hrest : ∀ next, Advances packer next cost → reached next →
      Attempt rest next valid more leading final) :
    Attempt (first >>= fun _ => rest) packer valid (cost + more) (cost + leading) final where
  of_le := by
    intro hvalid hroom
    obtain ⟨next, hrun, hadvances, -, hreached⟩ := hfirst.of_le rfl (by omega)
    obtain ⟨after, hafter, hmore, hfinal⟩ := (hrest next hadvances hreached).of_le hvalid (by
      rw [hadvances.cursor_eq, hadvances.capacity_eq]
      omega)
    exact ⟨after, (bind_of_ok hrun).trans hafter, hadvances.trans hmore, hfinal⟩
  of_lt := by
    intro hunfit
    -- What was prepared lies behind everything that was there, so that it may stay.
    by_cases hroom : packer.encoder.buffer.cursor + cost ≤ packer.encoder.buffer.capacity
    · obtain ⟨next, hrun, hadvances, hkeeps, hreached⟩ := hfirst.of_le rfl hroom
      obtain ⟨fault, left, hfault, hleft, hoverflow⟩ :=
        (hrest next hadvances hreached).of_lt (by
          intro hvalid
          have hshort := hunfit hvalid
          rw [hadvances.cursor_eq, hadvances.capacity_eq]
          omega)
      refine ⟨fault, left, (bind_of_ok hrun).trans hfault, hkeeps.trans hleft, ?_⟩
      rw [hoverflow, hadvances.cursor_eq, hadvances.capacity_eq, Nat.add_assoc]
    · obtain ⟨fault, left, hfault, hkeeps, hoverflow⟩ :=
        hfirst.of_lt fun _ => Nat.lt_of_not_le hroom
      refine ⟨fault, left, bind_of_error hfault, hkeeps, ?_⟩
      exact iff_of_true (hoverflow.mpr (Nat.lt_of_not_le hroom)) (by omega)

theorem Prepares.bind (hfirst : Prepares first packer cost reached)
    (hrest : ∀ next, Advances packer next cost → reached next →
      Prepares rest next more final) :
    Prepares (first >>= fun _ => rest) packer (cost + more) final := by
  have hkept : Prepares first packer cost fun next => Keeps packer next ∧ reached next :=
    Attempt.imp hfirst fun _ hnext => ⟨hnext.1, hnext⟩
  apply hkept.attempt
  rintro next hadvances ⟨hkeeps, hreached⟩
  exact Attempt.imp (hrest next hadvances hreached) fun _ hfinal =>
    ⟨hkeeps.trans hfinal.1, hfinal.2⟩

theorem Attempt.of_run_eq {other : EStateM EncodeError Packer Unit}
    (hattempt : Attempt first packer valid cost leading reached)
    (hrun : other packer = first packer) (hcost : cost = more) (hleading : leading = ahead) :
    Attempt other packer valid more ahead reached where
  of_le := by
    rw [hrun, ← hcost]
    exact hattempt.of_le
  of_lt := by
    rw [hrun, ← hcost, ← hleading]
    exact hattempt.of_lt

/-- Closing messages and noting what is open costs nothing. -/
theorem prepares_modify (change : Packer → Packer) (hvalid : packer.encoder.buffer.Valid)
    (hbuffer : (change packer).encoder.buffer = packer.encoder.buffer)
    (hresource : (change packer).encoder.resource = packer.encoder.resource)
    (hpoints : (change packer).points = packer.points)
    (htally : (change packer).tally = packer.tally) :
    Prepares (modify change) packer 0 (· = change packer) where
  of_le := by
    intro _ _
    refine ⟨change packer, rfl, ⟨?_, ?_, hresource, hpoints, htally⟩, ⟨⟨hresource, ?_⟩, hpoints,
      htally⟩, rfl⟩
    · rw [hbuffer, Nat.add_zero]
    · rw [hbuffer]
    · rw [hbuffer]
      exact hvalid.extends_self
  of_lt := by
    intro hshort
    exact absurd (hshort rfl) (Nat.not_lt_of_le hvalid.cursor_le)

/-! ## Packers and drafts -/

/-- The request holds what is in the draft. The headers of its open messages may hold
anything. -/
structure Follows (packer : Packer) (draft : Draft) : Prop where
  drafts : Drafts packer.encoder draft.fields draft.opens
  instrument_eq : packer.encoder.instrument = draft.instrument
  levels_eq : packer.levels = draft.levels

/-- The request is what the draft stands for. -/
structure Rests (packer : Packer) (draft : Draft) : Prop extends Follows packer draft where
  bytes_eq : packer.encoder.buffer.bytes = draft.bytes

variable {draft : Draft} {item : PlacedPoint}

theorem Rests.completes (hrests : Rests packer draft) :
    Completes packer.encoder draft.fields draft.opens :=
  ⟨hrests.drafts, hrests.bytes_eq⟩

theorem Follows.cursor_eq (hfollows : Follows packer draft) :
    packer.encoder.buffer.cursor = draft.bytes.length :=
  hfollows.drafts.cursor_eq

theorem Follows.buffer_valid (hfollows : Follows packer draft) : packer.encoder.buffer.Valid :=
  hfollows.drafts.valid

theorem Follows.length_bytes_le (hfollows : Follows packer draft) :
    draft.bytes.length ≤ maxPayloadSize :=
  hfollows.drafts.length_content_le

/-- What is noted as open is no part of the request. -/
theorem Follows.note (hfollows : Follows packer draft) (levels : OpenLevels) :
    Follows { packer with levels } { draft with levels } :=
  ⟨hfollows.drafts, hfollows.instrument_eq, rfl⟩

theorem Rests.closeTo (hrests : Rests packer draft) (depth : Nat) :
    Follows { packer with encoder := packer.encoder.closeTo depth } (draft.closeTo depth) where
  drafts := (hrests.completes.closeTo depth).toDrafts
  instrument_eq := by
    rw [RequestEncoder.closeTo, Draft.closeTo, hrests.instrument_eq]
  levels_eq := hrests.levels_eq

/-- Closing messages that are not open only forgets the instrument, if one is noted. -/
theorem Follows.closeTo (hfollows : Follows packer draft) {depth : Nat}
    (hdepth : draft.opens.length ≤ depth) (hinstrument : depth ≤ Level.instrument) :
    Follows { packer with encoder := packer.encoder.closeTo depth }
      { draft with instrument := none } where
  drafts := hfollows.drafts.closeTo_of_le hdepth
  instrument_eq := if_pos hinstrument
  levels_eq := hfollows.levels_eq

/-- An opening at its place. -/
theorem prepares_open (opening : Opening)
    (hresource : packer.encoder.resource.data.toList =
      encodeAll [RequestFormat.resourceField properties])
    (hfollows : Follows packer draft) (hdepth : draft.opens.length = opening.depth) :
    Prepares (onEncoder opening.run) packer (opening.cost properties)
      (Follows · (draft.add properties opening)) := by
  obtain ⟨action, hopens, hwrites⟩ := opening.exists_writer hresource
  have hle := opening.depth_le
  have hadd : draft.opens ++ [⟨fieldAt (opening.instrumentAfter packer.encoder.instrument)
      draft.opens.length, opening.fields properties⟩] = (draft.add properties opening).opens := by
    rw [Draft.add, Opening.message, hfollows.instrument_eq, hdepth]
  have hlength : (encodeAll (content draft.fields (draft.add properties opening).opens)).length =
      packer.encoder.buffer.cursor + opening.cost properties := by
    rw [hfollows.cursor_eq]
    exact draft.length_bytes_add properties opening
  constructor
  · intro _ hroom
    obtain ⟨after, hrun, hkeeps, hinstrument, hafter⟩ :=
      hfollows.drafts.begin_of_le hopens hwrites (by omega) (by rw [hadd, hlength]; exact hroom)
    rw [hadd] at hafter
    rw [hfollows.instrument_eq] at hinstrument
    refine ⟨{ packer with encoder := after }, ?_, ⟨?_, hkeeps.extends_buffer.capacity_eq,
      hkeeps.resource_eq, rfl, rfl⟩, ⟨hkeeps, rfl, rfl⟩, hafter, hinstrument,
      hfollows.levels_eq⟩
    · simp only [onEncoder, hrun]
    · rw [← hlength]
      exact hafter.cursor_eq
  · intro hshort
    obtain ⟨fault, left, hrun, hoverflow, hkeeps⟩ :=
      hfollows.drafts.begin_of_lt hopens hwrites (by omega) (by
        rw [hadd, hlength]
        exact hshort rfl)
    refine ⟨fault, { packer with encoder := left }, ?_, ⟨hkeeps, rfl, rfl⟩,
      iff_of_true hoverflow (hshort rfl)⟩
    simp only [onEncoder, hrun]

/-- A point in the open instrument. -/
theorem attempt_emit (point : DataPoint) (hfollows : Follows packer draft)
    (hdepth : draft.opens.length = Level.dataPoint) :
    Attempt (onEncoder (emit point)) packer point.isValid point.cost point.leading
      (Rests · (draft.emit point)) := by
  have hopen : draft.opens.length < Level.count := by
    rw [hdepth]
    decide
  have hlength : (encodeAll (content (draft.emit point).fields (draft.emit point).opens)).length =
      packer.encoder.buffer.cursor + point.cost := by
    rw [hfollows.cursor_eq]
    exact draft.length_bytes_emit point
  constructor
  · intro hvalid hroom
    rw [← hlength] at hroom
    obtain ⟨after, hrun, hcompletes, hresource, hinstrument, hcapacity⟩ :=
      hfollows.drafts.emit_of_le hvalid hopen hroom
    refine ⟨{ packer with encoder := after }, ?_, ⟨?_, hcapacity, hresource, rfl, rfl⟩,
      ⟨hcompletes.toDrafts, hinstrument.trans hfollows.instrument_eq, hfollows.levels_eq⟩,
      hcompletes.bytes_eq⟩
    · simp only [onEncoder, hrun]
    · rw [← hlength]
      exact hcompletes.toDrafts.cursor_eq
  · intro hunfit
    have herror : point.isValid = false ∨ packer.encoder.buffer.capacity <
        (encodeAll (content (draft.emit point).fields (draft.emit point).opens)).length := by
      rw [hlength]
      cases hvalid : point.isValid with
      | false => exact .inl rfl
      | true => exact .inr (hunfit hvalid)
    obtain ⟨fault, left, hrun, hkeeps, hoverflow⟩ := hfollows.drafts.emit_error hopen herror
    refine ⟨fault, { packer with encoder := left }, ?_, ⟨hkeeps, rfl, rfl⟩, hoverflow⟩
    simp only [onEncoder, hrun]

/-! ## What is missing around a point -/

theorem openResource_of_depth_eq (hdepth : packer.encoder.depth = 0) :
    openResource packer = (onEncoder beginResource >>= fun _ =>
      modify ({ · with levels := .none })) packer := by
  -- Reading the depth from the state leaves a choice that depends on the packer alone.
  change (if packer.encoder.depth = 0 then _ else _ : EStateM EncodeError Packer Unit) packer = _
  rw [if_pos hdepth]

theorem openResource_of_depth_ne (hdepth : packer.encoder.depth ≠ 0) :
    openResource packer = .ok () packer := by
  change (if packer.encoder.depth = 0 then _ else _ : EStateM EncodeError Packer Unit) packer = _
  rw [if_neg hdepth]
  rfl

theorem openScope_of_ne (hgroup : packer.levels.group ≠ some item.group) :
    openScope item packer = (closeTo Level.scope >>= fun _ =>
      modify (fun packer => { packer with levels := { packer.levels with metric := none } }) >>=
      fun _ => onEncoder (beginScope item.scope) >>= fun _ =>
      modify fun packer => { packer with levels := { packer.levels with group := item.group } })
        packer := by
  change (if packer.levels.group ≠ some item.group then _ else _ :
    EStateM EncodeError Packer Unit) packer = _
  rw [if_pos hgroup]

theorem openScope_of_eq (hgroup : packer.levels.group = some item.group) :
    openScope item packer = .ok () packer := by
  change (if packer.levels.group ≠ some item.group then _ else _ :
    EStateM EncodeError Packer Unit) packer = _
  rw [if_neg (not_not_intro hgroup)]
  rfl

theorem openMetric_of_ne (hindex : packer.levels.metric ≠ some item.index) :
    openMetric item packer = (closeTo Level.metric >>= fun _ =>
      onEncoder (beginMetric item.metric) >>= fun _ =>
      onEncoder (beginInstrument item.metric.data) >>= fun _ =>
      modify fun packer => { packer with levels := { packer.levels with metric := item.index } })
        packer := by
  change (if packer.levels.metric ≠ some item.index then _ else _ :
    EStateM EncodeError Packer Unit) packer = _
  rw [if_pos hindex]

theorem openMetric_of_eq (hindex : packer.levels.metric = some item.index) :
    openMetric item packer = .ok () packer := by
  change (if packer.levels.metric ≠ some item.index then _ else _ :
    EStateM EncodeError Packer Unit) packer = _
  rw [if_neg (not_not_intro hindex)]
  rfl

section

variable (hresource : packer.encoder.resource.data.toList =
  encodeAll [RequestFormat.resourceField properties])
include hresource

theorem prepares_openResource (hfollows : Follows packer draft) (hopens : draft.opens = []) :
    Prepares openResource packer (Opening.resource.cost properties)
      (Follows · { draft.add properties .resource with levels := .none }) := by
  have hdepth : draft.opens.length = Opening.resource.depth := by
    rw [hopens]
    rfl
  refine Attempt.of_run_eq (Prepares.bind (prepares_open .resource hresource hfollows hdepth) ?_)
    (openResource_of_depth_eq (hfollows.drafts.depth_eq.trans hdepth)) (Nat.add_zero _)
    (Nat.add_zero _)
  rintro next - hopened
  refine (prepares_modify _ hopened.buffer_valid rfl rfl rfl rfl).imp ?_
  rintro after rfl
  exact hopened.note .none

/-- A scope in the resource, when the messages inside the resource are closed. -/
theorem prepares_openScope (hgroup : packer.levels.group ≠ some item.group)
    (hclosed : Follows { packer with encoder := packer.encoder.closeTo Level.scope } draft)
    (hdepth : draft.opens.length = Level.scope) :
    Prepares (openScope item) packer ((Opening.scope item.scope).cost properties)
      (Follows · { draft.add properties (.scope item.scope) with
        levels := ⟨some item.group, none⟩ }) := by
  refine Attempt.of_run_eq (Prepares.bind (prepares_modify _ hclosed.buffer_valid rfl rfl rfl rfl)
    ?_) (openScope_of_ne hgroup) (Nat.zero_add _) (Nat.zero_add _)
  rintro next - rfl
  -- Only the opening in the middle costs anything.
  refine Attempt.of_run_eq (Prepares.bind (prepares_modify _ hclosed.buffer_valid rfl rfl rfl rfl)
    ?_) rfl (Nat.zero_add _) (Nat.zero_add _)
  rintro next - rfl
  refine Attempt.of_run_eq (Prepares.bind (prepares_open (.scope item.scope) hresource
    (hclosed.note _) hdepth) ?_) rfl (Nat.add_zero _) (Nat.add_zero _)
  rintro next - hopened
  refine (prepares_modify _ hopened.buffer_valid rfl rfl rfl rfl).imp ?_
  rintro after rfl
  have hnoted := hopened.note ⟨some item.group, none⟩
  have hlevels : { next.levels with group := some item.group } =
      (⟨some item.group, none⟩ : OpenLevels) := by
    rw [hopened.levels_eq]
    rfl
  rw [hlevels]
  exact hnoted

/-- A metric and its instrument in the scope, when the messages inside the scope are closed. -/
theorem prepares_openMetric (hindex : packer.levels.metric ≠ some item.index)
    (hclosed : Follows { packer with encoder := packer.encoder.closeTo Level.metric } draft)
    (hdepth : draft.opens.length = Level.metric) :
    Prepares (openMetric item) packer ((Opening.metric item.metric).cost properties +
      (Opening.instrument item.metric.data).cost properties)
      (Follows · { (draft.add properties (.metric item.metric)).add properties
        (.instrument item.metric.data) with
        levels := ⟨packer.levels.group, some item.index⟩ }) := by
  refine Attempt.of_run_eq (Prepares.bind (prepares_modify _ hclosed.buffer_valid rfl rfl rfl rfl)
    ?_) (openMetric_of_ne hindex) (Nat.zero_add _) (Nat.zero_add _)
  rintro next - rfl
  refine Prepares.bind (prepares_open (.metric item.metric) hresource hclosed hdepth) ?_
  rintro next hadvances hmetric
  have hnext := hadvances.toList_resource hresource
  have hinner : (draft.add properties (.metric item.metric)).opens.length = Level.instrument := by
    rw [Draft.add, List.length_append, hdepth]
    rfl
  refine Attempt.of_run_eq (Prepares.bind (prepares_open (.instrument item.metric.data) hnext
    hmetric hinner) ?_) rfl (Nat.add_zero _) (Nat.add_zero _)
  rintro opened - hopened
  refine (prepares_modify _ hopened.buffer_valid rfl rfl rfl rfl).imp ?_
  rintro after rfl
  have hnoted := hopened.note ⟨packer.levels.group, some item.index⟩
  have hlevels : { opened.levels with metric := some item.index } =
      (⟨packer.levels.group, some item.index⟩ : OpenLevels) := by
    rw [hopened.levels_eq, show packer.levels = draft.levels from hclosed.levels_eq]
    rfl
  rw [hlevels]
  exact hnoted

end

/-! ## A point and the messages around it -/

/-- A point behind others of its metric. -/
theorem attempt_point (hfollows : Follows packer draft)
    (hdepth : draft.opens.length = Level.dataPoint)
    (hlevels : packer.levels = ⟨some item.group, some item.index⟩) :
    Attempt (onEncoder (emit item.point)) packer item.point.isValid item.point.cost
      item.point.leading (Rests · (draft.put item)) := by
  refine (attempt_emit item.point hfollows hdepth).imp fun next hrests => ?_
  exact ⟨⟨hrests.drafts, hrests.instrument_eq,
    hrests.levels_eq.trans (hfollows.levels_eq.symm.trans hlevels)⟩, hrests.bytes_eq⟩

section

variable (hresource : packer.encoder.resource.data.toList =
  encodeAll [RequestFormat.resourceField properties])
include hresource

/-- A point of a new metric in the last scope. -/
theorem attempt_metric (hgroup : packer.levels.group = some item.group)
    (hindex : packer.levels.metric ≠ some item.index)
    (hclosed : Follows { packer with encoder := packer.encoder.closeTo Level.metric } draft)
    (hdepth : draft.opens.length = Level.metric) :
    Attempt (openMetric item >>= fun _ => onEncoder (emit item.point)) packer item.point.isValid
      (Opening.totalCost properties (item.openings.drop Level.metric) + item.point.cost)
      (Opening.totalCost properties (item.openings.drop Level.metric) + item.point.leading)
      (Rests · (((item.openings.drop Level.metric).foldl (Draft.add properties) draft).put
        item)) := by
  refine Attempt.of_run_eq ((prepares_openMetric hresource hindex hclosed hdepth).attempt ?_) rfl
    rfl rfl
  rintro next - hopened
  refine (attempt_point hopened ?_ ?_).imp fun _ hnext => hnext
  · change (draft.opens ++ [_] ++ [_]).length = _
    rw [List.length_append, List.length_append, hdepth]
    rfl
  · rw [hopened.levels_eq, hgroup]

/-- A point of a new scope. -/
theorem attempt_scope (hgroup : packer.levels.group ≠ some item.group)
    (hclosed : Follows { packer with encoder := packer.encoder.closeTo Level.scope } draft)
    (hdepth : draft.opens.length = Level.scope) (hinstrument : draft.instrument = none) :
    Attempt (openScope item >>= fun _ => openMetric item >>= fun _ =>
        onEncoder (emit item.point)) packer item.point.isValid
      (Opening.totalCost properties (item.openings.drop Level.scope) + item.point.cost)
      (Opening.totalCost properties (item.openings.drop Level.scope) + item.point.leading)
      (Rests · (((item.openings.drop Level.scope).foldl (Draft.add properties) draft).put
        item)) := by
  have hscope : (draft.add properties (.scope item.scope)).opens.length = Level.metric := by
    rw [Draft.add, List.length_append, hdepth]
    rfl
  refine Attempt.of_run_eq ((prepares_openScope hresource hgroup hclosed hdepth).attempt ?_) rfl
    (Nat.add_assoc _ _ _).symm (Nat.add_assoc _ _ _).symm
  rintro next hadvances hopened
  have hnext := hadvances.toList_resource hresource
  -- The scope is the innermost open message, so that nothing is closed for the metric.
  have hinner := hopened.closeTo (Nat.le_of_eq hscope) (by decide)
  refine (attempt_metric hnext ?_ ?_ hinner hscope).imp fun after hafter => ?_
  · rw [hopened.levels_eq]
  · rw [hopened.levels_eq]
    exact Option.some_ne_none _ ∘ Eq.symm
  · obtain ⟨fields, opens, instrument, levels⟩ := draft
    cases hinstrument
    exact hafter

/-- The first point of a request. -/
theorem attempt_resource (hfollows : Follows packer draft) (hopens : draft.opens = []) :
    Attempt (append item) packer item.point.isValid
      (Opening.totalCost properties item.openings + item.point.cost)
      (Opening.totalCost properties item.openings + item.point.leading)
      (Rests · ((item.openings.foldl (Draft.add properties)
        { draft with instrument := none }).put item)) := by
  have hresourceOpens : (draft.add properties .resource).opens.length = Level.scope := by
    rw [Draft.add, hopens]
    rfl
  refine Attempt.of_run_eq ((prepares_openResource hresource hfollows hopens).attempt ?_) rfl
    (Nat.add_assoc _ _ _).symm (Nat.add_assoc _ _ _).symm
  rintro next hadvances hopened
  have hnext := hadvances.toList_resource hresource
  have hinner := hopened.closeTo (Nat.le_of_eq hresourceOpens) (by decide)
  refine (attempt_scope hnext ?_ hinner hresourceOpens rfl).imp fun _ hafter => hafter
  rw [hopened.levels_eq]
  exact Option.some_ne_none _ ∘ Eq.symm

/-- Between two points, the next one is appended if it has a form and what is missing for
it fits. -/
theorem attempt_append (hrests : Rests packer draft) (hsettled : draft.IsSettled)
    (item : PlacedPoint) :
    Attempt (append item) packer item.point.isValid (draft.cost properties item)
      (draft.leading properties item) (Rests · (draft.append properties item)) := by
  rw [Draft.cost, Draft.leading, Draft.append, Draft.prepare, Draft.missing]
  have hdepth := hsettled.length_opens_closeTo item
  by_cases hopens : draft.opens = []
  · rw [Draft.kept_of_nil hopens]
    refine (attempt_resource hresource hrests.toFollows hopens).imp fun next hnext => ?_
    obtain ⟨fields, opens, instrument, levels⟩ := draft
    cases hopens
    exact hnext
  · have hopen : openResource packer = .ok () packer := by
      apply openResource_of_depth_ne
      rw [hrests.drafts.depth_eq]
      exact fun hzero => hopens (List.eq_nil_of_length_eq_zero hzero)
    by_cases hgroup : draft.levels.group = some item.group
    · have hpacker := hgroup
      rw [← hrests.levels_eq] at hpacker
      by_cases hmetric : draft.levels.metric = some item.index
      · have hfull := hsettled.resolve_left hopens
        have hindex := hmetric
        rw [← hrests.levels_eq] at hindex
        rw [Draft.kept_of_point hopens hgroup hmetric, Draft.closeTo_dataPoint hfull]
        refine (attempt_point hrests.toFollows hfull ?_).of_run_eq ((bind_of_ok hopen).trans
          ((bind_of_ok (openScope_of_eq hpacker)).trans (bind_of_ok (openMetric_of_eq hindex))))
          (Nat.zero_add _).symm (Nat.zero_add _).symm
        rw [← hpacker, ← hindex]
      · rw [Draft.kept_of_metric hopens hgroup hmetric] at hdepth ⊢
        rw [← hrests.levels_eq] at hmetric
        exact (attempt_metric hresource hpacker hmetric (hrests.closeTo _) hdepth).of_run_eq
          ((bind_of_ok hopen).trans (bind_of_ok (openScope_of_eq hpacker))) rfl rfl
    · rw [Draft.kept_of_group hopens hgroup] at hdepth ⊢
      rw [← hrests.levels_eq] at hgroup
      exact (attempt_scope hresource hgroup (hrests.closeTo _) hdepth rfl).of_run_eq
        (bind_of_ok hopen) rfl rfl

end

end Packer

end TelemetryExport
