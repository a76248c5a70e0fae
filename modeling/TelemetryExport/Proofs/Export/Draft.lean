import TelemetryExport.Export.Metrics
import TelemetryExport.Proofs.Metric.Holds

/-! # Drafts of requests

A draft is what a packer is about, without its buffer: the fields written so far, the
messages open at their end, and what is noted of them. Which messages are missing
around a point, what it costs to append the point, and what is then in the draft are
functions of the draft. A draft that is read as a tree is read as the changed tree
after each step.
-/

namespace TelemetryExport

open Encode WrittenField OpenMessage Wire RequestEncoder

/-- The fields of a request, the messages open at their end, the instrument that is open
and the scope group and the metric that are noted as open. -/
structure Draft where
  fields : List WrittenField
  opens : List OpenMessage
  instrument : Option Instrument
  levels : OpenLevels

/-- The length of the header and the first fields of the message that is opened. -/
def Opening.cost (properties : List Attribute) (opening : Opening) : Nat :=
  Slot.messageWidth + (encodeAll (opening.fields properties)).length

/-- The length that messages opened one in the other add. -/
def Opening.totalCost (properties : List Attribute) (openings : List Opening) : Nat :=
  openings.foldr (fun opening total => opening.cost properties + total) 0

/-- The length of a point with its header. -/
def DataPoint.cost (point : DataPoint) : Nat :=
  Slot.messageWidth + (encodeAll point.fields).length

/-- The messages around a point, outermost first. -/
def PlacedPoint.openings (item : PlacedPoint) : List Opening :=
  [.resource, .scope item.scope, .metric item.metric, .instrument item.metric.data]

namespace Draft

/-- The draft of an empty request. -/
def empty : Draft := ⟨[], [], none, .none⟩

/-- What the draft stands for. -/
def bytes (draft : Draft) : List UInt8 := encodeAll (content draft.fields draft.opens)

def closeTo (depth : Nat) (draft : Draft) : Draft where
  fields := (close depth draft.fields draft.opens).1
  opens := (close depth draft.fields draft.opens).2
  instrument := if depth ≤ Level.instrument then none else draft.instrument
  levels := draft.levels

/-- Opens a message in the innermost one. -/
def add (properties : List Attribute) (draft : Draft) (opening : Opening) : Draft :=
  { draft with
    opens := draft.opens ++ [opening.message properties draft.instrument]
    instrument := opening.instrumentAfter draft.instrument }

/-- Puts a point into the innermost message. -/
def emit (point : DataPoint) (draft : Draft) : Draft :=
  { draft with
    fields := (grow [pointField point] draft.fields draft.opens).1
    opens := (grow [pointField point] draft.fields draft.opens).2 }

/-- Puts a point into the innermost message and notes that the messages around it are open. -/
def put (item : PlacedPoint) (draft : Draft) : Draft :=
  { draft.emit item.point with levels := ⟨some item.group, some item.index⟩ }

/-- How many of the open messages stay open for a point. -/
def kept (draft : Draft) (item : PlacedPoint) : Nat :=
  if draft.opens = [] then Level.resource
  else if draft.levels.group ≠ some item.group then Level.scope
  else if draft.levels.metric ≠ some item.index then Level.metric
  else Level.dataPoint

/-- The messages around a point that have to be opened for it, outermost first. -/
def missing (draft : Draft) (item : PlacedPoint) : List Opening :=
  item.openings.drop (draft.kept item)

/-- The draft with the messages around a point open. Those in the places of the missing
ones are closed. -/
def prepare (properties : List Attribute) (draft : Draft) (item : PlacedPoint) : Draft :=
  (draft.missing item).foldl (add properties) (draft.closeTo (draft.kept item))

/-- The draft with a point in it. -/
def append (properties : List Attribute) (draft : Draft) (item : PlacedPoint) : Draft :=
  (draft.prepare properties item).put item

/-- How much longer a point makes the request. -/
def cost (properties : List Attribute) (draft : Draft) (item : PlacedPoint) : Nat :=
  Opening.totalCost properties (draft.missing item) + item.point.cost

/-- How much of a point is written, with what is missing around it, where there is room. -/
def leading (properties : List Attribute) (draft : Draft) (item : PlacedPoint) : Nat :=
  Opening.totalCost properties (draft.missing item) + item.point.leading

theorem leading_of_valid (properties : List Attribute) (draft : Draft) {item : PlacedPoint}
    (hvalid : item.point.isValid = true) :
    draft.leading properties item = draft.cost properties item := by
  rw [leading, DataPoint.leading, if_pos hvalid, cost, DataPoint.cost]

/-! ## Lengths -/

section Lengths

variable (properties : List Attribute)

theorem bytes_closeTo (depth : Nat) (draft : Draft) :
    (draft.closeTo depth).bytes = draft.bytes := by
  rw [bytes, closeTo, content_close, bytes]

theorem length_bytes_add (opening : Opening) (draft : Draft) :
    (draft.add properties opening).bytes.length =
      draft.bytes.length + opening.cost properties := by
  rw [bytes, add, Opening.message, length_content_opened, bytes, Opening.cost]

theorem length_bytes_emit (point : DataPoint) (draft : Draft) :
    (draft.emit point).bytes.length = draft.bytes.length + point.cost := by
  rw [bytes, emit, length_content_grow, length_encodeAll_pointField, bytes, DataPoint.cost]

theorem length_bytes_foldl_add (openings : List Opening) (draft : Draft) :
    (openings.foldl (add properties) draft).bytes.length =
      draft.bytes.length + Opening.totalCost properties openings := by
  induction openings generalizing draft with
  | nil => rfl
  | cons opening rest ih =>
      rw [List.foldl_cons, ih, length_bytes_add, Nat.add_assoc]
      rfl

theorem length_bytes_prepare (draft : Draft) (item : PlacedPoint) :
    (draft.prepare properties item).bytes.length =
      draft.bytes.length + Opening.totalCost properties (draft.missing item) := by
  rw [prepare, length_bytes_foldl_add, bytes_closeTo]

theorem length_bytes_append (draft : Draft) (item : PlacedPoint) :
    (draft.append properties item).bytes.length =
      draft.bytes.length + draft.cost properties item := by
  rw [cost, ← Nat.add_assoc, ← length_bytes_prepare]
  exact length_bytes_emit item.point _

end Lengths

/-! ## Missing messages -/

variable {properties : List Attribute} {draft : Draft} {item : PlacedPoint}

theorem kept_of_nil (hopens : draft.opens = []) : draft.kept item = Level.resource := by
  rw [kept, if_pos hopens]

theorem kept_of_group (hopens : draft.opens ≠ [])
    (hgroup : draft.levels.group ≠ some item.group) : draft.kept item = Level.scope := by
  rw [kept, if_neg hopens, if_pos hgroup]

theorem kept_of_metric (hopens : draft.opens ≠ [])
    (hgroup : draft.levels.group = some item.group)
    (hmetric : draft.levels.metric ≠ some item.index) : draft.kept item = Level.metric := by
  rw [kept, if_neg hopens, if_neg (not_not_intro hgroup), if_pos hmetric]

theorem kept_of_point (hopens : draft.opens ≠ [])
    (hgroup : draft.levels.group = some item.group)
    (hmetric : draft.levels.metric = some item.index) : draft.kept item = Level.dataPoint := by
  rw [kept, if_neg hopens, if_neg (not_not_intro hgroup), if_neg (not_not_intro hmetric)]

theorem kept_cases (draft : Draft) (item : PlacedPoint) :
    draft.kept item = Level.resource ∨ draft.kept item = Level.scope ∨
      draft.kept item = Level.metric ∨ draft.kept item = Level.dataPoint := by
  by_cases hopens : draft.opens = []
  · exact .inl (kept_of_nil hopens)
  · by_cases hgroup : draft.levels.group = some item.group
    · by_cases hmetric : draft.levels.metric = some item.index
      · exact .inr (.inr (.inr (kept_of_point hopens hgroup hmetric)))
      · exact .inr (.inr (.inl (kept_of_metric hopens hgroup hmetric)))
    · exact .inr (.inl (kept_of_group hopens hgroup))

theorem kept_le (draft : Draft) (item : PlacedPoint) : draft.kept item ≤ Level.dataPoint := by
  rcases draft.kept_cases item with hkept | hkept | hkept | hkept <;> rw [hkept] <;> decide

/-- Between two points either nothing is open or everything around the last point is. -/
def IsSettled (draft : Draft) : Prop :=
  draft.opens = [] ∨ draft.opens.length = Level.dataPoint

theorem isSettled_empty : empty.IsSettled := .inl rfl

/-- Everything around a point stays open for a point of the same metric. -/
theorem closeTo_dataPoint (hopens : draft.opens.length = Level.dataPoint) :
    draft.closeTo Level.dataPoint = draft := by
  have hclose := close_of_le draft.fields (Nat.le_of_eq hopens)
  rw [closeTo, hclose]
  rfl

theorem IsSettled.length_opens_closeTo (hsettled : draft.IsSettled) (item : PlacedPoint) :
    (draft.closeTo (draft.kept item)).opens.length = draft.kept item := by
  rw [closeTo, length_close]
  rcases hsettled with hopens | hopens
  · rw [kept_of_nil hopens]
    exact Nat.zero_min _
  · rw [hopens]
    exact Nat.min_eq_left (draft.kept_le item)

/-- The missing messages come at the places that are free. -/
theorem depths_missing (draft : Draft) (item : PlacedPoint) :
    (draft.missing item).map Opening.depth =
      List.range' (draft.kept item) (draft.missing item).length := by
  rw [missing]
  rcases draft.kept_cases item with hkept | hkept | hkept | hkept <;> rw [hkept] <;> rfl

theorem length_opens_foldl_add (openings : List Opening) (draft : Draft) :
    (openings.foldl (add properties) draft).opens.length =
      draft.opens.length + openings.length := by
  induction openings generalizing draft with
  | nil => rfl
  | cons opening rest ih =>
      rw [List.foldl_cons, ih, add, List.length_append, List.length_singleton, List.length_cons]
      omega

theorem IsSettled.length_opens_prepare (hsettled : draft.IsSettled) (item : PlacedPoint) :
    (draft.prepare properties item).opens.length = Level.dataPoint := by
  have hkept := draft.kept_le item
  have hopenings : item.openings.length = Level.dataPoint := rfl
  rw [prepare, length_opens_foldl_add, hsettled.length_opens_closeTo, missing, List.length_drop]
  omega

theorem IsSettled.length_opens_append (hsettled : draft.IsSettled) (item : PlacedPoint) :
    (draft.append properties item).opens.length = Level.dataPoint := by
  rw [← hsettled.length_opens_prepare item]
  exact length_grow _ _ _

theorem IsSettled.append (hsettled : draft.IsSettled) (item : PlacedPoint) :
    (draft.append properties item).IsSettled := by
  exact .inr (hsettled.length_opens_append item)

theorem IsSettled.opens_append_ne_nil (hsettled : draft.IsSettled) (item : PlacedPoint) :
    (draft.append properties item).opens ≠ [] := by
  have hlength : (draft.append properties item).opens.length = Level.dataPoint :=
    hsettled.length_opens_append item
  exact fun hnil => absurd hlength (by rw [hnil]; decide)

/-- Behind a point the instrument of its metric is open. -/
theorem instrument_append (hinstrument : draft.kept item = Level.dataPoint →
      draft.instrument = some (Instrument.ofData item.metric.data)) :
    (draft.append properties item).instrument = some (Instrument.ofData item.metric.data) := by
  change (draft.prepare properties item).instrument = _
  rw [prepare, missing]
  rcases draft.kept_cases item with hkept | hkept | hkept | hkept
  · rw [hkept]
    rfl
  · rw [hkept]
    rfl
  · rw [hkept]
    rfl
  · rw [← hinstrument hkept, hkept]
    rfl

/-! ## Reading -/

/-- The draft is read as the tree. -/
structure Reads (draft : Draft) (tree : Message.Request) : Prop where
  numbers : NumberedFrom draft.instrument 0 draft.opens
  numbered : AllNumberedIn draft.fields draft.opens
  absorbs : absorb Message.Request.field {} (content draft.fields draft.opens) = some tree

variable {tree changed : Message.Request}

theorem reads_empty : empty.Reads {} where
  numbers := trivial
  numbered := ⟨allNumbered_nil, fun _ hmem => absurd hmem List.not_mem_nil⟩
  absorbs := rfl

theorem Reads.closeTo (hreads : draft.Reads tree) (depth : Nat) :
    (draft.closeTo depth).Reads tree where
  numbers := numberedFrom_closed depth draft.fields hreads.numbers
  numbered := hreads.numbered.close depth
  absorbs := by
    rw [Draft.closeTo, content_close]
    exact hreads.absorbs

theorem Reads.add (hreads : draft.Reads tree) {opening : Opening}
    (hdepth : draft.opens.length = opening.depth)
    (hlength : (draft.add properties opening).bytes.length ≤ maxPayloadSize)
    (hchange : opening.change properties tree = some changed) :
    (draft.add properties opening).Reads changed where
  numbers := by
    have hle := opening.depth_le
    have hnumbers := numberedFrom_opened (opening.fields properties)
      (numberedFrom_congr (opening.instrumentAfter draft.instrument) (by omega) hreads.numbers)
    rw [Nat.zero_add, hdepth] at hnumbers
    exact hnumbers
  numbered := hreads.numbered.opened (opening.allNumbered_fields properties)
    (opening.numbered_message properties draft.instrument)
  absorbs := (opening.grows hreads.numbered hreads.numbers hdepth hlength).absorbs _ _ _
    hreads.absorbs hchange

theorem Reads.foldl_add {openings : List Opening} (hreads : draft.Reads tree)
    (hdepths : openings.map Opening.depth =
      List.range' draft.opens.length openings.length)
    (hlength : (openings.foldl (Draft.add properties) draft).bytes.length ≤ maxPayloadSize)
    (hchange : openings.foldlM (fun tree opening => opening.change properties tree) tree =
      some changed) :
    (openings.foldl (Draft.add properties) draft).Reads changed := by
  induction openings generalizing draft tree with
  | nil =>
      cases hchange
      exact hreads
  | cons opening rest ih =>
      rw [List.foldlM_cons, Option.bind_eq_bind, Option.bind_eq_some_iff] at hchange
      obtain ⟨middle, hmiddle, hrest⟩ := hchange
      rw [List.map_cons, List.length_cons, List.range'_succ, List.cons.injEq] at hdepths
      have hlonger := length_bytes_foldl_add properties rest (draft.add properties opening)
      rw [List.foldl_cons] at hlength ⊢
      refine ih (hreads.add hdepths.1.symm (by omega) hmiddle) ?_ hlength hrest
      rw [hdepths.2, Draft.add, List.length_append, List.length_singleton]

theorem Reads.emit (hreads : draft.Reads tree) {kind : Instrument} {point : DataPoint}
    (hkind : draft.instrument = some kind) (hdepth : draft.opens.length = Level.dataPoint)
    (hlength : (draft.emit point).bytes.length ≤ maxPayloadSize)
    (hchange : Message.Request.addPoint point tree = some changed) :
    (draft.emit point).Reads changed where
  numbers := numberedFrom_grow _ hreads.numbers
  numbered := hreads.numbered.grow (allNumbered_singleton (numbered_of_check rfl))
  absorbs := by
    obtain ⟨fields, opens, instrument, levels⟩ := draft
    have hnumbers := hreads.numbers
    rw [hkind] at hnumbers
    match opens, hdepth with
    | [resource, scope, metric, data], _ =>
        exact (Message.grows_emit kind point hreads.numbered hnumbers hlength).absorbs _ _ _
          hreads.absorbs hchange

/-- A point changes the tree like its missing messages and the point itself do one after
the other. -/
theorem Reads.append (hreads : draft.Reads tree) (hsettled : draft.IsSettled)
    (hinstrument : draft.kept item = Level.dataPoint →
      draft.instrument = some (Instrument.ofData item.metric.data))
    (hlength : (draft.append properties item).bytes.length ≤ maxPayloadSize)
    {opened : Message.Request}
    (hopened : (draft.missing item).foldlM (fun tree opening => opening.change properties tree)
      tree = some opened)
    (hchange : Message.Request.addPoint item.point opened = some changed) :
    (draft.append properties item).Reads changed := by
  have hlonger := length_bytes_emit item.point (draft.prepare properties item)
  have hemitted : ((draft.prepare properties item).emit item.point).bytes.length ≤
      maxPayloadSize := hlength
  have hprepared : (draft.prepare properties item).Reads opened := by
    refine (hreads.closeTo _).foldl_add ?_ ?_ hopened
    · rw [hsettled.length_opens_closeTo]
      exact draft.depths_missing item
    · change (draft.prepare properties item).bytes.length ≤ maxPayloadSize
      omega
  have hread := hprepared.emit (instrument_append hinstrument)
    (hsettled.length_opens_prepare item) hemitted hchange
  exact ⟨hread.numbers, hread.numbered, hread.absorbs⟩

end Draft

end TelemetryExport
