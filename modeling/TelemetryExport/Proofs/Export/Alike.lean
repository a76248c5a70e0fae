import TelemetryExport.Proofs.Export.Appending
import TelemetryExport.Proofs.Metric.Aligned

/-! # Packers that cannot be told apart

A refused point leaves bytes behind in the storage, past the cursor. Packers that
differ in such bytes only are alike: what is written next is written to both or to
neither, with the same fault, and leaves them alike. That the two take the same way
follows from the operations, which never read the storage; that the same bytes lie
before the cursor afterwards follows from the draft on which both rest.
-/

namespace TelemetryExport

open WrittenField OpenMessage RequestEncoder

namespace Packer

/-- The packers differ at most in what their storages hold. -/
structure Aligned (packer other : Packer) : Prop where
  encoder_aligned : packer.encoder.Aligned other.encoder
  levels_eq : other.levels = packer.levels
  points_eq : other.points = packer.points
  tally_eq : other.tally = packer.tally

/-- The packers differ at most in what their storages hold behind the cursor. -/
structure Alike (packer other : Packer) : Prop where
  /-- The bytes of the request, up to the cursor. -/
  payload_eq : other.encoder.payload = packer.encoder.payload
  cursor_eq : other.encoder.buffer.cursor = packer.encoder.buffer.cursor
  capacity_eq : other.encoder.buffer.capacity = packer.encoder.buffer.capacity
  resource_eq : other.encoder.resource = packer.encoder.resource
  /-- The stack of reserved headers, with what its unused places hold. -/
  headers_eq : other.encoder.levels = packer.encoder.levels
  instrument_eq : other.encoder.instrument = packer.encoder.instrument
  /-- The scope group and the metric that are noted as open. -/
  levels_eq : other.levels = packer.levels
  points_eq : other.points = packer.points
  tally_eq : other.tally = packer.tally

variable {packer other : Packer} {draft : Draft} {properties : List Attribute}

theorem Alike.refl (packer : Packer) : Alike packer packer := by
  constructor <;> rfl

theorem Alike.trans {third : Packer} (hfirst : Alike packer other) (hsecond : Alike other third) :
    Alike packer third where
  payload_eq := hsecond.payload_eq.trans hfirst.payload_eq
  cursor_eq := hsecond.cursor_eq.trans hfirst.cursor_eq
  capacity_eq := hsecond.capacity_eq.trans hfirst.capacity_eq
  resource_eq := hsecond.resource_eq.trans hfirst.resource_eq
  headers_eq := hsecond.headers_eq.trans hfirst.headers_eq
  instrument_eq := hsecond.instrument_eq.trans hfirst.instrument_eq
  levels_eq := hsecond.levels_eq.trans hfirst.levels_eq
  points_eq := hsecond.points_eq.trans hfirst.points_eq
  tally_eq := hsecond.tally_eq.trans hfirst.tally_eq

theorem Alike.symm (halike : Alike packer other) : Alike other packer where
  payload_eq := halike.payload_eq.symm
  cursor_eq := halike.cursor_eq.symm
  capacity_eq := halike.capacity_eq.symm
  resource_eq := halike.resource_eq.symm
  headers_eq := halike.headers_eq.symm
  instrument_eq := halike.instrument_eq.symm
  levels_eq := halike.levels_eq.symm
  points_eq := halike.points_eq.symm
  tally_eq := halike.tally_eq.symm

theorem Alike.aligned (halike : Alike packer other) : Aligned packer other where
  encoder_aligned := ⟨⟨halike.cursor_eq, halike.capacity_eq⟩, halike.resource_eq,
    halike.headers_eq, halike.instrument_eq⟩
  levels_eq := halike.levels_eq
  points_eq := halike.points_eq
  tally_eq := halike.tally_eq

theorem Alike.bytes_eq (halike : Alike packer other) :
    other.encoder.buffer.bytes = packer.encoder.buffer.bytes := by
  rw [← Buffer.toList_written, ← Buffer.toList_written]
  exact congrArg (·.data.toList) halike.payload_eq

theorem Aligned.alike (haligned : Aligned packer other)
    (hbytes : other.encoder.buffer.bytes = packer.encoder.buffer.bytes) :
    Alike packer other where
  payload_eq := by
    rw [← Buffer.toList_written, ← Buffer.toList_written] at hbytes
    exact ByteArray.ext (Array.toList_inj.mp hbytes)
  cursor_eq := haligned.encoder_aligned.buffer_aligned.cursor_eq
  capacity_eq := haligned.encoder_aligned.buffer_aligned.capacity_eq
  resource_eq := haligned.encoder_aligned.resource_eq
  headers_eq := haligned.encoder_aligned.levels_eq
  instrument_eq := haligned.encoder_aligned.instrument_eq
  levels_eq := haligned.levels_eq
  points_eq := haligned.points_eq
  tally_eq := haligned.tally_eq

/-! ## The same way through a write -/

theorem respects_onEncoder {α : Type} {action : EncodeRequest α}
    (haction : Respects RequestEncoder.Aligned action) : Respects Aligned (onEncoder action) := by
  rintro ⟨encoder, _, _, _⟩ ⟨second, levels, points, tally⟩ ⟨hencoder, rfl, rfl, rfl⟩
  have hrelated := haction encoder second hencoder
  simp only [onEncoder]
  generalize action encoder = first at hrelated ⊢
  generalize action second = outcome at hrelated ⊢
  cases hrelated with
  | ok result hencoders => exact .ok result ⟨hencoders, rfl, rfl, rfl⟩
  | error fault hencoders => exact .error fault ⟨hencoders, rfl, rfl, rfl⟩

theorem respects_closeTo (depth : Nat) : Respects Aligned (Packer.closeTo depth) :=
  respects_modify fun _ _ haligned => ⟨haligned.encoder_aligned.closeTo depth,
    haligned.levels_eq, haligned.points_eq, haligned.tally_eq⟩

/-- Changing what is noted as open. -/
theorem respects_note (change : OpenLevels → OpenLevels) :
    Respects Aligned (modify fun packer => { packer with levels := change packer.levels } :
      EStateM EncodeError Packer Unit) :=
  respects_modify fun _ _ haligned => ⟨haligned.encoder_aligned,
    congrArg change haligned.levels_eq, haligned.points_eq, haligned.tally_eq⟩

theorem respects_openResource : Respects Aligned openResource := by
  intro packer other haligned
  have hdepth : other.encoder.depth = packer.encoder.depth :=
    congrArg (·.depth) haligned.encoder_aligned.levels_eq
  by_cases hzero : packer.encoder.depth = 0
  · rw [openResource_of_depth_eq hzero, openResource_of_depth_eq (hdepth.trans hzero)]
    exact (respects_onEncoder respects_beginResource).seq (respects_note fun _ => .none) _ _
      haligned
  · rw [openResource_of_depth_ne hzero, openResource_of_depth_ne (by rw [hdepth]; exact hzero)]
    exact .ok () haligned

theorem respects_openScope (item : PlacedPoint) : Respects Aligned (openScope item) := by
  intro packer other haligned
  have hlevels := haligned.levels_eq
  by_cases hgroup : packer.levels.group = some item.group
  · rw [openScope_of_eq hgroup, openScope_of_eq (by rw [hlevels]; exact hgroup)]
    exact .ok () haligned
  · rw [openScope_of_ne hgroup, openScope_of_ne (by rw [hlevels]; exact hgroup)]
    exact (respects_closeTo _).seq ((respects_note fun levels => { levels with metric := none }).seq
      ((respects_onEncoder (respects_beginScope _)).seq
        (respects_note fun levels => { levels with group := item.group }))) _ _ haligned

theorem respects_openMetric (item : PlacedPoint) : Respects Aligned (openMetric item) := by
  intro packer other haligned
  have hlevels := haligned.levels_eq
  by_cases hindex : packer.levels.metric = some item.index
  · rw [openMetric_of_eq hindex, openMetric_of_eq (by rw [hlevels]; exact hindex)]
    exact .ok () haligned
  · rw [openMetric_of_ne hindex, openMetric_of_ne (by rw [hlevels]; exact hindex)]
    exact (respects_closeTo _).seq ((respects_onEncoder (respects_beginMetric _)).seq
      ((respects_onEncoder (respects_beginInstrument _)).seq
        (respects_note fun levels => { levels with metric := item.index }))) _ _ haligned

theorem respects_append (item : PlacedPoint) : Respects Aligned (append item) :=
  respects_openResource.seq ((respects_openScope item).seq ((respects_openMetric item).seq
    (respects_onEncoder (respects_emit item.point))))

theorem respects_tryWrite (item : PlacedPoint) : Respects Aligned (tryWrite item) := by
  intro packer other haligned
  have hrelated := respects_append item packer other haligned
  obtain ⟨hencoder, hlevels, -, -⟩ := haligned
  simp only [tryWrite]
  generalize append item packer = first at hrelated ⊢
  generalize append item other = second at hrelated ⊢
  cases hrelated with
  | ok result hpackers =>
      exact .ok () ⟨hpackers.encoder_aligned, hpackers.levels_eq,
        congrArg (· + 1) hpackers.points_eq, hpackers.tally_eq⟩
  | error fault hpackers =>
      -- Both are taken back, each to where it was itself.
      refine .error fault ⟨⟨⟨?_, ?_⟩, ?_, ?_, ?_⟩, hlevels, hpackers.points_eq, hpackers.tally_eq⟩
      · exact hencoder.buffer_aligned.cursor_eq
      · exact hpackers.encoder_aligned.buffer_aligned.capacity_eq
      · exact hpackers.encoder_aligned.resource_eq
      · exact hencoder.levels_eq
      · exact hencoder.instrument_eq

/-! ## One write -/

/-- The tally and the count of points are no part of the request. -/
theorem Rests.counted (hrests : Rests packer draft) (points : Nat) (tally : Tally) :
    Rests { packer with points, tally } draft :=
  ⟨⟨hrests.drafts, hrests.instrument_eq, hrests.levels_eq⟩, hrests.bytes_eq⟩

theorem Rests.of_alike (hrests : Rests packer draft) (halike : Alike packer other) :
    Rests other draft where
  drafts := by
    have hbytes := halike.bytes_eq
    obtain ⟨⟨hcursor, hcapacity⟩, hlaid, hslots, hnumbers⟩ := hrests.drafts
    refine ⟨⟨?_, ?_⟩, ?_, ?_, ?_⟩
    · rw [halike.cursor_eq, halike.capacity_eq]
      exact hcursor
    · rw [halike.capacity_eq]
      exact hcapacity
    · rw [hbytes]
      exact hlaid
    · rw [halike.headers_eq]
      exact hslots
    · rw [halike.instrument_eq]
      exact hnumbers
  instrument_eq := halike.instrument_eq.trans hrests.instrument_eq
  levels_eq := halike.levels_eq.trans hrests.levels_eq
  bytes_eq := halike.bytes_eq.trans hrests.bytes_eq

section

variable (hresource : packer.encoder.resource.data.toList =
  encodeAll [RequestFormat.resourceField properties])
  (hrests : Rests packer draft) (hsettled : draft.IsSettled)
include hresource hrests hsettled

/-- A point that has a form and fits is written. -/
theorem tryWrite_of_le (item : PlacedPoint) (hvalid : item.point.isValid = true)
    (hroom : packer.encoder.buffer.cursor + draft.cost properties item ≤
      packer.encoder.buffer.capacity) :
    ∃ next, tryWrite item packer = .ok () next ∧ Rests next (draft.append properties item) ∧
      next.encoder.resource = packer.encoder.resource ∧
      next.encoder.buffer.capacity = packer.encoder.buffer.capacity ∧
      next.points = packer.points + 1 ∧ next.tally = packer.tally := by
  obtain ⟨next, hrun, hadvances, hnext⟩ :=
    (attempt_append hresource hrests hsettled item).of_le hvalid hroom
  refine ⟨{ next with points := next.points + 1 }, ?_, hnext.counted _ _, hadvances.resource_eq,
    hadvances.capacity_eq, congrArg (· + 1) hadvances.points_eq, hadvances.tally_eq⟩
  simp only [tryWrite, hrun]

/-- A point that has no form or does not fit is refused, and what is left cannot be told
from what was there before. -/
theorem tryWrite_of_lt (item : PlacedPoint) (hunfit : item.point.isValid = true →
      packer.encoder.buffer.capacity <
        packer.encoder.buffer.cursor + draft.cost properties item) :
    ∃ fault left, tryWrite item packer = .error fault left ∧ Alike packer left ∧
      (fault.isOverflow = true ↔ packer.encoder.buffer.capacity <
        packer.encoder.buffer.cursor + draft.leading properties item) := by
  obtain ⟨fault, left, hrun, hkeeps, hoverflow⟩ :=
    (attempt_append hresource hrests hsettled item).of_lt hunfit
  have haligned : Aligned packer { left with
      encoder := left.encoder.rewind packer.encoder.checkpoint, levels := packer.levels } :=
    ⟨⟨⟨rfl, hkeeps.encoder_keeps.extends_buffer.capacity_eq⟩, hkeeps.encoder_keeps.resource_eq,
      rfl, rfl⟩, rfl, hkeeps.points_eq, hkeeps.tally_eq⟩
  refine ⟨fault, _, ?_, haligned.alike hkeeps.encoder_keeps.extends_buffer.bytes_rewind,
    hoverflow⟩
  simp only [tryWrite, hrun]

end

end Packer

end TelemetryExport
