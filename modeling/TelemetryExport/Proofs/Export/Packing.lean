import TelemetryExport.Proofs.Export.Alike
import TelemetryExport.Proofs.Export.Run

/-! # Packing a run into a request

A packer between two points packs a run: it rests on the draft of the run, and a
rejected point leaves it there. The draft of a run is read as the request of the run.
Whether a point is accepted into an empty request depends on the point and on the
capacity only, and no point that is refused there is accepted anywhere else.
-/

namespace TelemetryExport

open WrittenField RequestEncoder
open Encode (bind_of_ok)

namespace PlacedPoint

/-- The length of the messages around a point, as far as they come before it. -/
def openLength (properties : List Attribute) (item : PlacedPoint) : Nat :=
  Opening.resource.cost properties + ((Opening.scope item.scope).cost properties +
    ((Opening.metric item.metric).cost properties +
      (Opening.instrument item.metric.data).cost properties))

/-- Whether the point has a form in the schema and a request that carries nothing else
is within the capacity. -/
def fits (properties : List Attribute) (capacity : Nat) (item : PlacedPoint) : Bool :=
  item.point.isValid && item.openLength properties + item.point.cost ≤ capacity

theorem fits_iff {properties : List Attribute} {capacity : Nat} {item : PlacedPoint} :
    item.fits properties capacity = true ↔ item.point.isValid = true ∧
      item.openLength properties + item.point.cost ≤ capacity := by
  rw [fits, Bool.and_eq_true, decide_eq_true_eq]

end PlacedPoint

/-! ## The draft of a run -/

namespace Message.Request

variable (properties : List Attribute) (closed : List PlacedPoint) (metrics : List Metric)
  (item : PlacedPoint)

/-- What openings do to a tree, one after the other. -/
def openAll (openings : List Opening) (tree : Request) : Option Request :=
  openings.foldlM (fun tree opening => opening.change properties tree) tree

theorem openAll_cons (opening : Opening) {tree changed : Request} (rest : List Opening)
    (hchange : opening.change properties tree = some changed) :
    openAll properties (opening :: rest) tree = openAll properties rest changed := by
  rw [openAll, List.foldlM_cons, hchange]
  rfl

/-- A metric and its instrument come behind the metrics of the last scope. -/
theorem openAll_metric :
    openAll properties (item.openings.drop Level.metric)
        (ofEdge properties closed item.scope metrics) =
      some (ofEdge properties closed item.scope
        (metrics ++ [Metric.ofPoints item.metric []])) :=
  (openAll_cons properties (.metric item.metric) _
    (addMetric_ofEdge properties closed metrics _ _)).trans
    (openAll_cons properties (.instrument item.metric.data) _
      (addInstrument_ofEdge properties closed metrics _ _))

/-- A scope comes behind the scopes of the points that are already there. -/
theorem openAll_scope :
    openAll properties (item.openings.drop Level.scope) (ofRun properties closed) =
      some (ofEdge properties closed item.scope ([] ++ [Metric.ofPoints item.metric []])) :=
  (openAll_cons properties (.scope item.scope) _ (addScope_ofRun properties closed _)).trans
    (openAll_metric properties closed [] item)

theorem openAll_resource :
    openAll properties item.openings {} =
      some (ofEdge properties [] item.scope ([] ++ [Metric.ofPoints item.metric []])) :=
  (openAll_cons properties .resource _ (addResource_empty properties)).trans
    (openAll_scope properties [] item)

end Message.Request

namespace Draft

variable {properties : List Attribute} {run : List PlacedPoint} {item last : PlacedPoint}

/-- The draft of a request that carries a run. -/
def ofRun (properties : List Attribute) (run : List PlacedPoint) : Draft :=
  run.foldl (append properties) empty

theorem ofRun_concat (properties : List Attribute) (run : List PlacedPoint) (item : PlacedPoint) :
    ofRun properties (run ++ [item]) = (ofRun properties run).append properties item := by
  rw [ofRun, List.foldl_append, ofRun]
  rfl

theorem isSettled_ofRun (properties : List Attribute) (run : List PlacedPoint) :
    (ofRun properties run).IsSettled := by
  induction run using List.reverseRecOn with
  | nil => exact isSettled_empty
  | append_singleton run item ih =>
      rw [ofRun_concat]
      exact ih.append item

theorem opens_ofRun_concat_ne_nil (properties : List Attribute) (run : List PlacedPoint)
    (item : PlacedPoint) : (ofRun properties (run ++ [item])).opens ≠ [] := by
  rw [ofRun_concat]
  exact (isSettled_ofRun properties run).opens_append_ne_nil item

/-! How many messages stay open behind the last point of a run. -/

theorem kept_of_before_group (properties : List Attribute) (run : List PlacedPoint)
    (hgroup : last.group < item.group) :
    (ofRun properties (run ++ [last])).kept item = Level.scope := by
  refine kept_of_group (opens_ofRun_concat_ne_nil _ _ _) ?_
  rw [ofRun_concat]
  exact fun heq => Nat.ne_of_lt hgroup (Option.some.inj heq)

theorem kept_of_before_metric (properties : List Attribute) (run : List PlacedPoint)
    (hgroup : last.group = item.group) (hindex : last.index < item.index) :
    (ofRun properties (run ++ [last])).kept item = Level.metric := by
  refine kept_of_metric (opens_ofRun_concat_ne_nil _ _ _) ?_ ?_
  · rw [ofRun_concat]
    exact congrArg some hgroup
  · rw [ofRun_concat]
    exact fun heq => Nat.ne_of_lt hindex (Option.some.inj heq)

theorem kept_of_before_point (properties : List Attribute) (run : List PlacedPoint)
    (hgroup : last.group = item.group) (hindex : last.index = item.index) :
    (ofRun properties (run ++ [last])).kept item = Level.dataPoint := by
  refine kept_of_point (opens_ofRun_concat_ne_nil _ _ _) ?_ ?_
  · rw [ofRun_concat]
    exact congrArg some hgroup
  · rw [ofRun_concat]
    exact congrArg some hindex

/-- The first point of a request costs what a request with the point alone is long. -/
theorem cost_empty (properties : List Attribute) (item : PlacedPoint) :
    empty.cost properties item = item.openLength properties + item.point.cost := by
  rw [cost, missing, kept_of_nil rfl, PlacedPoint.openLength]
  rfl

/-- No point comes cheaper by what comes before it: a request that ends in the point is
no shorter than one that carries the point alone. -/
theorem openLength_le_ofRun (properties : List Attribute)
    (hsorted : (run ++ [item]).Pairwise PlacedPoint.Before) :
    item.openLength properties + item.point.cost ≤
      (ofRun properties (run ++ [item])).bytes.length := by
  induction run using List.reverseRecOn generalizing item with
  | nil =>
      rw [ofRun_concat, length_bytes_append]
      exact Nat.le_trans (Nat.le_of_eq (cost_empty properties item).symm) (Nat.le_add_left _ _)
  | append_singleton run last ih =>
      obtain ⟨hearlier, -, hbefore⟩ := List.pairwise_append.mp hsorted
      have hlast := ih hearlier
      have hnext := hbefore last (List.mem_append_right _ (List.mem_singleton.mpr rfl)) item
        (List.mem_singleton.mpr rfl)
      rw [ofRun_concat, length_bytes_append, cost, missing]
      -- What the point does not pay for was paid for the last one.
      cases hnext with
      | group hgroup =>
          rw [kept_of_before_group _ _ hgroup]
          rw [PlacedPoint.openLength] at hlast ⊢
          change _ ≤ _ + ((Opening.scope item.scope).cost properties +
            ((Opening.metric item.metric).cost properties +
              ((Opening.instrument item.metric.data).cost properties + 0)) + item.point.cost)
          omega
      | metric hgroup hscope hindex =>
          rw [kept_of_before_metric _ _ hgroup hindex]
          rw [PlacedPoint.openLength] at hlast ⊢
          rw [hscope] at hlast
          change _ ≤ _ + ((Opening.metric item.metric).cost properties +
            ((Opening.instrument item.metric.data).cost properties + 0) + item.point.cost)
          omega
      | point hgroup hscope hindex hmetric =>
          rw [kept_of_before_point _ _ hgroup hindex]
          rw [PlacedPoint.openLength] at hlast ⊢
          rw [hscope, hmetric] at hlast
          change _ ≤ _ + (0 + item.point.cost)
          omega

theorem instrument_ofRun (properties : List Attribute)
    (hsorted : (run ++ [item]).Pairwise PlacedPoint.Before) :
    (ofRun properties (run ++ [item])).instrument =
      some (Instrument.ofData item.metric.data) := by
  induction run using List.reverseRecOn generalizing item with
  | nil =>
      refine instrument_append fun hkept => ?_
      rw [kept_of_nil rfl] at hkept
      exact absurd hkept (by decide)
  | append_singleton run last ih =>
      obtain ⟨hearlier, -, hbefore⟩ := List.pairwise_append.mp hsorted
      rw [ofRun_concat]
      refine instrument_append fun hkept => ?_
      -- Only a point of the same metric finds the instrument open.
      cases hbefore last (List.mem_append_right _ (List.mem_singleton.mpr rfl)) item
          (List.mem_singleton.mpr rfl) with
      | group hgroup =>
          rw [kept_of_before_group _ _ hgroup] at hkept
          exact absurd hkept (by decide)
      | metric hgroup hscope hindex =>
          rw [kept_of_before_metric _ _ hgroup hindex] at hkept
          exact absurd hkept (by decide)
      | point hgroup hscope hindex hmetric => rw [ih hearlier, hmetric]

/-- The draft of a run is read as the request of the run. -/
theorem reads_ofRun (hsorted : (run ++ [item]).Pairwise PlacedPoint.Before)
    (hpoints : ∀ other ∈ run ++ [item], other.point ∈ other.metric.data.points)
    (hlength : (ofRun properties (run ++ [item])).bytes.length ≤ maxPayloadSize) :
    (ofRun properties (run ++ [item])).Reads
      (Message.Request.ofRun properties (run ++ [item])) := by
  have hpoint := hpoints item (List.mem_append_right _ (List.mem_singleton.mpr rfl))
  have hinstrument := instrument_ofRun properties hsorted
  induction run using List.reverseRecOn generalizing item with
  | nil =>
      rw [(EndsIn.first item).ofRun_eq]
      refine reads_empty.append isSettled_empty (fun hkept => ?_) hlength
        (Message.Request.openAll_resource properties item)
        (Message.Request.addPoint_ofEdge properties [] [] item.scope hpoint [])
      rw [kept_of_nil rfl] at hkept
      exact absurd hkept (by decide)
  | append_singleton run last ih =>
      obtain ⟨hearlier, -, hbefore⟩ := List.pairwise_append.mp hsorted
      have hlast := hpoints last (List.mem_append_left _ (List.mem_append_right _
        (List.mem_singleton.mpr rfl)))
      rw [ofRun_concat] at hlength ⊢
      have hlonger := length_bytes_append properties
        (ofRun properties (run ++ [last])) item
      have hreads := ih hearlier (fun other hmem => hpoints other (List.mem_append_left _ hmem))
        (by omega) hlast (instrument_ofRun properties hearlier)
      obtain ⟨closed, done, current, hends⟩ := PlacedPoint.exists_endsIn hearlier
      have hsettled := isSettled_ofRun properties (run ++ [last])
      -- Which messages are missing depends on how the point follows the last one.
      cases hbefore last (List.mem_append_right _ (List.mem_singleton.mpr rfl)) item
          (List.mem_singleton.mpr rfl) with
      | group hgroup =>
          have hkept := kept_of_before_group properties run hgroup
          rw [(hends.newGroup hgroup).ofRun_eq]
          refine hreads.append hsettled (fun hall => ?_) hlength ?_
            (Message.Request.addPoint_ofEdge properties _ [] item.scope hpoint [])
          · rw [hkept] at hall
            exact absurd hall (by decide)
          · rw [missing, hkept]
            exact Message.Request.openAll_scope properties _ item
      | metric hgroup hscope hindex =>
          have hkept := kept_of_before_metric properties run hgroup hindex
          have hkey : last.scopeKey = item.scopeKey := Prod.ext hgroup hscope
          rw [hends.ofRun_eq, ← hends.metricsOf_eq, hscope] at hreads
          rw [(hends.newMetric hkey hindex).ofRun_eq]
          refine hreads.append hsettled (fun hall => ?_) hlength ?_
            (Message.Request.addPoint_ofEdge properties closed _ item.scope hpoint [])
          · rw [hkept] at hall
            exact absurd hall (by decide)
          · rw [missing, hkept]
            exact Message.Request.openAll_metric properties closed _ item
      | point hgroup hscope hindex hmetric =>
          have hkept := kept_of_before_point properties run hgroup hindex
          have hkey : last.scopeKey = item.scopeKey := Prod.ext hgroup hscope
          have hmetricKey : last.metricKey = item.metricKey := Prod.ext hindex hmetric
          rw [hends.ofRun_eq, hscope, hmetric] at hreads
          rw [(hends.newPoint hkey hmetricKey).ofRun_eq, List.map_append]
          refine hreads.append hsettled (fun _ => ?_) hlength ?_
            (Message.Request.addPoint_ofEdge properties closed _ item.scope hpoint _)
          · rw [instrument_ofRun properties hearlier, hmetric]
          · rw [missing, hkept]
            rfl

end Draft

namespace Packer

/-- The request of the packer is that of the run. -/
structure Packs (properties : List Attribute) (capacity : Nat) (packer : Packer)
    (run : List PlacedPoint) : Prop where
  resource_eq : packer.encoder.resource.data.toList =
    encodeAll [RequestFormat.resourceField properties]
  capacity_eq : packer.encoder.buffer.capacity = capacity
  points_eq : packer.points = run.length
  sorted : run.Pairwise PlacedPoint.Before
  rests : Rests packer (Draft.ofRun properties run)

variable {properties : List Attribute} {capacity : Nat} {packer : Packer}
  {run : List PlacedPoint} {item : PlacedPoint}

/-- A packer with nothing in its request. -/
theorem rests_empty (encoder : RequestEncoder) (hcursor : encoder.buffer.cursor = 0)
    (hlevels : encoder.levels.toList = []) (hinstrument : encoder.instrument = none)
    (hcapacity : encoder.buffer.capacity ≤ maxPayloadSize) (points : Nat) (tally : Tally) :
    Rests ⟨encoder, .none, points, tally⟩ Draft.empty := by
  obtain ⟨-, hcompletes⟩ := completes_of_start hcursor hlevels hcapacity
  exact ⟨⟨hcompletes.toDrafts, hinstrument, rfl⟩, hcompletes.bytes_eq⟩

theorem rests_start (format : RequestFormat) {buffer : Buffer}
    (hcapacity : buffer.capacity ≤ maxPayloadSize) (total : Nat) :
    Rests (start format buffer total) Draft.empty :=
  rests_empty (format.start buffer) rfl rfl rfl hcapacity 0 _

theorem rests_restart (hcapacity : packer.encoder.buffer.capacity ≤ maxPayloadSize) :
    Rests packer.restart Draft.empty :=
  rests_empty packer.encoder.reset rfl packer.encoder.levels.toList_clear rfl hcapacity 0 _

theorem packs_start {format : RequestFormat} (hformat : RequestFormat.make properties = .ok format)
    {buffer : Buffer} (hcapacity : buffer.capacity ≤ maxPayloadSize) (total : Nat) :
    Packs properties buffer.capacity (start format buffer total) [] where
  resource_eq := RequestFormat.toList_resource_of_make hformat
  capacity_eq := rfl
  points_eq := rfl
  sorted := List.Pairwise.nil
  rests := rests_start format hcapacity total

theorem Packs.valid (hpacks : Packs properties capacity packer run) :
    packer.encoder.buffer.Valid :=
  hpacks.rests.buffer_valid

theorem Packs.length_bytes_le (hpacks : Packs properties capacity packer run) :
    (Draft.ofRun properties run).bytes.length ≤ capacity := by
  rw [← hpacks.rests.cursor_eq, ← hpacks.capacity_eq]
  exact hpacks.valid.cursor_le

theorem Packs.counted (hpacks : Packs properties capacity packer run) (tally : Tally) :
    Packs properties capacity { packer with tally } run :=
  ⟨hpacks.resource_eq, hpacks.capacity_eq, hpacks.points_eq, hpacks.sorted,
    hpacks.rests.counted _ tally⟩

theorem Packs.restart (hpacks : Packs properties capacity packer run) (tally : Tally) :
    Packs properties capacity { packer with tally }.restart [] where
  resource_eq := hpacks.resource_eq
  capacity_eq := hpacks.capacity_eq
  points_eq := rfl
  sorted := List.Pairwise.nil
  rests := rests_restart hpacks.valid.capacity_le

/-- A request that carries a point is read as the request of its run. -/
theorem Packs.presents (hpacks : Packs properties capacity packer run) (hne : run ≠ [])
    (hpoints : ∀ item ∈ run, item.point ∈ item.metric.data.points) :
    Presents packer.encoder (Message.Request.ofRun properties run) := by
  have hrests := hpacks.rests
  have hsorted := hpacks.sorted
  obtain ⟨before, last, rfl⟩ := (List.eq_nil_or_concat run).resolve_left hne
  rw [List.concat_eq_append] at hrests hsorted hpoints ⊢
  have hreads := Draft.reads_ofRun hsorted hpoints hrests.length_bytes_le
  exact ⟨_, _, ⟨hrests.drafts, hreads.numbered, hreads.absorbs⟩, hrests.completes⟩

/-! ## Writing -/

theorem Packs.of_alike (hpacks : Packs properties capacity packer run) {other : Packer}
    (halike : Alike packer other) : Packs properties capacity other run where
  resource_eq := by
    rw [halike.resource_eq]
    exact hpacks.resource_eq
  capacity_eq := halike.capacity_eq.trans hpacks.capacity_eq
  points_eq := halike.points_eq.trans hpacks.points_eq
  sorted := hpacks.sorted
  rests := hpacks.rests.of_alike halike

/-- A point is written, and then it fits alone and behind the run, or it is not, and then
the request is as it was. It is refused of overflow just if there is no room for what is
written of it, and a point that fits alone is refused of overflow only, and never by an
empty request. -/
theorem Packs.tryWrite (hpacks : Packs properties capacity packer run)
    (hsorted : (run ++ [item]).Pairwise PlacedPoint.Before) :
    (∃ next, Packer.tryWrite item packer = .ok () next ∧
      Packs properties capacity next (run ++ [item]) ∧ next.tally = packer.tally ∧
      item.fits properties capacity = true) ∨
    ∃ fault left, Packer.tryWrite item packer = .error fault left ∧
      Packs properties capacity left run ∧ left.tally = packer.tally ∧
      (fault.isOverflow = true ↔ capacity < (Draft.ofRun properties run).bytes.length +
        (Draft.ofRun properties run).leading properties item) ∧
      (item.fits properties capacity = true →
        capacity < (Draft.ofRun properties (run ++ [item])).bytes.length ∧ run ≠ []) := by
  have hsettled := Draft.isSettled_ofRun properties run
  have hcapacity := hpacks.capacity_eq
  have hlength := Draft.length_bytes_append properties (Draft.ofRun properties run) item
  have hlonger := Draft.openLength_le_ofRun properties hsorted
  rw [Draft.ofRun_concat, hlength, ← hpacks.rests.cursor_eq] at hlonger
  by_cases hroom : item.point.isValid = true ∧ packer.encoder.buffer.cursor +
      (Draft.ofRun properties run).cost properties item ≤ packer.encoder.buffer.capacity
  · obtain ⟨next, hrun, hrests, hresource, hsame, hpoints, htally⟩ :=
      tryWrite_of_le hpacks.resource_eq hpacks.rests hsettled item hroom.1 hroom.2
    rw [← Draft.ofRun_concat] at hrests
    refine .inl ⟨next, hrun, ⟨?_, hsame.trans hcapacity, ?_, hsorted, hrests⟩, htally, ?_⟩
    · rw [hresource]
      exact hpacks.resource_eq
    · rw [List.length_append, List.length_singleton, hpoints, hpacks.points_eq]
    · exact PlacedPoint.fits_iff.mpr ⟨hroom.1, by omega⟩
  · obtain ⟨fault, left, hrun, halike, hoverflow⟩ :=
      tryWrite_of_lt hpacks.resource_eq hpacks.rests hsettled item fun hvalid =>
        Nat.lt_of_not_le fun hle => hroom ⟨hvalid, hle⟩
    rw [hpacks.rests.cursor_eq, hcapacity] at hroom hoverflow
    refine .inr ⟨fault, left, hrun, hpacks.of_alike halike, halike.tally_eq, hoverflow,
      fun hfits => ?_⟩
    -- A point that fits alone would have been written into an empty request.
    obtain ⟨hvalid, halone⟩ := PlacedPoint.fits_iff.mp hfits
    rw [Draft.ofRun_concat, hlength]
    refine ⟨Nat.lt_of_not_le fun hle => hroom ⟨hvalid, hle⟩, fun hnil => hroom ⟨hvalid, ?_⟩⟩
    rw [hnil]
    change 0 + Draft.empty.cost properties item ≤ _
    rw [Draft.cost_empty, Nat.zero_add]
    exact halone

end Packer

end TelemetryExport
