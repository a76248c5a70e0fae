import TelemetryExport.Proofs.Export.Delivery

/-! # The bytes of a run

What the request of a run is written as is said here of the whole run at once: one message
for the resource, in it one for each group of the run, in that one for each metric, and in
that the instrument with the points, every header once. A packer writes the same bytes
point by point, so that the payloads of an export are told by the runs it cuts. A stretch of
a run takes no more bytes than the run, although it may have to repeat the headers of what
was cut away.
-/

namespace TelemetryExport

open WrittenField OpenMessage RequestEncoder

namespace RunEncoding

/-- The instrument of a metric with some of its points. -/
def dataField (data : MetricData) (points : List PlacedPoint) : WrittenField :=
  .message (Schema.Metric.instrument (Instrument.ofData data))
    (encodeAll (data.headerFields ++ points.map fun item => pointField item.point))

/-- A metric with some of its points. -/
def metricField (metric : Metric) (points : List PlacedPoint) : WrittenField :=
  .message Schema.ScopeMetrics.metrics
    (encodeAll (metric.headerFields ++ [dataField metric.data points]))

/-- The metrics of points of one scope. -/
def metricFields (points : List PlacedPoint) : List WrittenField :=
  (sections PlacedPoint.metricKey points).map fun ((_, metric), members) =>
    metricField metric members

def scopeField (scope : Scope) (points : List PlacedPoint) : WrittenField :=
  .message Schema.ResourceMetrics.scopeMetrics
    (encodeAll ([scope.field] ++ metricFields points))

/-- The scopes of points. -/
def scopeFields (points : List PlacedPoint) : List WrittenField :=
  (sections PlacedPoint.scopeKey points).map fun ((_, scope), members) =>
    scopeField scope members

/-- The bytes of a request with these points for the resource with the given attributes. -/
def encode (properties : List Attribute) (points : List PlacedPoint) : List UInt8 :=
  encodeAll [.message Schema.Request.resourceMetrics
    (encodeAll ([RequestFormat.resourceField properties] ++ scopeFields points))]

/-- The messages around the last point of a run, the points of its metric in the innermost. -/
def edge (properties : List Attribute) (closed done current : List PlacedPoint)
    (item : PlacedPoint) : List OpenMessage :=
  [⟨Schema.Request.resourceMetrics, [RequestFormat.resourceField properties] ++
      scopeFields closed⟩,
    ⟨Schema.ResourceMetrics.scopeMetrics, [item.scope.field] ++ metricFields done⟩,
    ⟨Schema.ScopeMetrics.metrics, item.metric.headerFields⟩,
    ⟨Schema.Metric.instrument (Instrument.ofData item.metric.data),
      item.metric.data.headerFields ++ current.map fun other => pointField other.point⟩]

variable {properties : List Attribute} {run closed done current : List PlacedPoint}
  {item last : PlacedPoint} {draft : Draft}

theorem metricFields_of_endsIn (hends : EndsIn run closed done current item) :
    metricFields (done ++ current) = metricFields done ++ [metricField item.metric current] := by
  rw [metricFields, hends.sections_metricKey, List.map_append]
  rfl

theorem scopeFields_of_endsIn (hends : EndsIn run closed done current item) :
    scopeFields run = scopeFields closed ++ [scopeField item.scope (done ++ current)] := by
  rw [scopeFields, hends.sections_scopeKey, List.map_append]
  rfl

/-- What the metric and the scope at the edge come to when they are closed. -/
theorem content_edge_metric (properties : List Attribute)
    (hends : EndsIn run closed done current item) :
    content ([item.scope.field] ++ metricFields done)
        ((edge properties closed done current item).drop Level.metric) =
      [item.scope.field] ++ metricFields (done ++ current) := by
  rw [metricFields_of_endsIn hends, ← List.append_assoc]
  rfl

theorem content_edge_scope (properties : List Attribute)
    (hends : EndsIn run closed done current item) :
    content ([RequestFormat.resourceField properties] ++ scopeFields closed)
        ((edge properties closed done current item).drop Level.scope) =
      [RequestFormat.resourceField properties] ++ scopeFields run := by
  rw [scopeFields_of_endsIn hends, ← List.append_assoc, scopeField,
    ← content_edge_metric properties hends]
  rfl

theorem encodeAll_content_edge (hends : EndsIn run closed done current item) :
    encodeAll (content [] (edge properties closed done current item)) =
      encode properties run := by
  rw [encode, ← content_edge_scope properties hends]
  rfl

/-! ## The draft of a run -/

/-- What a point makes of a draft, when it is known how many messages stay open for it. -/
theorem append_of_kept (properties : List Attribute) {depth : Nat}
    (hkept : draft.kept item = depth) : draft.append properties item =
      ((item.openings.drop depth).foldl (Draft.add properties) (draft.closeTo depth)).put item := by
  rw [Draft.append, Draft.prepare, Draft.missing, hkept]

/-- In the draft the messages around the last point are open, and nothing is outside them. -/
structure HasEdge (properties : List Attribute) (draft : Draft)
    (closed done current : List PlacedPoint) (item : PlacedPoint) : Prop where
  fields_eq : draft.fields = []
  opens_eq : draft.opens = edge properties closed done current item

theorem hasEdge_first (properties : List Attribute) (item : PlacedPoint) :
    HasEdge properties (Draft.empty.append properties item) [] [] [item] item := by
  rw [append_of_kept properties (Draft.kept_of_nil rfl)]
  exact ⟨rfl, rfl⟩

/-- The scope of the last point is closed for a point of another group. -/
theorem HasEdge.newGroup (hedge : HasEdge properties draft closed done current last)
    (hends : EndsIn run closed done current last) (hkept : draft.kept item = Level.scope) :
    HasEdge properties (draft.append properties item) run [] [item] item := by
  have hscopes := content_edge_scope properties hends
  rw [append_of_kept properties hkept]
  obtain ⟨fields, opens, instrument, levels⟩ := draft
  obtain ⟨rfl, rfl⟩ := hedge
  refine ⟨rfl, ?_⟩
  change _ = ([⟨_, [RequestFormat.resourceField properties] ++ scopeFields run⟩, _, _, _] :
    List OpenMessage)
  rw [← hscopes]
  rfl

theorem HasEdge.newMetric (hedge : HasEdge properties draft closed done current last)
    (hends : EndsIn run closed done current last) (hkept : draft.kept item = Level.metric)
    (hscope : last.scope = item.scope) :
    HasEdge properties (draft.append properties item) closed (done ++ current) [item] item := by
  have hmetrics := content_edge_metric properties hends
  rw [append_of_kept properties hkept]
  obtain ⟨fields, opens, instrument, levels⟩ := draft
  obtain ⟨rfl, rfl⟩ := hedge
  refine ⟨rfl, ?_⟩
  change _ = ([_, ⟨_, [item.scope.field] ++ metricFields (done ++ current)⟩, _, _] :
    List OpenMessage)
  rw [← hscope, ← hmetrics]
  rfl

theorem HasEdge.newPoint (hedge : HasEdge properties draft closed done current last)
    (hkept : draft.kept item = Level.dataPoint) (hscope : last.scope = item.scope)
    (hmetric : last.metric = item.metric) :
    HasEdge properties (draft.append properties item) closed done (current ++ [item]) item := by
  rw [append_of_kept properties hkept]
  obtain ⟨fields, opens, instrument, levels⟩ := draft
  obtain ⟨rfl, rfl⟩ := hedge
  refine ⟨rfl, ?_⟩
  change _ = ([_, ⟨_, [item.scope.field] ++ _⟩, ⟨_, item.metric.headerFields⟩,
    ⟨Schema.Metric.instrument (Instrument.ofData item.metric.data),
      item.metric.data.headerFields ++
        (current ++ [item]).map fun other => pointField other.point⟩] : List OpenMessage)
  rw [List.map_append, ← List.append_assoc, ← hscope, ← hmetric]
  rfl

/-- Point by point the same end comes about as that of the run as a whole. -/
theorem exists_hasEdge (hsorted : (run ++ [item]).Pairwise PlacedPoint.Before) :
    ∃ closed done current, EndsIn (run ++ [item]) closed done current item ∧
      HasEdge properties (Draft.ofRun properties (run ++ [item])) closed done current item := by
  induction run using List.reverseRecOn generalizing item with
  | nil => exact ⟨_, _, _, EndsIn.first item, hasEdge_first properties item⟩
  | append_singleton run last ih =>
      obtain ⟨hearlier, -, hbefore⟩ := List.pairwise_append.mp hsorted
      obtain ⟨closed, done, current, hends, hedge⟩ := ih hearlier
      rw [Draft.ofRun_concat]
      cases hbefore last (List.mem_append_right _ (List.mem_singleton.mpr rfl)) item
          (List.mem_singleton.mpr rfl) with
      | group hgroup =>
          exact ⟨_, _, _, hends.newGroup hgroup,
            hedge.newGroup hends (Draft.kept_of_before_group properties run hgroup)⟩
      | metric hgroup hscope hindex =>
          exact ⟨_, _, _, hends.newMetric (Prod.ext hgroup hscope) hindex,
            hedge.newMetric hends (Draft.kept_of_before_metric properties run hgroup hindex)
              hscope⟩
      | point hgroup hscope hindex hmetric =>
          exact ⟨_, _, _, hends.newPoint (Prod.ext hgroup hscope) (Prod.ext hindex hmetric),
            hedge.newPoint (Draft.kept_of_before_point properties run hgroup hindex) hscope
              hmetric⟩

/-- A packer's request has the bytes of its run. -/
theorem bytes_ofRun (hsorted : run.Pairwise PlacedPoint.Before) (hne : run ≠ []) :
    (Draft.ofRun properties run).bytes = encode properties run := by
  obtain ⟨before, last, rfl⟩ := (List.eq_nil_or_concat run).resolve_left hne
  rw [List.concat_eq_append] at hsorted ⊢
  obtain ⟨closed, done, current, hends, hedge⟩ := exists_hasEdge hsorted
  rw [Draft.bytes, hedge.fields_eq, hedge.opens_eq, encodeAll_content_edge hends]

end RunEncoding

/-! ## Stretches of a run -/

namespace Draft

variable {properties : List Attribute} {run before after : List PlacedPoint}
  {item last : PlacedPoint}

theorem length_ofRun_le_append (properties : List Attribute) (run after : List PlacedPoint) :
    (ofRun properties run).bytes.length ≤ (ofRun properties (run ++ after)).bytes.length := by
  induction after using List.reverseRecOn with
  | nil => exact Nat.le_of_eq (by rw [List.append_nil])
  | append_singleton after item ih =>
      rw [← List.append_assoc, ofRun_concat, length_bytes_append]
      exact Nat.le_trans ih (Nat.le_add_right _ _)

/-- What a point costs depends on the point before it only. -/
theorem cost_ofRun_concat (properties : List Attribute) (run before : List PlacedPoint)
    (last item : PlacedPoint) :
    (ofRun properties (run ++ [last])).cost properties item =
      (ofRun properties (before ++ [last])).cost properties item := by
  have hkept : (ofRun properties (run ++ [last])).kept item =
      (ofRun properties (before ++ [last])).kept item := by
    rw [kept, kept, if_neg (opens_ofRun_concat_ne_nil _ _ _),
      if_neg (opens_ofRun_concat_ne_nil _ _ _), ofRun_concat, ofRun_concat]
    rfl
  rw [cost, cost, missing, missing, hkept]

/-- A run is no longer by itself than behind other points. -/
theorem length_ofRun_le_of_suffix (hsorted : (before ++ run).Pairwise PlacedPoint.Before) :
    (ofRun properties run).bytes.length ≤ (ofRun properties (before ++ run)).bytes.length := by
  induction run using List.reverseRecOn with
  | nil => exact Nat.zero_le _
  | append_singleton run item ih =>
      rw [← List.append_assoc] at hsorted ⊢
      have hshorter := ih (hsorted.sublist (List.sublist_append_left _ _))
      rcases List.eq_nil_or_concat run with rfl | ⟨run, last, rfl⟩
      · -- The first point has to pay for all headers around it, as far as any point has.
        rw [List.append_nil] at hsorted ⊢
        rw [ofRun_concat, length_bytes_append]
        change 0 + empty.cost properties item ≤ _
        rw [Nat.zero_add, cost_empty]
        exact openLength_le_ofRun properties hsorted
      · rw [List.concat_eq_append] at hshorter ⊢
        rw [← List.append_assoc] at hshorter ⊢
        rw [ofRun_concat properties (run ++ [last]),
          ofRun_concat properties (before ++ run ++ [last]), length_bytes_append,
          length_bytes_append,
          cost_ofRun_concat properties run (before ++ run) last item]
        exact Nat.add_le_add_right hshorter _

theorem length_ofRun_le_of_infix {inner : List PlacedPoint} (hstretch : inner <:+: run)
    (hsorted : run.Pairwise PlacedPoint.Before) :
    (ofRun properties inner).bytes.length ≤ (ofRun properties run).bytes.length := by
  obtain ⟨before, after, rfl⟩ := hstretch
  have hfront := hsorted.sublist (List.sublist_append_left _ _)
  exact Nat.le_trans (length_ofRun_le_of_suffix hfront) (length_ofRun_le_append _ _ _)

end Draft

/-! ## The payloads of an export -/

namespace Packer

variable {properties : List Attribute} {capacity total : Nat} {seen run : List PlacedPoint}
  {shipments : List Shipment} {packer : Packer} {journal : Journal}

/-- What was handed over are the runs that were sent. -/
theorem Shipping.payloads_eq
    (hshipping : Shipping properties capacity total seen shipments run packer journal)
    (hsorted : seen.Pairwise PlacedPoint.Before) :
    journal.attempts.toList.map (fun attempt => attempt.1.data.toList) =
      (shipments.map (·.run)).map (RunEncoding.encode properties) := by
  rw [hshipping.attempts_eq, List.map_map, List.map_map]
  refine List.map_congr_left fun shipment hmem => ?_
  have hsent : shipment.run.Sublist (shipments.flatMap (·.run) ++ run) := by
    rw [List.flatMap_def]
    exact (List.sublist_flatten_of_mem (List.mem_map_of_mem hmem)).trans
      (List.sublist_append_left _ _)
  rw [hshipping.runs_eq] at hsent
  have hrun := hsorted.sublist (hsent.trans List.filter_sublist)
  exact (hshipping.payload_eq shipment hmem).trans
    (RunEncoding.bytes_ofRun hrun (hshipping.carries shipment hmem).run_ne_nil)

end Packer

end TelemetryExport
