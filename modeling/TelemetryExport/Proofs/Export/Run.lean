import Mathlib.Data.List.Induction
import TelemetryExport.Proofs.Export.Grouping
import TelemetryExport.Proofs.Metric.Tree

/-! # Runs of points

What one request carries is a run: points of a batch that follow one another. The
request of a run has one resource, in it one scope for each group of the run, in that
one metric for each metric, and in that the metric's points. The request is defined
from the whole run at once. How it grows by one point depends on whether the point
is of the last metric, of another one in the last group, or of a new group.
-/

namespace TelemetryExport

namespace PlacedPoint

/-- The group of a point, with the scope that stands for it. -/
def scopeKey (item : PlacedPoint) : Nat × Scope := (item.group, item.scope)

/-- The metric of a point, with its place in the batch. -/
def metricKey (item : PlacedPoint) : Nat × Metric := (item.index, item.metric)

end PlacedPoint

/-! ## Sections -/

section Sections

variable {α κ : Type} [BEq κ] [LawfulBEq κ]

/-- The items of each key, the keys in the order in which they first occur. -/
def sections (key : α → κ) (items : List α) : List (κ × List α) :=
  (items.map key).eraseDups.map fun k => (k, items.filter (key · == k))

theorem mem_of_mem_sections {key : α → κ} {items : List α} {k : κ} {members : List α}
    (hmem : (k, members) ∈ sections key items) :
    members ≠ [] ∧ ∀ item ∈ members, item ∈ items ∧ key item = k := by
  obtain ⟨k, hkey, heq⟩ := List.mem_map.mp hmem
  cases heq
  refine ⟨?_, fun item hitem => ?_⟩
  · obtain ⟨item, hitem, hk⟩ := List.mem_map.mp (List.mem_eraseDups.mp hkey)
    exact List.ne_nil_of_mem (List.mem_filter.mpr ⟨hitem, beq_iff_eq.mpr hk⟩)
  · obtain ⟨hitem, hk⟩ := List.mem_filter.mp hitem
    exact ⟨hitem, beq_iff_eq.mp hk⟩

theorem sections_ne_nil (key : α → κ) {items : List α} (hitems : items ≠ []) :
    sections key items ≠ [] := by
  obtain ⟨item, hitem⟩ := List.exists_mem_of_ne_nil items hitems
  have hkey := List.mem_eraseDups.mpr (List.mem_map_of_mem (f := key) hitem)
  exact List.ne_nil_of_mem (List.mem_map_of_mem hkey)

theorem eraseDups_of_forall {k : κ} {keys : List κ} (hkeys : ∀ other ∈ keys, other = k)
    (hne : keys ≠ []) : keys.eraseDups = [k] := by
  cases keys with
  | nil => exact absurd rfl hne
  | cons first rest =>
      have hfirst := hkeys first List.mem_cons_self
      have hrest : rest.filter (fun other => !other == first) = [] := by
        rw [List.filter_eq_nil_iff]
        intro other hmem
        rw [hkeys other (List.mem_cons_of_mem _ hmem), hfirst, beq_self_eq_true]
        exact Bool.false_ne_true
      rw [List.eraseDups_cons, hrest, List.eraseDups_nil, hfirst]

theorem filter_key_eq_nil {key : α → κ} {k : κ} {items : List α}
    (hother : ∀ item ∈ items, key item ≠ k) : items.filter (key · == k) = [] := by
  rw [List.filter_eq_nil_iff]
  intro item hitem heq
  exact hother item hitem (beq_iff_eq.mp heq)

/-- A key that is new is the last one. -/
theorem eraseDups_keys_append {key : α → κ} {k : κ} {front back : List α}
    (hfront : ∀ item ∈ front, key item ≠ k) (hback : ∀ item ∈ back, key item = k)
    (hne : back ≠ []) :
    ((front ++ back).map key).eraseDups = (front.map key).eraseDups ++ [k] := by
  have hbackKeys : ∀ other ∈ back.map key, other = k := by
    intro other hmem
    obtain ⟨item, hitem, rfl⟩ := List.mem_map.mp hmem
    exact hback item hitem
  have hfresh : (back.map key).removeAll (front.map key) = back.map key := by
    apply List.filter_eq_self.mpr
    intro other hmem
    rw [Bool.not_eq_true', List.elem_eq_mem, decide_eq_false_iff_not, hbackKeys other hmem]
    intro hfrontMem
    obtain ⟨item, hitem, hk⟩ := List.mem_map.mp hfrontMem
    exact hfront item hitem hk
  have hbackNe : back.map key ≠ [] := by
    rw [ne_eq, List.map_eq_nil_iff]
    exact hne
  rw [List.map_append, List.eraseDups_append, hfresh, eraseDups_of_forall hbackKeys hbackNe]

/-- Items of one key behind items of others are one more section. -/
theorem sections_append {key : α → κ} {k : κ} {front back : List α}
    (hfront : ∀ item ∈ front, key item ≠ k) (hback : ∀ item ∈ back, key item = k)
    (hne : back ≠ []) : sections key (front ++ back) = sections key front ++ [(k, back)] := by
  -- The sections of earlier keys gain nothing, and that of the new key has the last items.
  have hearlier : ∀ other ∈ (front.map key).eraseDups,
      (front ++ back).filter (key · == other) = front.filter (key · == other) := by
    intro other hmem
    obtain ⟨item, hitem, hk⟩ := List.mem_map.mp (List.mem_eraseDups.mp hmem)
    have hnone : back.filter (key · == other) = [] := by
      apply filter_key_eq_nil
      intro last hlast heq
      rw [hback last hlast] at heq
      exact hfront item hitem (hk.trans heq.symm)
    rw [List.filter_append, hnone, List.append_nil]
  have hlast : (front ++ back).filter (key · == k) = back := by
    have hall : back.filter (key · == k) = back :=
      List.filter_eq_self.mpr fun item hitem => beq_iff_eq.mpr (hback item hitem)
    rw [List.filter_append, filter_key_eq_nil hfront, hall, List.nil_append]
  rw [sections, eraseDups_keys_append hfront hback hne, List.map_append, List.map_singleton,
    hlast, sections]
  congr 1
  apply List.map_congr_left
  intro other hmem
  rw [hearlier other hmem]

end Sections

/-! ## The request of a run -/

namespace DataPoint

def number? : DataPoint → Option NumberPoint
  | number point => some point
  | _ => none

def histogram? : DataPoint → Option HistogramPoint
  | histogram point => some point
  | _ => none

def exponential? : DataPoint → Option ExponentialPoint
  | exponential point => some point
  | _ => none

end DataPoint

namespace Message

/-- A data point of any kind, as it arrives. -/
inductive Point where
  | number (point : NumberPoint)
  | histogram (point : HistogramPoint)
  | exponential (point : ExponentialPoint)
  deriving DecidableEq

def Data.points : Data → List Point
  | gauge points => points.map .number
  | sum points _ _ => points.map .number
  | histogram points _ => points.map .histogram
  | exponential points _ => points.map .exponential

def Metric.points (metric : Metric) : List Point := metric.data.elim [] Data.points

def ScopeMetrics.points (scope : ScopeMetrics) : List Point := scope.metrics.flatMap Metric.points

/-- The data points in a request, in order. -/
def Request.points (request : Request) : List Point :=
  (request.resources.flatMap (·.scopes)).flatMap ScopeMetrics.points

/-- No message of the request is without a point. -/
def Request.Filled (request : Request) : Prop :=
  ∀ resource ∈ request.resources, resource.scopes ≠ [] ∧
    ∀ scope ∈ resource.scopes, scope.metrics ≠ [] ∧
      ∀ metric ∈ scope.metrics, metric.points ≠ []

end Message

/-- What should arrive of a point. -/
def DataPoint.message : DataPoint → Message.Point
  | number point => .number point.message
  | histogram point => .histogram point.message
  | exponential point => .exponential point.message

namespace Message

/-- The instrument of a metric, with those of the points that are of its kind. -/
def Data.ofPoints (data : MetricData) (points : List DataPoint) : Data :=
  match data with
  | .gauge _ => gauge ((points.filterMap DataPoint.number?).map (·.message))
  | .sum _ kind monotonic =>
      sum ((points.filterMap DataPoint.number?).map (·.message)) (temporality kind) monotonic
  | .histogram _ kind =>
      histogram ((points.filterMap DataPoint.histogram?).map (·.message)) (temporality kind)
  | .exponential _ kind =>
      exponential ((points.filterMap DataPoint.exponential?).map (·.message)) (temporality kind)

/-- A metric with some of its points. -/
def Metric.ofPoints (metric : TelemetryExport.Metric) (points : List DataPoint) : Metric :=
  { Metric.ofHeader metric with data := some (Data.ofPoints metric.data points) }

/-- The metrics of points of one scope. -/
def metricsOf (items : List PlacedPoint) : List Metric :=
  (sections PlacedPoint.metricKey items).map fun ((_, metric), members) =>
    Metric.ofPoints metric (members.map (·.point))

/-- The scopes of points. -/
def scopesOf (items : List PlacedPoint) : List ScopeMetrics :=
  (sections PlacedPoint.scopeKey items).map fun ((_, scope), members) =>
    { scope := some (Scope.ofScope scope), metrics := metricsOf members }

/-- The request that carries a run, for the resource with the given attributes. -/
def Request.ofRun (properties : List Attribute) (run : List PlacedPoint) : Request :=
  ⟨[{ resource := some ⟨keyValues properties⟩, scopes := scopesOf run }]⟩

/-- The request whose last scope, with the metrics in it, is told apart from the others. -/
def Request.ofEdge (properties : List Attribute) (closed : List PlacedPoint)
    (scope : TelemetryExport.Scope) (metrics : List Metric) : Request :=
  ⟨[{ resource := some ⟨keyValues properties⟩
      scopes := scopesOf closed ++ [{ scope := some (Scope.ofScope scope), metrics }] }]⟩

theorem Data.addPoint?_ofPoints {data : MetricData} {point : DataPoint}
    (hpoint : point ∈ data.points) (points : List DataPoint) :
    (ofPoints data points).addPoint? point = some (ofPoints data (points ++ [point])) := by
  cases data with
  | gauge =>
      obtain ⟨number, -, rfl⟩ := List.mem_map.mp hpoint
      simp only [ofPoints, addPoint?, List.filterMap_append, List.map_append]
      rfl
  | sum =>
      obtain ⟨number, -, rfl⟩ := List.mem_map.mp hpoint
      simp only [ofPoints, addPoint?, List.filterMap_append, List.map_append]
      rfl
  | histogram =>
      obtain ⟨histogram, -, rfl⟩ := List.mem_map.mp hpoint
      simp only [ofPoints, addPoint?, List.filterMap_append, List.map_append]
      rfl
  | exponential =>
      obtain ⟨exponential, -, rfl⟩ := List.mem_map.mp hpoint
      simp only [ofPoints, addPoint?, List.filterMap_append, List.map_append]
      rfl

theorem Metric.setInstrument_ofHeader (metric : TelemetryExport.Metric) :
    (ofHeader metric).setInstrument metric.data = some (ofPoints metric []) := by
  cases hdata : metric.data <;> simp only [setInstrument, ofHeader, ofPoints, hdata] <;> rfl

theorem Data.points_addPoint? {data after : Data} {point : DataPoint}
    (hafter : data.addPoint? point = some after) :
    after.points = data.points ++ [point.message] := by
  cases data with
  | gauge =>
      cases point with
      | number => cases hafter; exact List.map_append
      | histogram => cases hafter
      | exponential => cases hafter
  | sum =>
      cases point with
      | number => cases hafter; exact List.map_append
      | histogram => cases hafter
      | exponential => cases hafter
  | histogram =>
      cases point with
      | number => cases hafter
      | histogram => cases hafter; exact List.map_append
      | exponential => cases hafter
  | exponential =>
      cases point with
      | number => cases hafter
      | histogram => cases hafter
      | exponential => cases hafter; exact List.map_append

/-- The points of a metric arrive as they stand. -/
theorem Metric.points_ofPoints {metric : TelemetryExport.Metric} {points : List DataPoint}
    (hpoints : ∀ point ∈ points, point ∈ metric.data.points) :
    (ofPoints metric points).points = points.map (·.message) := by
  -- From the end, where a point is added like the others before it.
  induction points using List.reverseRecOn with
  | nil => cases hdata : metric.data <;> simp only [ofPoints, points, hdata] <;> rfl
  | append_singleton points point ih =>
      have hadd := Data.addPoint?_ofPoints (hpoints point (List.mem_append_right _
        (List.mem_singleton.mpr rfl))) points
      have hearlier := ih fun other hmem => hpoints other (List.mem_append_left _ hmem)
      rw [List.map_append, ← hearlier]
      exact Data.points_addPoint? hadd

/-! ## Changes of the request -/

namespace Request

variable (properties : List Attribute) (closed : List PlacedPoint) (metrics : List Metric)

theorem addResource_empty : addResource properties {} = some (ofRun properties []) := rfl

theorem addScope_ofRun (scope : TelemetryExport.Scope) :
    addScope scope (ofRun properties closed) = some (ofEdge properties closed scope []) := rfl

/-- A change of the last scope of the edge. -/
theorem changeResource_ofEdge (scope : TelemetryExport.Scope)
    {change : ScopeMetrics → Option ScopeMetrics} {changed : List Metric}
    (hchange : change { scope := some (Scope.ofScope scope), metrics } =
      some { scope := some (Scope.ofScope scope), metrics := changed }) :
    changeResource (ResourceMetrics.changeScope change) (ofEdge properties closed scope metrics) =
      some (ofEdge properties closed scope changed) := by
  have hscopes := changeLast_concat change (scopesOf closed)
    { scope := some (Scope.ofScope scope), metrics }
  rw [hchange, Option.map_some] at hscopes
  have hresource : ResourceMetrics.changeScope change
      { resource := some ⟨keyValues properties⟩
        scopes := scopesOf closed ++ [{ scope := some (Scope.ofScope scope), metrics }] } =
      some { resource := some ⟨keyValues properties⟩
             scopes := scopesOf closed ++
              [{ scope := some (Scope.ofScope scope), metrics := changed }] } := by
    rw [ResourceMetrics.changeScope, hscopes, Option.map_some]
  have hresources := changeLast_concat (ResourceMetrics.changeScope change) []
    { resource := some ⟨keyValues properties⟩
      scopes := scopesOf closed ++ [{ scope := some (Scope.ofScope scope), metrics }] }
  rw [hresource, Option.map_some, List.nil_append, List.nil_append] at hresources
  rw [changeResource, ofEdge, hresources, Option.map_some]
  rfl

theorem addMetric_ofEdge (scope : TelemetryExport.Scope) (metric : TelemetryExport.Metric) :
    addMetric metric (ofEdge properties closed scope metrics) =
      some (ofEdge properties closed scope (metrics ++ [Metric.ofHeader metric])) :=
  changeResource_ofEdge properties closed metrics scope rfl

theorem addInstrument_ofEdge (scope : TelemetryExport.Scope) (metric : TelemetryExport.Metric) :
    addInstrument metric.data
        (ofEdge properties closed scope (metrics ++ [Metric.ofHeader metric])) =
      some (ofEdge properties closed scope (metrics ++ [Metric.ofPoints metric []])) := by
  apply changeResource_ofEdge
  rw [ScopeMetrics.changeMetric, changeLast_concat, Metric.setInstrument_ofHeader,
    Option.map_some, Option.map_some]

theorem addPoint_ofEdge (scope : TelemetryExport.Scope) {metric : TelemetryExport.Metric}
    {point : DataPoint} (hpoint : point ∈ metric.data.points) (points : List DataPoint) :
    addPoint point (ofEdge properties closed scope (metrics ++ [Metric.ofPoints metric points])) =
      some (ofEdge properties closed scope
        (metrics ++ [Metric.ofPoints metric (points ++ [point])])) := by
  have hdata : Metric.changeData (·.addPoint? point) (Metric.ofPoints metric points) =
      some (Metric.ofPoints metric (points ++ [point])) := by
    simp only [Metric.changeData, Metric.ofPoints, Option.bind_some,
      Data.addPoint?_ofPoints hpoint, Option.map_some]
  apply changeResource_ofEdge
  rw [ScopeMetrics.changeMetric, changeLast_concat, hdata, Option.map_some, Option.map_some]

end Request

end Message

/-! ## The end of a run -/

/-- The run ends in points of the item's metric, behind points of other metrics in the
item's group, behind points of other groups. -/
structure EndsIn (run closed done current : List PlacedPoint) (item : PlacedPoint) : Prop where
  run_eq : run = closed ++ (done ++ current)
  closed_lt : ∀ other ∈ closed, other.group < item.group
  scope_eq : ∀ other ∈ done ++ current, other.scopeKey = item.scopeKey
  done_lt : ∀ other ∈ done, other.index < item.index
  metric_eq : ∀ other ∈ current, other.metricKey = item.metricKey
  current_ne_nil : current ≠ []

namespace EndsIn

variable {run closed done current : List PlacedPoint} {last item : PlacedPoint}

/-- The sections of the last group. -/
theorem sections_metricKey (hends : EndsIn run closed done current item) :
    sections PlacedPoint.metricKey (done ++ current) =
      sections PlacedPoint.metricKey done ++ [(item.metricKey, current)] := by
  refine sections_append (fun other hmem heq => ?_) hends.metric_eq hends.current_ne_nil
  exact Nat.ne_of_lt (hends.done_lt other hmem) (congrArg Prod.fst heq)

theorem sections_scopeKey (hends : EndsIn run closed done current item) :
    sections PlacedPoint.scopeKey run =
      sections PlacedPoint.scopeKey closed ++ [(item.scopeKey, done ++ current)] := by
  rw [hends.run_eq]
  refine sections_append (fun other hmem heq => ?_) hends.scope_eq
    (List.append_ne_nil_of_right_ne_nil _ hends.current_ne_nil)
  exact Nat.ne_of_lt (hends.closed_lt other hmem) (congrArg Prod.fst heq)

/-- The metrics of the last group. -/
theorem metricsOf_eq (hends : EndsIn run closed done current item) :
    Message.metricsOf (done ++ current) =
      Message.metricsOf done ++
        [Message.Metric.ofPoints item.metric (current.map (·.point))] := by
  rw [Message.metricsOf, hends.sections_metricKey, List.map_append]
  rfl

theorem ofRun_eq (hends : EndsIn run closed done current item) (properties : List Attribute) :
    Message.Request.ofRun properties run =
      Message.Request.ofEdge properties closed item.scope
        (Message.metricsOf done ++
          [Message.Metric.ofPoints item.metric (current.map (·.point))]) := by
  rw [Message.Request.ofRun, Message.scopesOf, hends.sections_scopeKey, List.map_append,
    ← hends.metricsOf_eq]
  rfl

/-- A point of a new group ends the run alone. -/
theorem single (hgroup : ∀ other ∈ run, other.group < item.group) :
    EndsIn (run ++ [item]) run [] [item] item where
  run_eq := rfl
  closed_lt := hgroup
  scope_eq := fun _ hmem => by rw [List.mem_singleton.mp hmem]
  done_lt := fun _ hmem => absurd hmem List.not_mem_nil
  metric_eq := fun _ hmem => by rw [List.mem_singleton.mp hmem]
  current_ne_nil := List.cons_ne_nil _ _

/-- A run of one point. -/
theorem first (item : PlacedPoint) : EndsIn ([] ++ [item]) [] [] [item] item :=
  single fun _ hmem => absurd hmem List.not_mem_nil

/-- Every point of the run is of no later group than its last one. -/
theorem group_le (hends : EndsIn run closed done current last) {other : PlacedPoint}
    (hmem : other ∈ run) : other.group ≤ last.group := by
  rw [hends.run_eq] at hmem
  rcases List.mem_append.mp hmem with hmem | hmem
  · exact Nat.le_of_lt (hends.closed_lt other hmem)
  · exact Nat.le_of_eq (congrArg Prod.fst (hends.scope_eq other hmem))

theorem newGroup (hends : EndsIn run closed done current last) (hgroup : last.group < item.group) :
    EndsIn (run ++ [item]) run [] [item] item :=
  single fun _ hmem => Nat.lt_of_le_of_lt (hends.group_le hmem) hgroup

theorem newMetric (hends : EndsIn run closed done current last)
    (hscope : last.scopeKey = item.scopeKey) (hindex : last.index < item.index) :
    EndsIn (run ++ [item]) closed (done ++ current) [item] item where
  run_eq := by rw [hends.run_eq, List.append_assoc]
  closed_lt := fun other hmem => by
    rw [← show last.group = item.group from congrArg Prod.fst hscope]
    exact hends.closed_lt other hmem
  scope_eq := fun other hmem => by
    rcases List.mem_append.mp hmem with hmem | hmem
    · exact (hends.scope_eq other hmem).trans hscope
    · rw [List.mem_singleton.mp hmem]
  done_lt := fun other hmem => by
    rcases List.mem_append.mp hmem with hmem | hmem
    · exact Nat.lt_trans (hends.done_lt other hmem) hindex
    · have heq : other.index = last.index := congrArg Prod.fst (hends.metric_eq other hmem)
      rw [heq]
      exact hindex
  metric_eq := fun _ hmem => by rw [List.mem_singleton.mp hmem]
  current_ne_nil := List.cons_ne_nil _ _

theorem newPoint (hends : EndsIn run closed done current last)
    (hscope : last.scopeKey = item.scopeKey) (hmetric : last.metricKey = item.metricKey) :
    EndsIn (run ++ [item]) closed done (current ++ [item]) item where
  run_eq := by rw [hends.run_eq, List.append_assoc, List.append_assoc]
  closed_lt := fun other hmem => by
    rw [← show last.group = item.group from congrArg Prod.fst hscope]
    exact hends.closed_lt other hmem
  scope_eq := fun other hmem => by
    rw [← List.append_assoc] at hmem
    rcases List.mem_append.mp hmem with hmem | hmem
    · exact (hends.scope_eq other hmem).trans hscope
    · rw [List.mem_singleton.mp hmem]
  done_lt := fun other hmem => by
    rw [← show last.index = item.index from congrArg Prod.fst hmetric]
    exact hends.done_lt other hmem
  metric_eq := fun other hmem => by
    rcases List.mem_append.mp hmem with hmem | hmem
    · exact (hends.metric_eq other hmem).trans hmetric
    · rw [List.mem_singleton.mp hmem]
  current_ne_nil := List.append_ne_nil_of_right_ne_nil _ (List.cons_ne_nil _ _)

end EndsIn

namespace PlacedPoint

variable {run : List PlacedPoint} {last : PlacedPoint}

/-- Points that never go back fall apart at their last one. -/
theorem exists_endsIn (hsorted : (run ++ [last]).Pairwise Before) :
    ∃ closed done current, EndsIn (run ++ [last]) closed done current last := by
  induction run using List.reverseRecOn generalizing last with
  | nil => exact ⟨[], [], [last], EndsIn.first last⟩
  | append_singleton run earlier ih =>
      obtain ⟨hearlier, -, hbefore⟩ := List.pairwise_append.mp hsorted
      obtain ⟨closed, done, current, hends⟩ := ih hearlier
      have hlast : Before earlier last :=
        hbefore earlier (List.mem_append_right _ (List.mem_singleton.mpr rfl)) last
          (List.mem_singleton.mpr rfl)
      -- Where the last point stands decides how much of the run before it is split off.
      cases hlast with
      | group hgroup => exact ⟨_, _, _, hends.newGroup hgroup⟩
      | metric hgroup hscope hindex =>
          exact ⟨_, _, _, hends.newMetric (Prod.ext hgroup hscope) hindex⟩
      | point hgroup hscope hindex hmetric =>
          exact ⟨_, _, _, hends.newPoint (Prod.ext hgroup hscope) (Prod.ext hindex hmetric)⟩

end PlacedPoint

/-! ## The points of a run -/

namespace Message

/-- The points of a run are of their metrics. -/
theorem Metric.points_ofPoints_of_forall {metric : TelemetryExport.Metric}
    {items : List PlacedPoint} (hmetric : ∀ item ∈ items, item.metric = metric)
    (hpoints : ∀ item ∈ items, item.point ∈ item.metric.data.points) :
    (ofPoints metric (items.map (·.point))).points = items.map (·.point.message) := by
  rw [points_ofPoints, List.map_map]
  · rfl
  · intro point hmem
    obtain ⟨item, hitem, rfl⟩ := List.mem_map.mp hmem
    rw [← hmetric item hitem]
    exact hpoints item hitem

namespace Request

variable (properties : List Attribute)

theorem points_ofRun_eq (run : List PlacedPoint) :
    (ofRun properties run).points = (scopesOf run).flatMap ScopeMetrics.points := by
  rw [points, ofRun, List.flatMap_cons, List.flatMap_nil, List.append_nil]

theorem points_ofEdge (closed : List PlacedPoint) (scope : TelemetryExport.Scope)
    (metrics : List Metric) :
    (ofEdge properties closed scope metrics).points =
      (ofRun properties closed).points ++ metrics.flatMap Metric.points := by
  rw [points_ofRun_eq, points, ofEdge, List.flatMap_cons, List.flatMap_nil, List.append_nil,
    List.flatMap_append, List.flatMap_cons, List.flatMap_nil, List.append_nil]
  rfl

/-- The points of the last metric come last. -/
theorem points_ofRun_of_endsIn {run closed done current : List PlacedPoint} {item : PlacedPoint}
    (hends : EndsIn run closed done current item)
    (hpoints : ∀ other ∈ current, other.point ∈ other.metric.data.points) :
    (ofRun properties run).points =
      (ofRun properties closed).points ++ ((metricsOf done).flatMap Metric.points ++
        current.map (·.point.message)) := by
  have hmetric : ∀ other ∈ current, other.metric = item.metric :=
    fun other hmem => congrArg Prod.snd (hends.metric_eq other hmem)
  rw [hends.ofRun_eq, points_ofEdge, List.flatMap_append, List.flatMap_cons, List.flatMap_nil,
    List.append_nil, Metric.points_ofPoints_of_forall hmetric hpoints]

theorem points_ofRun_concat {run closed done current : List PlacedPoint}
    {last item : PlacedPoint} (hends : EndsIn run closed done current last)
    (hbefore : PlacedPoint.Before last item)
    (hpoints : ∀ other ∈ run ++ [item], other.point ∈ other.metric.data.points) :
    (ofRun properties (run ++ [item])).points =
      (ofRun properties run).points ++ [item.point.message] := by
  have hitem : ∀ other ∈ [item], other.point ∈ other.metric.data.points :=
    fun other hmem => hpoints other (List.mem_append_right _ hmem)
  have hcurrent : ∀ other ∈ current, other.point ∈ other.metric.data.points := by
    intro other hmem
    apply hpoints other (List.mem_append_left _ _)
    rw [hends.run_eq]
    exact List.mem_append_right _ (List.mem_append_right _ hmem)
  have hlast : ∀ other ∈ current, other.metric = last.metric :=
    fun other hmem => congrArg Prod.snd (hends.metric_eq other hmem)
  -- A point that begins a section leaves those before it as they are.
  cases hbefore with
  | group hgroup =>
      rw [points_ofRun_of_endsIn properties (hends.newGroup hgroup) hitem]
      rfl
  | metric hgroup hscope hindex =>
      have hnew := hends.newMetric (Prod.ext hgroup hscope) hindex
      rw [points_ofRun_of_endsIn properties hnew hitem,
        points_ofRun_of_endsIn properties hends hcurrent, hends.metricsOf_eq, List.flatMap_append,
        List.flatMap_cons, List.flatMap_nil, List.append_nil,
        Metric.points_ofPoints_of_forall hlast hcurrent, List.append_assoc, List.append_assoc,
        List.append_assoc]
      rfl
  | point hgroup hscope hindex hmetric =>
      have hnew := hends.newPoint (Prod.ext hgroup hscope) (Prod.ext hindex hmetric)
      have hboth : ∀ other ∈ current ++ [item], other.point ∈ other.metric.data.points := by
        intro other hmem
        rcases List.mem_append.mp hmem with hmem | hmem
        · exact hcurrent other hmem
        · exact hitem other hmem
      rw [points_ofRun_of_endsIn properties hnew hboth,
        points_ofRun_of_endsIn properties hends hcurrent, List.map_append, List.append_assoc,
        List.append_assoc]
      rfl

/-- The points of a request are those of its run, in order. -/
theorem points_ofRun {run : List PlacedPoint} (hsorted : run.Pairwise PlacedPoint.Before)
    (hpoints : ∀ item ∈ run, item.point ∈ item.metric.data.points) :
    (ofRun properties run).points = run.map (·.point.message) := by
  induction run using List.reverseRecOn with
  | nil => rfl
  | append_singleton run item ih =>
      obtain ⟨hearlier, -, hbefore⟩ := List.pairwise_append.mp hsorted
      rw [List.map_append, ← ih hearlier fun other hmem =>
        hpoints other (List.mem_append_left _ hmem)]
      rcases List.eq_nil_or_concat run with rfl | ⟨before, last, rfl⟩
      · rw [points_ofRun_of_endsIn properties (EndsIn.first item) hpoints]
        rfl
      · rw [List.concat_eq_append] at hearlier hbefore hpoints ⊢
        obtain ⟨closed, done, current, hends⟩ := PlacedPoint.exists_endsIn hearlier
        exact points_ofRun_concat properties hends
          (hbefore last (List.mem_append_right _ (List.mem_singleton.mpr rfl)) item
            (List.mem_singleton.mpr rfl)) hpoints

theorem filled_ofRun {run : List PlacedPoint} (hne : run ≠ [])
    (hpoints : ∀ item ∈ run, item.point ∈ item.metric.data.points) :
    (ofRun properties run).Filled := by
  intro resource hresource
  rw [List.mem_singleton.mp hresource]
  refine ⟨?_, fun scope hscope => ?_⟩
  · rw [ne_eq, scopesOf, List.map_eq_nil_iff]
    exact sections_ne_nil _ hne
  · obtain ⟨⟨key, members⟩, hsection, rfl⟩ := List.mem_map.mp hscope
    obtain ⟨hmembers, hrun⟩ := mem_of_mem_sections hsection
    refine ⟨?_, fun metric hmetric => ?_⟩
    · exact fun hnil => sections_ne_nil _ hmembers (List.map_eq_nil_iff.mp hnil)
    · obtain ⟨⟨metricKey, points⟩, hmetricSection, rfl⟩ := List.mem_map.mp hmetric
      obtain ⟨hne, hmem⟩ := mem_of_mem_sections hmetricSection
      rw [Metric.points_ofPoints_of_forall, ne_eq, List.map_eq_nil_iff]
      · exact hne
      · exact fun item hitem => congrArg Prod.snd (hmem item hitem).2
      · exact fun item hitem => hpoints item (hrun item (hmem item hitem).1).1

end Request

end Message

end TelemetryExport
