import TelemetryExport.Metric.Basic

/-! # Grouping metrics by scope

The metrics of a batch are sent scope by scope. Scopes of the same name and
version are one; groups stand in the order in which their scopes were first seen,
metrics in the order of the batch, points in the order of their metric.
-/

namespace TelemetryExport

/-- The metrics of one scope, with their indices in the batch. -/
structure ScopeGroup where
  /-- The scope of the group's first metric. -/
  scope : Scope
  members : List (Metric × Nat)

namespace ScopeGroup

/-- Adds a metric to the group of its scope, or to a new group at the end. -/
def insert (member : Metric × Nat) : List ScopeGroup → List ScopeGroup
  | [] => [⟨member.1.scope, [member]⟩]
  | group :: rest =>
      if group.scope.sameAs member.1.scope then
        { group with members := group.members ++ [member] } :: rest
      else group :: insert member rest

/-- The groups of a batch. -/
def ofBatch (batch : List Metric) : List ScopeGroup :=
  batch.zipIdx.foldl (fun groups member => insert member groups) []

end ScopeGroup

/-- A data point with the messages it belongs into. -/
structure PlacedPoint where
  /-- The index of the group among the groups. -/
  group : Nat
  scope : Scope
  /-- The index of the metric in the batch. -/
  index : Nat
  metric : Metric
  point : DataPoint

namespace PlacedPoint

/-- The points of a group, metric by metric. -/
def ofGroup (group : ScopeGroup) (index : Nat) : List PlacedPoint :=
  group.members.flatMap fun (metric, metricIndex) =>
    metric.data.points.map fun point => ⟨index, group.scope, metricIndex, metric, point⟩

/-- The points of a batch in the order in which they are sent. -/
def ofBatch (batch : List Metric) : List PlacedPoint :=
  (ScopeGroup.ofBatch batch).zipIdx.flatMap fun (group, index) => ofGroup group index

end PlacedPoint

end TelemetryExport
