import TelemetryExport.Metric.Group

/-! # The order of sending

The groups of a batch are built by inserting one metric after the other. Described
at once they are the scopes of which no earlier one is the same, each with the
metrics of the batch that have such a scope. The points placed by these groups stand
group by group, in a group metric by metric, and never go back.
-/

namespace TelemetryExport

namespace Scope

/-- What makes two scopes one. -/
def identity (scope : Scope) : String × Option String := (scope.name, scope.version)

theorem sameAs_iff {scope other : Scope} :
    scope.sameAs other = true ↔ scope.identity = other.identity := by
  rw [sameAs, Bool.and_eq_true, beq_iff_eq, beq_iff_eq, identity, identity, Prod.mk.injEq]

/-- The scopes of which no earlier one is the same. -/
def firstSeen : List Scope → List Scope
  | [] => []
  | scope :: rest => scope :: (firstSeen rest).filter (·.identity ≠ scope.identity)

theorem firstSeen_cons (scope : Scope) (rest : List Scope) :
    firstSeen (scope :: rest) = scope :: (firstSeen rest).filter (!scope.sameAs ·) := by
  rw [firstSeen]
  congr 1
  apply List.filter_congr
  intro other _
  rw [Bool.eq_iff_iff, decide_eq_true_eq, Bool.not_eq_true', Bool.eq_false_iff, ne_eq, ne_eq,
    sameAs_iff, eq_comm]

theorem firstSeen_concat (scopes : List Scope) (last : Scope) :
    firstSeen (scopes ++ [last]) =
      if scopes.any (·.sameAs last) then firstSeen scopes else firstSeen scopes ++ [last] := by
  induction scopes with
  | nil => rfl
  | cons scope rest ih =>
      rw [List.cons_append, firstSeen_cons, firstSeen_cons, ih, List.any_cons]
      -- The first scope filters the last one out, or leaves it to those in between.
      cases hsame : scope.sameAs last with
      | true =>
          rw [Bool.true_or, if_pos rfl]
          cases rest.any (·.sameAs last) with
          | true => rw [if_pos rfl]
          | false =>
              rw [if_neg Bool.false_ne_true, List.filter_append, List.filter_cons, hsame]
              exact congrArg (scope :: ·) (List.append_nil _)
      | false =>
          rw [Bool.false_or]
          cases rest.any (·.sameAs last) with
          | true => rw [if_pos rfl, if_pos rfl]
          | false =>
              rw [if_neg Bool.false_ne_true, if_neg Bool.false_ne_true, List.filter_append,
                List.filter_cons, hsame]
              rfl

/-- Every scope is the same as one that was first seen. -/
theorem exists_firstSeen {scopes : List Scope} {scope : Scope} (hmem : scope ∈ scopes) :
    ∃ first ∈ firstSeen scopes, first.sameAs scope = true := by
  induction scopes with
  | nil => exact absurd hmem List.not_mem_nil
  | cons head rest ih =>
      cases hhead : head.sameAs scope with
      | true => exact ⟨head, List.mem_cons_self, hhead⟩
      | false =>
          have hrest : scope ∈ rest := by
            rcases List.mem_cons.mp hmem with rfl | hmem
            · rw [sameAs_iff.mpr rfl] at hhead
              cases hhead
            · exact hmem
          obtain ⟨first, hfirst, hsame⟩ := ih hrest
          refine ⟨first, List.mem_cons_of_mem _ (List.mem_filter.mpr ⟨hfirst, ?_⟩), hsame⟩
          rw [decide_eq_true_eq]
          intro hidentity
          rw [sameAs_iff.mpr (hidentity.symm.trans (sameAs_iff.mp hsame))] at hhead
          cases hhead

theorem mem_of_mem_firstSeen {scopes : List Scope} {scope : Scope}
    (hmem : scope ∈ firstSeen scopes) : scope ∈ scopes := by
  induction scopes with
  | nil => exact hmem
  | cons head rest ih =>
      rcases List.mem_cons.mp hmem with rfl | hmem
      · exact List.mem_cons_self
      · exact List.mem_cons_of_mem _ (ih (List.mem_filter.mp hmem).1)

/-- No two of the scopes first seen are the same. -/
theorem pairwise_firstSeen (scopes : List Scope) :
    (firstSeen scopes).Pairwise (·.identity ≠ ·.identity) := by
  induction scopes with
  | nil => exact List.Pairwise.nil
  | cons scope rest ih =>
      refine List.pairwise_cons.mpr ⟨?_, ih.filter _⟩
      intro other hother
      exact (of_decide_eq_true (List.mem_filter.mp hother).2).symm

end Scope

namespace ScopeGroup

/-- The members that have a scope. -/
def membersOf (scope : Scope) (members : List (Metric × Nat)) : List (Metric × Nat) :=
  members.filter (scope.sameAs ·.1.scope)

/-- The group of each scope, out of some members. -/
def collect (members : List (Metric × Nat)) (scopes : List Scope) : List ScopeGroup :=
  scopes.map fun scope => ⟨scope, membersOf scope members⟩

theorem membersOf_concat_same {scope : Scope} {members : List (Metric × Nat)}
    {member : Metric × Nat} (hsame : scope.sameAs member.1.scope = true) :
    membersOf scope (members ++ [member]) = membersOf scope members ++ [member] := by
  rw [membersOf, List.filter_append, List.filter_cons, if_pos hsame]
  rfl

theorem membersOf_concat_other {scope : Scope} {members : List (Metric × Nat)}
    {member : Metric × Nat} (hother : scope.sameAs member.1.scope = false) :
    membersOf scope (members ++ [member]) = membersOf scope members := by
  rw [membersOf, List.filter_append, List.filter_cons, hother]
  exact List.append_nil _

theorem collect_concat_other (members : List (Metric × Nat)) {member : Metric × Nat}
    {scopes : List Scope} (hother : ∀ scope ∈ scopes, scope.sameAs member.1.scope = false) :
    collect (members ++ [member]) scopes = collect members scopes := by
  apply List.map_congr_left
  intro scope hscope
  rw [membersOf_concat_other (hother scope hscope)]

/-- A member of a scope already there joins the group of that scope. -/
theorem insert_of_exists {members : List (Metric × Nat)} {member : Metric × Nat}
    {scopes : List Scope} (hdistinct : scopes.Pairwise (·.identity ≠ ·.identity))
    (hexists : ∃ scope ∈ scopes, scope.sameAs member.1.scope = true) :
    insert member (collect members scopes) = collect (members ++ [member]) scopes := by
  induction scopes with
  | nil =>
      obtain ⟨_, hmem, -⟩ := hexists
      exact absurd hmem List.not_mem_nil
  | cons scope rest ih =>
      obtain ⟨hhead, htail⟩ := List.pairwise_cons.mp hdistinct
      cases hsame : scope.sameAs member.1.scope with
      | true =>
          -- No later group can gain the member too, because no two have the same scope.
          have hother : ∀ other ∈ rest, other.sameAs member.1.scope = false := by
            intro other hmem
            rw [Bool.eq_false_iff, ne_eq, Scope.sameAs_iff]
            intro hidentity
            exact hhead other hmem ((Scope.sameAs_iff.mp hsame).trans hidentity.symm)
          have hrest := collect_concat_other members hother
          rw [collect, collect, List.map_cons, List.map_cons, insert, if_pos hsame,
            membersOf_concat_same hsame]
          exact congrArg (_ :: ·) hrest.symm
      | false =>
          have hexists : ∃ other ∈ rest, other.sameAs member.1.scope = true := by
            obtain ⟨other, hmem, hother⟩ := hexists
            rcases List.mem_cons.mp hmem with rfl | hmem
            · rw [hsame] at hother
              cases hother
            · exact ⟨other, hmem, hother⟩
          rw [collect, collect, List.map_cons, List.map_cons, insert, hsame,
            if_neg Bool.false_ne_true, membersOf_concat_other hsame]
          exact congrArg (_ :: ·) (ih htail hexists)

/-- A member of a scope that is not there gets a group at the end. -/
theorem insert_of_forall {members : List (Metric × Nat)} {member : Metric × Nat}
    {scopes : List Scope} (hother : ∀ scope ∈ scopes, scope.sameAs member.1.scope = false) :
    insert member (collect members scopes) =
      collect members scopes ++ [⟨member.1.scope, [member]⟩] := by
  induction scopes with
  | nil => rfl
  | cons scope rest ih =>
      have hrest := ih fun other hmem => hother other (List.mem_cons_of_mem _ hmem)
      rw [collect, List.map_cons, insert, hother scope List.mem_cons_self,
        if_neg Bool.false_ne_true]
      exact congrArg (_ :: ·) hrest

/-- The groups of members in order. -/
def ofMembers (members : List (Metric × Nat)) : List ScopeGroup :=
  collect members (Scope.firstSeen (members.map (·.1.scope)))

theorem insert_ofMembers (members : List (Metric × Nat)) (member : Metric × Nat) :
    insert member (ofMembers members) = ofMembers (members ++ [member]) := by
  have hdistinct := Scope.pairwise_firstSeen (members.map (·.1.scope))
  rw [ofMembers, ofMembers, List.map_append, List.map_singleton, Scope.firstSeen_concat]
  by_cases hany : (members.map (·.1.scope)).any (·.sameAs member.1.scope) = true
  · rw [if_pos hany]
    obtain ⟨scope, hmem, hsame⟩ := List.any_eq_true.mp hany
    obtain ⟨first, hfirst, hfirstSame⟩ := Scope.exists_firstSeen hmem
    refine insert_of_exists hdistinct ⟨first, hfirst, ?_⟩
    rw [Scope.sameAs_iff] at hsame hfirstSame ⊢
    exact hfirstSame.trans hsame
  · have hother : ∀ scope ∈ members.map (·.1.scope), scope.sameAs member.1.scope = false := by
      intro scope hmem
      rw [Bool.eq_false_iff]
      exact fun hsame => hany (List.any_eq_true.mpr ⟨scope, hmem, hsame⟩)
    have hfirst : ∀ scope ∈ Scope.firstSeen (members.map (·.1.scope)),
        scope.sameAs member.1.scope = false :=
      fun scope hmem => hother scope (Scope.mem_of_mem_firstSeen hmem)
    -- The scope is new, so that no earlier member belongs to its group.
    have hnone : membersOf member.1.scope members = [] := by
      rw [membersOf, List.filter_eq_nil_iff]
      intro earlier hmem hsame
      have hdiffers := hother _ (List.mem_map_of_mem hmem)
      rw [Scope.sameAs_iff.mpr (Scope.sameAs_iff.mp hsame).symm] at hdiffers
      cases hdiffers
    have hown : membersOf member.1.scope (members ++ [member]) = [member] := by
      rw [membersOf_concat_same (Scope.sameAs_iff.mpr rfl), hnone]
      rfl
    have hlast : collect (members ++ [member]) [member.1.scope] =
        [⟨member.1.scope, [member]⟩] := by
      rw [collect, List.map_singleton, hown]
    rw [if_neg hany, insert_of_forall hfirst, ← collect_concat_other members hfirst,
      ← hlast, collect, collect, collect, List.map_append]

/-- Inserting one metric after the other collects the groups of them all. -/
theorem ofBatch_eq (batch : List Metric) : ofBatch batch = ofMembers batch.zipIdx := by
  -- The induction needs the groups of whatever members were inserted before.
  have hfold : ∀ members done : List (Metric × Nat),
      members.foldl (fun groups member => insert member groups) (ofMembers done) =
        ofMembers (done ++ members) := by
    intro members
    induction members with
    | nil =>
        intro done
        rw [List.append_nil]
        rfl
    | cons member rest ih =>
        intro done
        rw [List.foldl_cons, insert_ofMembers, ih, List.append_assoc, List.singleton_append]
  exact hfold batch.zipIdx []

/-- The group of a scope in a batch. -/
def ofScope (batch : List Metric) (scope : Scope) : ScopeGroup :=
  ⟨scope, membersOf scope batch.zipIdx⟩

/-- There is one group for each of the scopes first seen. -/
theorem ofBatch_eq_map (batch : List Metric) :
    ofBatch batch = (Scope.firstSeen (batch.map (·.scope))).map (ofScope batch) := by
  have hscopes : batch.zipIdx.map (·.1.scope) = batch.map (·.scope) := by
    have hmetrics := congrArg (List.map (·.scope)) (List.zipIdx_map_fst 0 batch)
    rw [List.map_map] at hmetrics
    exact hmetrics
  rw [ofBatch_eq, ofMembers, hscopes, collect]
  rfl

end ScopeGroup

/-! ### How many points there are

The points of a batch are counted before the metrics are grouped. Grouping moves metrics
and loses none, so that as many points are placed.
-/

namespace Metric

theorem countPoints_append (metrics others : List Metric) :
    countPoints (metrics ++ others) = countPoints metrics + countPoints others := by
  induction metrics with
  | nil => exact (Nat.zero_add _).symm
  | cons metric rest ih => rw [List.cons_append, countPoints, countPoints, ih, Nat.add_assoc]

theorem countPoints_of_perm {metrics others : List Metric} (hperm : metrics.Perm others) :
    countPoints metrics = countPoints others := by
  induction hperm with
  | nil => rfl
  | cons metric _ ih => rw [countPoints, countPoints, ih]
  | swap metric other rest =>
      simp only [countPoints]
      omega
  | trans _ _ ihfirst ihsecond => exact ihfirst.trans ihsecond

end Metric

theorem MetricData.length_points (data : MetricData) : data.points.length = data.pointCount := by
  cases data <;> exact List.length_map _

namespace ScopeGroup

/-- The metrics of groups, group by group. -/
def metrics (groups : List ScopeGroup) : List Metric :=
  groups.flatMap (·.members.map (·.1))

theorem metrics_insert_perm (member : Metric × Nat) (groups : List ScopeGroup) :
    (metrics (insert member groups)).Perm (member.1 :: metrics groups) := by
  induction groups with
  | nil => exact List.Perm.refl _
  | cons group rest ih =>
      rw [insert]
      split
      next =>
        rw [metrics, metrics, List.flatMap_cons, List.flatMap_cons, List.map_append,
          List.append_assoc]
        exact List.perm_middle
      next => exact (ih.append_left _).trans List.perm_middle

/-- Each metric of a batch is in one group. -/
theorem metrics_ofBatch_perm (batch : List Metric) : (metrics (ofBatch batch)).Perm batch := by
  -- The induction needs the groups of whatever members were inserted before.
  have hfold : ∀ (members : List (Metric × Nat)) (groups : List ScopeGroup),
      (metrics (members.foldl (fun groups member => insert member groups) groups)).Perm
        (members.map (·.1) ++ metrics groups) := by
    intro members
    induction members with
    | nil => exact fun groups => List.Perm.refl _
    | cons member rest ih =>
        intro groups
        have hinserted := (metrics_insert_perm member groups).append_left (rest.map (·.1))
        exact (ih (insert member groups)).trans (hinserted.trans List.perm_middle)
  have hall := hfold batch.zipIdx []
  rw [List.zipIdx_map_fst, show metrics [] = [] from rfl, List.append_nil] at hall
  exact hall

end ScopeGroup

namespace PlacedPoint

theorem length_ofGroup (group : ScopeGroup) (index : Nat) :
    (ofGroup group index).length = Metric.countPoints (group.members.map (·.1)) := by
  rw [ofGroup]
  induction group.members with
  | nil => rfl
  | cons member rest ih =>
      rw [List.flatMap_cons, List.length_append, List.length_map, MetricData.length_points, ih,
        List.map_cons, Metric.countPoints]

theorem length_ofGroups (groups : List ScopeGroup) (first : Nat) :
    ((groups.zipIdx first).flatMap fun (group, index) => ofGroup group index).length =
      Metric.countPoints (ScopeGroup.metrics groups) := by
  induction groups generalizing first with
  | nil => rfl
  | cons group rest ih =>
      rw [List.zipIdx_cons, List.flatMap_cons, List.length_append, ih, length_ofGroup,
        ScopeGroup.metrics, ScopeGroup.metrics, List.flatMap_cons, Metric.countPoints_append]

/-- As many points are placed as were counted. -/
theorem length_ofBatch (batch : List Metric) :
    (ofBatch batch).length = Metric.countPoints batch := by
  rw [ofBatch, length_ofGroups, Metric.countPoints_of_perm (ScopeGroup.metrics_ofBatch_perm batch)]

/-! ### Points one after the other -/

/-- The data points in the list of an instrument. -/
def listedPoints : MetricData → List DataPoint
  | .gauge points => points.map .number
  | .sum points _ _ => points.map .number
  | .histogram points _ => points.map .histogram
  | .exponential points _ => points.map .exponential

theorem points_eq_listedPoints (data : MetricData) : data.points = listedPoints data := by
  cases data <;> rfl

/-- The points of a batch: the groups by the scopes first seen, the metrics of a group
in batch order, and the points of a metric as they stand. -/
def sendOrder (batch : List Metric) : List PlacedPoint :=
  (Scope.firstSeen (batch.map (·.scope))).zipIdx.flatMap fun (scope, group) =>
    (batch.zipIdx.filter (·.1.scope.identity = scope.identity)).flatMap fun (metric, index) =>
      (listedPoints metric.data).map fun point => ⟨group, scope, index, metric, point⟩

theorem ofBatch_eq_sendOrder (batch : List Metric) : ofBatch batch = sendOrder batch := by
  have hmembers (scope : Scope) : batch.zipIdx.filter (·.1.scope.identity = scope.identity) =
      batch.zipIdx.filter (scope.sameAs ·.1.scope) := by
    apply List.filter_congr
    intro member _
    rw [Bool.eq_iff_iff, decide_eq_true_eq, Scope.sameAs_iff, eq_comm]
  rw [ofBatch, ScopeGroup.ofBatch_eq_map, List.zipIdx_map, List.flatMap_map, sendOrder]
  simp only [hmembers, ← points_eq_listedPoints]
  rfl

/-- How points of a batch follow one another. -/
inductive Before (first second : PlacedPoint) : Prop where
  | group (hgroup : first.group < second.group)
  | metric (hgroup : first.group = second.group) (hscope : first.scope = second.scope)
      (hindex : first.index < second.index)
  | point (hgroup : first.group = second.group) (hscope : first.scope = second.scope)
      (hindex : first.index = second.index) (hmetric : first.metric = second.metric)

theorem pairwise_zipIdx {α : Type} (items : List α) : items.zipIdx.Pairwise (·.2 < ·.2) := by
  have hrange : (items.zipIdx.map (·.2)).Pairwise (· < ·) := by
    rw [List.zipIdx_map_snd]
    exact List.pairwise_lt_range'
  exact List.pairwise_map.mp hrange

theorem pairwise_sendOrder (batch : List Metric) : (sendOrder batch).Pairwise Before := by
  refine List.pairwise_flatMap.mpr ⟨?_, (pairwise_zipIdx _).imp ?_⟩
  · rintro ⟨scope, group⟩ -
    refine List.pairwise_flatMap.mpr ⟨?_, ((pairwise_zipIdx batch).filter _).imp ?_⟩
    · rintro ⟨metric, index⟩ -
      apply List.pairwise_map.mpr
      exact List.pairwise_of_forall fun _ _ => .point rfl rfl rfl rfl
    · rintro ⟨metric, index⟩ ⟨other, otherIndex⟩ hindex first hfirst second hsecond
      obtain ⟨_, -, rfl⟩ := List.mem_map.mp hfirst
      obtain ⟨_, -, rfl⟩ := List.mem_map.mp hsecond
      exact .metric rfl rfl hindex
  · rintro ⟨scope, group⟩ ⟨other, otherGroup⟩ hgroup first hfirst second hsecond
    obtain ⟨_, -, hfirst⟩ := List.mem_flatMap.mp hfirst
    obtain ⟨_, -, hsecond⟩ := List.mem_flatMap.mp hsecond
    obtain ⟨_, -, rfl⟩ := List.mem_map.mp hfirst
    obtain ⟨_, -, rfl⟩ := List.mem_map.mp hsecond
    exact .group hgroup

/-- Every point is sent as one of its metric. -/
theorem point_mem_of_mem_sendOrder {batch : List Metric} {item : PlacedPoint}
    (hmem : item ∈ sendOrder batch) : item.point ∈ item.metric.data.points := by
  obtain ⟨_, -, hmem⟩ := List.mem_flatMap.mp hmem
  obtain ⟨_, -, hmem⟩ := List.mem_flatMap.mp hmem
  obtain ⟨point, hpoint, rfl⟩ := List.mem_map.mp hmem
  rw [points_eq_listedPoints]
  exact hpoint

/-! ### The first points of a batch -/

section

variable {batch : List Metric} {before rest : List PlacedPoint}

theorem pairwise_of_sendOrder_eq (hbatch : sendOrder batch = before ++ rest) :
    before.Pairwise Before := by
  have hsorted := pairwise_sendOrder batch
  rw [hbatch] at hsorted
  exact hsorted.sublist (List.sublist_append_left _ _)

theorem point_mem_of_sendOrder_eq (hbatch : sendOrder batch = before ++ rest)
    {item : PlacedPoint} (hmem : item ∈ before) : item.point ∈ item.metric.data.points := by
  have hsent : item ∈ sendOrder batch := by
    rw [hbatch]
    exact List.mem_append_left _ hmem
  exact point_mem_of_mem_sendOrder hsent

end

end PlacedPoint

end TelemetryExport
