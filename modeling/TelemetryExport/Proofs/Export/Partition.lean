import TelemetryExport.Proofs.Export.Grouping

/-! # Groups as a partition of a batch

Every metric of a batch is in exactly one of its groups, in the group of its scope's name and
version and no other. Nothing is reordered: the metrics of a group stand in the order of the
batch, and the groups in the order of their first metrics, whose scopes are those of the
groups.
-/

namespace TelemetryExport

namespace Scope

variable {scopes : List Scope} {scope other : Scope} {index : Nat}

theorem sameAs_comm (scope other : Scope) : scope.sameAs other = other.sameAs scope := by
  rw [Bool.eq_iff_iff, sameAs_iff, sameAs_iff, eq_comm]

/-- The scope stands at the index, and none before it is the same. -/
structure FirstAt (scopes : List Scope) (scope : Scope) (index : Nat) : Prop where
  getElem?_eq : scopes[index]? = some scope
  le_of_same : ∀ later other, scopes[later]? = some other → scope.sameAs other = true →
    index ≤ later

theorem FirstAt.zero (scope : Scope) (rest : List Scope) : FirstAt (scope :: rest) scope 0 where
  getElem?_eq := List.getElem?_cons_zero
  le_of_same := fun later _ _ _ => Nat.zero_le later

/-- Behind a scope that is not the same, a scope is first where it is first in the rest. -/
theorem firstAt_cons_iff {head : Scope} {rest : List Scope} (hdiffers : head.sameAs scope = false) :
    FirstAt (head :: rest) scope index ↔
      ∃ before, index = before + 1 ∧ FirstAt rest scope before := by
  constructor
  · rintro ⟨hget, hle⟩
    cases index with
    | zero =>
        rw [List.getElem?_cons_zero, Option.some_inj] at hget
        rw [hget, sameAs_iff.mpr rfl] at hdiffers
        cases hdiffers
    | succ before =>
        refine ⟨before, rfl, hget, fun later other hlater hsame => ?_⟩
        exact Nat.le_of_succ_le_succ (hle (later + 1) other hlater hsame)
  · rintro ⟨before, rfl, hget, hle⟩
    refine ⟨hget, fun later other hlater hsame => ?_⟩
    cases later with
    | zero =>
        rw [List.getElem?_cons_zero, Option.some_inj] at hlater
        rw [sameAs_comm, hlater, hsame] at hdiffers
        cases hdiffers
    | succ later => exact Nat.succ_le_succ (hle later other hlater hsame)

theorem mem_filter_firstSeen {head : Scope} {rest : List Scope}
    (hmem : scope ∈ (firstSeen rest).filter (·.identity ≠ head.identity)) :
    scope ∈ firstSeen rest ∧ head.sameAs scope = false := by
  rw [List.mem_filter, decide_eq_true_eq] at hmem
  rw [Bool.eq_false_iff, ne_eq, sameAs_iff]
  exact ⟨hmem.1, hmem.2.symm⟩

theorem exists_firstAt (hmem : scope ∈ firstSeen scopes) :
    ∃ index, FirstAt scopes scope index := by
  induction scopes with
  | nil => exact absurd hmem List.not_mem_nil
  | cons head rest ih =>
      rcases List.mem_cons.mp hmem with rfl | hmem
      · exact ⟨0, .zero scope rest⟩
      · obtain ⟨hrest, hdiffers⟩ := mem_filter_firstSeen hmem
        obtain ⟨before, hbefore⟩ := ih hrest
        exact ⟨before + 1, (firstAt_cons_iff hdiffers).mpr ⟨before, rfl, hbefore⟩⟩

/-- The scopes first seen stand in the order in which they are first. -/
theorem pairwise_firstAt (scopes : List Scope) :
    (firstSeen scopes).Pairwise fun scope later => ∀ index laterIndex,
      FirstAt scopes scope index → FirstAt scopes later laterIndex → index < laterIndex := by
  induction scopes with
  | nil => exact List.Pairwise.nil
  | cons head rest ih =>
      refine List.pairwise_cons.mpr ⟨?_, ?_⟩
      · intro later hlater index laterIndex hindex hlaterIndex
        have hdiffers := (mem_filter_firstSeen hlater).2
        have hzero := hindex.le_of_same 0 head List.getElem?_cons_zero (sameAs_iff.mpr rfl)
        obtain ⟨before, rfl, -⟩ := (firstAt_cons_iff hdiffers).mp hlaterIndex
        omega
      · refine List.Pairwise.imp_of_mem ?_ (ih.filter _)
        intro scope later hscope hlater hbefore index laterIndex hindex hlaterIndex
        have hdiffers := (mem_filter_firstSeen hscope).2
        have hlaterDiffers := (mem_filter_firstSeen hlater).2
        obtain ⟨first, rfl, hfirst⟩ := (firstAt_cons_iff hdiffers).mp hindex
        obtain ⟨laterFirst, rfl, hlaterFirst⟩ := (firstAt_cons_iff hlaterDiffers).mp hlaterIndex
        exact Nat.succ_lt_succ (hbefore first laterFirst hfirst hlaterFirst)

end Scope

namespace ScopeGroup

/-- The indices of a group's metrics in the batch. -/
def indices (group : ScopeGroup) : List Nat := group.members.map Prod.snd

def IsSmallest (group : ScopeGroup) (index : Nat) : Prop :=
  index ∈ group.indices ∧ ∀ other ∈ group.indices, index ≤ other

/-- The groups share out the metrics of the batch and keep their order. -/
structure Partitions (batch : List Metric) (groups : List ScopeGroup) : Prop where
  /-- Every index of the batch is in one group, once, and there are no others. -/
  perm_indices : (groups.flatMap indices).Perm (List.range batch.length)
  ascending : ∀ group ∈ groups, group.indices.Pairwise (· < ·)
  /-- A member is the metric at its index. -/
  getElem?_of_mem : ∀ group ∈ groups, ∀ member ∈ group.members, batch[member.2]? = some member.1
  /-- To have no version is not to have the empty one. -/
  together_iff : ∀ index other metric otherMetric, batch[index]? = some metric →
    batch[other]? = some otherMetric →
      ((∃ group ∈ groups, index ∈ group.indices ∧ other ∈ group.indices) ↔
        metric.scope.name = otherMetric.scope.name ∧
          metric.scope.version = otherMetric.scope.version)
  /-- The scope of a group, with its properties, is that of its first metric. -/
  exists_smallest : ∀ group ∈ groups, ∃ index metric, group.IsSmallest index ∧
    batch[index]? = some metric ∧ group.scope = metric.scope
  smallest_lt : groups.Pairwise fun group later => ∀ index laterIndex,
    group.IsSmallest index → later.IsSmallest laterIndex → index < laterIndex

variable {batch : List Metric} {scope : Scope} {index : Nat}

theorem mem_indices_ofScope : index ∈ (ofScope batch scope).indices ↔
    ∃ metric, batch[index]? = some metric ∧ scope.sameAs metric.scope = true := by
  simp only [indices, ofScope, membersOf, List.mem_map, List.mem_filter]
  constructor
  · rintro ⟨⟨metric, _⟩, ⟨hmem, hsame⟩, rfl⟩
    exact ⟨metric, List.mem_zipIdx_iff_getElem?.mp hmem, hsame⟩
  · rintro ⟨metric, hget, hsame⟩
    exact ⟨(metric, index), ⟨List.mem_zipIdx_iff_getElem?.mpr hget, hsame⟩, rfl⟩

theorem pairwise_indices_ofScope (batch : List Metric) (scope : Scope) :
    (ofScope batch scope).indices.Pairwise (· < ·) :=
  List.pairwise_map.mpr ((PlacedPoint.pairwise_zipIdx batch).filter _)

theorem isSmallest_ofScope (hfirst : Scope.FirstAt (batch.map (·.scope)) scope index) :
    (ofScope batch scope).IsSmallest index := by
  obtain ⟨hget, hle⟩ := hfirst
  rw [List.getElem?_map, Option.map_eq_some_iff] at hget
  obtain ⟨metric, hmetric, hscope⟩ := hget
  refine ⟨mem_indices_ofScope.mpr ⟨metric, hmetric, ?_⟩, fun other hother => ?_⟩
  · rw [hscope, Scope.sameAs_iff]
  · obtain ⟨otherMetric, hotherMetric, hsame⟩ := mem_indices_ofScope.mp hother
    refine hle other otherMetric.scope ?_ hsame
    rw [List.getElem?_map, hotherMetric, Option.map_some]

theorem IsSmallest.unique {group : ScopeGroup} {other : Nat} (hindex : group.IsSmallest index)
    (hother : group.IsSmallest other) : index = other :=
  Nat.le_antisymm (hindex.2 other hother.1) (hother.2 index hindex.1)

/-- No index is in the groups of two scopes that are not the same. -/
theorem disjoint_ofScope {other : Scope} (hdiffers : scope.identity ≠ other.identity)
    {otherIndex : Nat} (hindex : index ∈ (ofScope batch scope).indices)
    (hother : otherIndex ∈ (ofScope batch other).indices) : index ≠ otherIndex := by
  rintro rfl
  obtain ⟨metric, hget, hsame⟩ := mem_indices_ofScope.mp hindex
  obtain ⟨_, hget', hsame'⟩ := mem_indices_ofScope.mp hother
  rw [hget, Option.some_inj] at hget'
  subst hget'
  exact hdiffers ((Scope.sameAs_iff.mp hsame).trans (Scope.sameAs_iff.mp hsame').symm)

/-- A metric is in the group of the scope that was seen first of those like its own. -/
theorem exists_ofScope {metric : Metric} (hget : batch[index]? = some metric) :
    ∃ scope ∈ Scope.firstSeen (batch.map (·.scope)), scope.sameAs metric.scope = true :=
  Scope.exists_firstSeen (List.mem_map_of_mem (List.mem_of_getElem? hget))

theorem nodup_flatMap_indices (batch : List Metric) :
    ((ofBatch batch).flatMap indices).Nodup := by
  rw [ofBatch_eq_map, List.flatMap_map]
  refine List.pairwise_flatMap.mpr ⟨fun scope _ => ?_, ?_⟩
  · exact (pairwise_indices_ofScope batch scope).imp Nat.ne_of_lt
  · exact (Scope.pairwise_firstSeen _).imp fun hdiffers _ hindex _ hother =>
      disjoint_ofScope hdiffers hindex hother

theorem mem_flatMap_indices :
    index ∈ (ofBatch batch).flatMap indices ↔ index < batch.length := by
  rw [ofBatch_eq_map, List.flatMap_map, List.mem_flatMap]
  constructor
  · rintro ⟨scope, -, hmem⟩
    obtain ⟨metric, hget, -⟩ := mem_indices_ofScope.mp hmem
    exact (List.getElem?_eq_some_iff.mp hget).1
  · intro hlt
    have hget := List.getElem?_eq_getElem hlt
    obtain ⟨scope, hscope, hsame⟩ := exists_ofScope hget
    exact ⟨scope, hscope, mem_indices_ofScope.mpr ⟨_, hget, hsame⟩⟩

theorem together_ofBatch_iff {other : Nat} {metric otherMetric : Metric}
    (hmetric : batch[index]? = some metric) (hother : batch[other]? = some otherMetric) :
    (∃ group ∈ ofBatch batch, index ∈ group.indices ∧ other ∈ group.indices) ↔
      metric.scope.identity = otherMetric.scope.identity := by
  rw [ofBatch_eq_map]
  constructor
  · rintro ⟨_, hgroup, hindex, hotherIndex⟩
    obtain ⟨scope, -, rfl⟩ := List.mem_map.mp hgroup
    obtain ⟨_, hget, hsame⟩ := mem_indices_ofScope.mp hindex
    obtain ⟨_, hget', hsame'⟩ := mem_indices_ofScope.mp hotherIndex
    rw [hmetric, Option.some_inj] at hget
    rw [hother, Option.some_inj] at hget'
    subst hget hget'
    exact (Scope.sameAs_iff.mp hsame).symm.trans (Scope.sameAs_iff.mp hsame')
  · intro hidentity
    obtain ⟨scope, hscope, hsame⟩ := exists_ofScope hmetric
    refine ⟨_, List.mem_map_of_mem hscope, mem_indices_ofScope.mpr ⟨metric, hmetric, hsame⟩,
      mem_indices_ofScope.mpr ⟨otherMetric, hother, ?_⟩⟩
    rw [Scope.sameAs_iff] at hsame ⊢
    exact hsame.trans hidentity

/-- The groups of every batch are a partition of it that keeps the order. -/
theorem partitions_ofBatch (batch : List Metric) : Partitions batch (ofBatch batch) where
  perm_indices := by
    refine (List.perm_ext_iff_of_nodup (nodup_flatMap_indices batch) List.nodup_range).mpr ?_
    intro index
    rw [mem_flatMap_indices, List.mem_range]
  ascending := by
    rw [ofBatch_eq_map]
    intro group hgroup
    obtain ⟨scope, -, rfl⟩ := List.mem_map.mp hgroup
    exact pairwise_indices_ofScope batch scope
  getElem?_of_mem := by
    rw [ofBatch_eq_map]
    intro group hgroup member hmember
    obtain ⟨scope, -, rfl⟩ := List.mem_map.mp hgroup
    exact List.mem_zipIdx_iff_getElem?.mp (List.mem_filter.mp hmember).1
  together_iff := by
    intro index other metric otherMetric hmetric hother
    rw [together_ofBatch_iff hmetric hother, Scope.identity, Scope.identity, Prod.mk.injEq]
  exists_smallest := by
    rw [ofBatch_eq_map]
    intro group hgroup
    obtain ⟨scope, hscope, rfl⟩ := List.mem_map.mp hgroup
    obtain ⟨index, hfirst⟩ := Scope.exists_firstAt hscope
    have hget := hfirst.getElem?_eq
    rw [List.getElem?_map, Option.map_eq_some_iff] at hget
    obtain ⟨metric, hmetric, hmetricScope⟩ := hget
    exact ⟨index, metric, isSmallest_ofScope hfirst, hmetric, hmetricScope.symm⟩
  smallest_lt := by
    rw [ofBatch_eq_map]
    refine List.pairwise_map.mpr (List.Pairwise.imp_of_mem ?_ (Scope.pairwise_firstAt _))
    intro scope later hscope hlater hbefore index laterIndex hindex hlaterIndex
    -- The smallest index of a group is where its scope was first seen.
    obtain ⟨first, hfirst⟩ := Scope.exists_firstAt hscope
    obtain ⟨laterFirst, hlaterFirst⟩ := Scope.exists_firstAt hlater
    rw [hindex.unique (isSmallest_ofScope hfirst),
      hlaterIndex.unique (isSmallest_ofScope hlaterFirst)]
    exact hbefore first laterFirst hfirst hlaterFirst

example :
    let metric (version : Option String) : Metric := ⟨⟨"scope", version, []⟩, "", "", "", .gauge []⟩
    (ofBatch [metric (some ""), metric none, metric (some "")]).map indices = [[0, 2], [1]] := by
  decide

end ScopeGroup

end TelemetryExport
