import Mathlib.Data.List.Forall2
import TelemetryExport.Proofs.Record.Placement

/-! # Resolving properties

Several properties of a record may go to one place, and one of them is written. Which one
that is, and in which order those that are written come, is said here without the sets by
which it is found out: by the occurrences of a destination among the placed properties. An
occurrence gives way to a renamed one if it is not renamed itself, and to a later one
otherwise.
-/

namespace TelemetryExport

open MessagePack Encode

namespace Placed

/-! ## The place of a property -/

/-- Where a property goes, given the keys that the record writes itself. A claimed key is
nested under its own name, and so is one that is renamed to a claimed column. -/
inductive Assigned (claimed : String → Prop) (choose : String → ColumnChoice)
    (property : Attribute) : Placed → Prop
  | claimed (hkey : claimed property.key) :
      Assigned claimed choose property ⟨⟨true, property.key⟩, property.value, false⟩
  | dedicated (hkey : ¬claimed property.key) (hchoice : choose property.key = .dedicated) :
      Assigned claimed choose property ⟨⟨false, property.key⟩, property.value, false⟩
  | renamed {column : String} (hkey : ¬claimed property.key)
      (hchoice : choose property.key = .renamed column) (hcolumn : ¬claimed column) :
      Assigned claimed choose property ⟨⟨false, column⟩, property.value, true⟩
  | unnamed {column : String} (hkey : ¬claimed property.key)
      (hchoice : choose property.key = .renamed column) (hcolumn : claimed column) :
      Assigned claimed choose property ⟨⟨true, property.key⟩, property.value, false⟩
  | deferred (hkey : ¬claimed property.key) (hchoice : choose property.key = .deferred) :
      Assigned claimed choose property ⟨⟨true, property.key⟩, property.value, false⟩

theorem assigned_place {claims : String → Bool} {claimed : String → Prop}
    (hclaims : ∀ key, claims key = true ↔ claimed key) (choose : String → ColumnChoice)
    (property : Attribute) : Assigned claimed choose property (place claims choose property) := by
  rw [place]
  by_cases hkey : claims property.key = true
  · rw [if_pos hkey]
    exact .claimed ((hclaims _).mp hkey)
  rw [if_neg hkey]
  rw [hclaims] at hkey
  cases hchoice : choose property.key with
  | dedicated => exact .dedicated hkey hchoice
  | deferred => exact .deferred hkey hchoice
  | renamed column =>
      by_cases hcolumn : claims column = true
      · simp only [if_pos hcolumn]
        exact .unnamed hkey hchoice ((hclaims _).mp hcolumn)
      · simp only [if_neg hcolumn]
        exact .renamed hkey hchoice (mt (hclaims _).mpr hcolumn)

/-! ## What is written for a destination -/

/-- The entry for a destination: the last that was renamed to it, or the last of all if
none was. -/
def winner? (entries : List Placed) (destination : Destination) : Option Placed :=
  let candidates := entries.filter (·.destination == destination)
  (candidates.filter (·.renamed)).getLast?.or candidates.getLast?

/-- An occurrence, which is an entry with its position, that does not take another one's
place. -/
def GivesWay (other occurrence : Placed × Nat) : Prop :=
  (other.1.renamed = true → occurrence.1.renamed = true) ∧
    (other.1.renamed = occurrence.1.renamed → other.2 ≤ occurrence.2)

/-- What is written of the entries. -/
structure Resolves (entries written : List Placed) : Prop where
  /-- A destination that is used gets one entry, and no other destination gets any. -/
  filter_destination : ∀ destination,
    written.filter (·.destination == destination) = (winner? entries destination).toList
  /-- What is written comes in the order of the occurrences that were not displaced. -/
  exists_occurrences : ∃ occurrences : List (Placed × Nat),
    occurrences.Sublist entries.zipIdx ∧ occurrences.map Prod.fst = written ∧
      ∀ occurrence ∈ occurrences, ∀ other ∈ entries.zipIdx,
        other.1.destination = occurrence.1.destination → GivesWay other occurrence

theorem filter_eq_nil_of_forall_ne {entries : List Placed} {destination : Destination}
    (hothers : ∀ entry ∈ entries, entry.destination ≠ destination) :
    entries.filter (·.destination == destination) = [] := by
  rw [List.filter_eq_nil_iff]
  intro entry hmem
  rw [beq_iff_eq]
  exact hothers entry hmem

/-- Of the entries with a destination the last one is kept. -/
theorem filter_keepLast (entries : List Placed) (destination : Destination) :
    (keepLast entries).filter (·.destination == destination) =
      (entries.filter (·.destination == destination)).getLast?.toList := by
  induction entries with
  | nil => rfl
  | cons entry rest ih =>
      by_cases hrepeated : ∃ later ∈ rest, later.destination = entry.destination
      · rw [keepLast_cons_of_repeated hrepeated, ih]
        by_cases hsame : entry.destination = destination
        · obtain ⟨later, hmem, hlater⟩ := hrepeated
          have hfound : later ∈ rest.filter (·.destination == destination) :=
            List.mem_filter.mpr ⟨hmem, beq_iff_eq.mpr (hlater.trans hsame)⟩
          simp only [List.filter_cons, hsame, BEq.rfl, if_true]
          rw [List.getLast?_cons_of_ne_nil (List.ne_nil_of_mem hfound)]
        · simp only [List.filter_cons, beq_iff_eq, hsame, if_false]
      · have hlast : ∀ later ∈ rest, later.destination ≠ entry.destination :=
          fun later hmem hsame => hrepeated ⟨later, hmem, hsame⟩
        rw [keepLast_cons_of_last hlast]
        by_cases hsame : entry.destination = destination
        · subst hsame
          simp only [List.filter_cons, BEq.rfl, if_true, ih, filter_eq_nil_of_forall_ne hlast]
          rfl
        · simp only [List.filter_cons, beq_iff_eq, hsame, if_false, ih]

/-- Among the entries with a destination, those that were renamed displace the others. -/
theorem filter_isDisplaced (entries : List Placed) (destination : Destination) :
    (entries.filter (!isDisplaced entries ·)).filter (·.destination == destination) =
      if entries.any fun other => other.renamed && other.destination == destination then
        (entries.filter (·.destination == destination)).filter (·.renamed)
      else entries.filter (·.destination == destination) := by
  rw [List.filter_filter]
  split
  next hrenamed =>
    rw [List.filter_filter]
    apply List.filter_congr
    intro entry _
    cases hsame : entry.destination == destination with
    | false => rw [Bool.false_and, Bool.and_false]
    | true =>
        obtain rfl := beq_iff_eq.mp hsame
        rw [isDisplaced, hrenamed, Bool.and_true, Bool.not_not, Bool.true_and, Bool.and_true]
  next hnone =>
    apply List.filter_congr
    intro entry _
    cases hsame : entry.destination == destination with
    | false => rfl
    | true =>
        obtain rfl := beq_iff_eq.mp hsame
        rw [isDisplaced, Bool.eq_false_iff.mpr hnone, Bool.and_false]
        rfl

theorem winner?_eq (entries : List Placed) (destination : Destination) :
    winner? entries destination =
      ((entries.filter (!isDisplaced entries ·)).filter
        (·.destination == destination)).getLast? := by
  rw [winner?, filter_isDisplaced]
  split
  next hrenamed =>
    obtain ⟨other, hmem, hother⟩ := List.any_eq_true.mp hrenamed
    rw [Bool.and_eq_true] at hother
    have hfound : other ∈ (entries.filter (·.destination == destination)).filter (·.renamed) :=
      List.mem_filter.mpr ⟨List.mem_filter.mpr ⟨hmem, hother.2⟩, hother.1⟩
    rw [List.getLast?_eq_some_getLast (List.ne_nil_of_mem hfound), Option.some_or]
  next hnone =>
    have hnil : (entries.filter (·.destination == destination)).filter (·.renamed) = [] := by
      rw [List.filter_filter, List.filter_eq_nil_iff]
      intro entry hmem hentry
      exact hnone (List.any_eq_true.mpr ⟨entry, hmem, hentry⟩)
    rw [hnil, List.getLast?_nil, Option.none_or]

/-- In a numbered list the last occurrence of each destination is kept. -/
theorem exists_occurrences_keepLast {numbered : List (Placed × Nat)}
    (hnumbers : numbered.Pairwise fun first second => first.2 < second.2) :
    ∃ occurrences : List (Placed × Nat), occurrences.Sublist numbered ∧
      occurrences.map Prod.fst = keepLast (numbered.map Prod.fst) ∧
      ∀ occurrence ∈ occurrences, ∀ other ∈ numbered,
        other.1.destination = occurrence.1.destination → other.2 ≤ occurrence.2 := by
  induction numbered with
  | nil => exact ⟨[], List.Sublist.refl _, rfl, List.forall_mem_nil _⟩
  | cons first rest ih =>
      obtain ⟨hfirst, hrest⟩ := List.pairwise_cons.mp hnumbers
      obtain ⟨occurrences, hsublist, hkept, hlast⟩ := ih hrest
      have hbehind : ∀ occurrence ∈ occurrences, first.2 ≤ occurrence.2 :=
        fun occurrence hmem => Nat.le_of_lt (hfirst _ (hsublist.subset hmem))
      rw [List.map_cons]
      by_cases hrepeated :
          ∃ later ∈ rest.map Prod.fst, later.destination = first.1.destination
      · rw [keepLast_cons_of_repeated hrepeated]
        refine ⟨occurrences, hsublist.cons first, hkept,
          fun occurrence hmem other hother hsame => ?_⟩
        rcases List.mem_cons.mp hother with hfirst | hother
        · rw [hfirst]
          exact hbehind occurrence hmem
        · exact hlast occurrence hmem other hother hsame
      · rw [keepLast_cons_of_last fun later hmem hsame => hrepeated ⟨later, hmem, hsame⟩]
        refine ⟨first :: occurrences, hsublist.cons_cons first, by rw [List.map_cons, hkept],
          fun occurrence hmem other hother hsame => ?_⟩
        rcases List.mem_cons.mp hother with hfirst | hother
        · rw [hfirst]
          rcases List.mem_cons.mp hmem with rfl | hmem
          · exact Nat.le_refl _
          · exact hbehind occurrence hmem
        · rcases List.mem_cons.mp hmem with hfirst | hmem
          · rw [hfirst] at hsame
            exact absurd ⟨_, List.mem_map_of_mem hother, hsame⟩ hrepeated
          · exact hlast occurrence hmem other hother hsame

theorem resolves_survivors (entries : List Placed) : Resolves entries (survivors entries) where
  filter_destination := by
    intro destination
    rw [survivors_eq, filter_keepLast, winner?_eq]
  exists_occurrences := by
    have hnumbers : entries.zipIdx.Pairwise fun first second => first.2 < second.2 := by
      have hrange := List.pairwise_lt_range' (s := 0) (n := entries.length)
      rw [← List.zipIdx_map_snd, List.pairwise_map] at hrange
      exact hrange
    have hkept : (entries.zipIdx.filter fun occurrence =>
        !isDisplaced entries occurrence.1).map Prod.fst =
          entries.filter (!isDisplaced entries ·) := by
      rw [← Function.comp_def (fun entry => !isDisplaced entries entry) Prod.fst,
        ← List.filter_map, List.zipIdx_map_fst]
    obtain ⟨occurrences, hsublist, hwritten, hlast⟩ :=
      exists_occurrences_keepLast (hnumbers.filter fun occurrence =>
        !isDisplaced entries occurrence.1)
    rw [hkept, ← survivors_eq] at hwritten
    refine ⟨occurrences, hsublist.trans List.filter_sublist, hwritten,
      fun occurrence hmem other hother hsame => ?_⟩
    have hstays := (List.mem_filter.mp (hsublist.subset hmem)).2
    have hrenamed : other.1.renamed = true → occurrence.1.renamed = true := by
      intro hrenamed
      cases hplain : occurrence.1.renamed with
      | true => rfl
      | false =>
      have hany : (entries.any fun candidate => candidate.renamed &&
          candidate.destination == occurrence.1.destination) = true := by
        refine List.any_eq_true.mpr ⟨other.1, List.fst_mem_of_mem_zipIdx hother, ?_⟩
        rw [hrenamed, hsame, Bool.true_and, beq_self_eq_true]
      rw [isDisplaced, hany, hplain] at hstays
      cases hstays
    refine ⟨hrenamed, fun hequal => hlast occurrence hmem other ?_ hsame⟩
    -- Renamed like the occurrence and with its destination, the other is displaced as it is.
    refine List.mem_filter.mpr ⟨hother, ?_⟩
    rw [isDisplaced] at hstays ⊢
    rw [hequal, hsame]
    exact hstays

/-- The entries of a field map for what is written: the columns, and one nested map of the
rest, if there is any. -/
def fieldEntries (written : List Placed) : List (Value × Value) :=
  propertyEntries ((written.filter (!·.destination.nested)).map toAttribute)
    ((written.filter (·.destination.nested)).map toAttribute)

end Placed

namespace RecordTemplate

theorem claims_iff (template : RecordTemplate) (key : String) :
    template.claims key = true ↔ key ∈ reservedKeys ∨ key ∈ template.prepopulated := by
  rw [claims, Bool.or_eq_true, List.contains_iff_mem, List.contains_iff_mem, reservedKeys_eq]

/-- Properties that were written were placed and resolved. The bytes that were appended are
read as the entries of what was written, and each of these entries is counted. -/
theorem resolves_of_writeProperties (template : RecordTemplate) (choose : String → ColumnChoice)
    (properties : List Attribute) {map result : OpenMap} {buffer after : Buffer}
    (hvalid : buffer.Valid)
    (hok : template.writeProperties map choose properties buffer = .ok result after) :
    ∃ (placed written : List Placed) (bytes : List UInt8),
      List.Forall₂
        (Placed.Assigned (fun key => key ∈ reservedKeys ∨ key ∈ template.prepopulated) choose)
        (properties.filter (·.value ≠ .null)) placed ∧
      Placed.Resolves placed written ∧
      after.bytes = buffer.bytes ++ bytes ∧
      Value.readEntries (2 * bytes.length) (Placed.fieldEntries written).length bytes =
        some (Placed.fieldEntries written, []) ∧
      result = { map with count := map.count + (Placed.fieldEntries written).length } := by
  have hadds := template.adds_properties choose properties
  obtain ⟨hroom, hresult, rfl⟩ := (hadds.writes map).of_ok hvalid hok
  have hcapacity := hvalid.capacity_le
  have hread := hadds.encodes.reads (by omega) _ [] (Nat.le_refl _)
  rw [List.append_nil] at hread
  refine ⟨_, template.placements choose properties, _, ?_, Placed.resolves_survivors _,
    Buffer.bytes_append hroom, hread, hresult⟩
  rw [Attribute.filter_ne_null, List.forall₂_map_right_iff, List.forall₂_same]
  exact fun property _ => Placed.assigned_place template.claims_iff choose property

/-! ### Properties that go to one place -/

def sampleTemplate : RecordTemplate := ofParts "Log" [⟨"region", .null⟩]

def sampleChoice (key : String) : ColumnChoice :=
  if key = "db.name" then .renamed "dbName"
  else if key = "cloud.region" then .renamed "region"
  else if key = "dbName" then .dedicated
  else .deferred

/-- The first column gives way to the renamed one, and the second value of the user to the
third. -/
def sampleProperties : List Attribute :=
  [⟨"user", .int 1⟩, ⟨"dbName", .text "literal"⟩, ⟨"db.name", .text "orders"⟩,
    ⟨"user", .int 2⟩, ⟨"dbName", .text "later"⟩, ⟨"region", .text "eu"⟩,
    ⟨"cloud.region", .bool true⟩, ⟨"user", .null⟩]

theorem placements_sample : sampleTemplate.placements sampleChoice sampleProperties =
    [⟨⟨false, "dbName"⟩, .text "orders", true⟩, ⟨⟨true, "user"⟩, .int 2, false⟩,
      ⟨⟨true, "region"⟩, .text "eu", false⟩, ⟨⟨true, "cloud.region"⟩, .bool true, false⟩] := by
  have hplaced : ((sampleProperties.filter (!·.value.isNull)).map
      (Placed.place sampleTemplate.claims sampleChoice)) =
        [⟨⟨true, "user"⟩, .int 1, false⟩, ⟨⟨false, "dbName"⟩, .text "literal", false⟩,
          ⟨⟨false, "dbName"⟩, .text "orders", true⟩, ⟨⟨true, "user"⟩, .int 2, false⟩,
          ⟨⟨false, "dbName"⟩, .text "later", false⟩, ⟨⟨true, "region"⟩, .text "eu", false⟩,
          ⟨⟨true, "cloud.region"⟩, .bool true, false⟩] := by decide
  rw [placements, Placed.survivors_eq, hplaced]
  change Placed.keepLast [_, _, _, _, _] = _
  rw [Placed.keepLast_cons_of_repeated (by decide), Placed.keepLast_of_pairwise (by decide)]

theorem resolves_sampleProperties :
    ∃ result after, sampleTemplate.writeProperties ⟨⟨0, 3⟩, 1⟩ sampleChoice sampleProperties
        (Buffer.withCapacity 200) = .ok result after ∧
      ∃ (placed written : List Placed) (bytes : List UInt8),
        List.Forall₂ (Placed.Assigned (fun key => key ∈ reservedKeys ∨
            key ∈ sampleTemplate.prepopulated) sampleChoice)
          (sampleProperties.filter (·.value ≠ .null)) placed ∧
        Placed.Resolves placed written ∧
        after.bytes = (Buffer.withCapacity 200).bytes ++ bytes ∧
        Value.readEntries (2 * bytes.length) (Placed.fieldEntries written).length bytes =
          some (Placed.fieldEntries written, []) ∧
        result = ⟨⟨0, 3⟩, 1 + (Placed.fieldEntries written).length⟩ := by
  have hvalid := Buffer.withCapacity_valid 200
  have hlength : (propertyBytes (sampleTemplate.placedColumns sampleChoice sampleProperties)
      (sampleTemplate.placedDeferred sampleChoice sampleProperties)).length ≤ 200 := by
    rw [placedColumns, placedDeferred, placements_sample]
    decide
  have hok := (((sampleTemplate.adds_properties sampleChoice sampleProperties).writes
    ⟨⟨0, 3⟩, 1⟩).ok_iff hvalid).mpr (by
      rw [Buffer.capacity_withCapacity]
      change 0 + _ ≤ 200
      omega)
  obtain ⟨result, after, hok⟩ := hok
  exact ⟨result, after, hok, sampleTemplate.resolves_of_writeProperties sampleChoice
    sampleProperties hvalid hok⟩

end RecordTemplate

end TelemetryExport
