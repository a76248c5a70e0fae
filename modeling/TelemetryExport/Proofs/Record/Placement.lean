import TelemetryExport.Proofs.Record.Template

/-! # Where properties are written

Placement keeps sets of the destinations it has seen. Here the sets are replaced by
what they say about the list of entries: an entry is dropped where a later one has its
destination, or where one that was renamed has. What is kept is written in two parts,
the columns and one nested map.
-/

namespace TelemetryExport

open MessagePack Encode

namespace Placed

theorem keepUnseen_seen {entry : Placed} {later : Std.HashSet Destination × List Placed}
    (hseen : later.1.contains entry.destination = true) : keepUnseen entry later = later := by
  rw [keepUnseen, if_pos hseen]

theorem keepUnseen_unseen {entry : Placed} {later : Std.HashSet Destination × List Placed}
    (hunseen : ¬later.1.contains entry.destination = true) :
    keepUnseen entry later = (later.1.insert entry.destination, entry :: later.2) := by
  rw [keepUnseen, if_neg hunseen]

/-- The destinations that were seen are those of the entries. -/
theorem contains_foldr_keepUnseen (entries : List Placed) (destination : Destination) :
    (entries.foldr keepUnseen (∅, [])).1.contains destination = true ↔
      ∃ entry ∈ entries, entry.destination = destination := by
  induction entries with
  | nil => simp
  | cons entry rest ih =>
      rw [List.foldr_cons]
      -- An entry that is dropped adds nothing to the set, but then its destination is in it.
      by_cases hseen :
          (rest.foldr keepUnseen (∅, [])).1.contains entry.destination = true
      · rw [keepUnseen_seen hseen, ih]
        constructor
        · rintro ⟨later, hmem, hsame⟩
          exact ⟨later, List.mem_cons_of_mem _ hmem, hsame⟩
        · rintro ⟨later, hmem, rfl⟩
          rcases List.mem_cons.mp hmem with rfl | hmem
          · exact ih.mp hseen
          · exact ⟨later, hmem, rfl⟩
      · rw [keepUnseen_unseen hseen, Std.HashSet.contains_insert, Bool.or_eq_true, ih,
          beq_iff_eq]
        constructor
        · rintro (rfl | ⟨later, hmem, hsame⟩)
          · exact ⟨entry, List.mem_cons_self, rfl⟩
          · exact ⟨later, List.mem_cons_of_mem _ hmem, hsame⟩
        · rintro ⟨later, hmem, rfl⟩
          rcases List.mem_cons.mp hmem with rfl | hmem
          · exact .inl rfl
          · exact .inr ⟨later, hmem, rfl⟩

/-- The first entry is kept unless its destination comes again. -/
theorem keepLast_cons_of_repeated {entry : Placed} {rest : List Placed}
    (hrepeated : ∃ later ∈ rest, later.destination = entry.destination) :
    keepLast (entry :: rest) = keepLast rest := by
  have hseen := (contains_foldr_keepUnseen rest entry.destination).mpr hrepeated
  rw [keepLast, List.foldr_cons, keepUnseen_seen hseen, keepLast]

theorem keepLast_cons_of_last {entry : Placed} {rest : List Placed}
    (hlast : ∀ later ∈ rest, later.destination ≠ entry.destination) :
    keepLast (entry :: rest) = entry :: keepLast rest := by
  have hunseen : ¬(rest.foldr keepUnseen (∅, [])).1.contains entry.destination = true := by
    rw [contains_foldr_keepUnseen]
    rintro ⟨later, hmem, hsame⟩
    exact hlast later hmem hsame
  rw [keepLast, List.foldr_cons, keepUnseen_unseen hunseen, keepLast]

theorem keepLast_sublist (entries : List Placed) : (keepLast entries).Sublist entries := by
  induction entries with
  | nil => exact List.Sublist.refl _
  | cons entry rest ih =>
      by_cases hrepeated : ∃ later ∈ rest, later.destination = entry.destination
      · rw [keepLast_cons_of_repeated hrepeated]
        exact ih.cons entry
      · rw [keepLast_cons_of_last fun later hmem hsame => hrepeated ⟨later, hmem, hsame⟩]
        exact ih.cons_cons entry

/-- Entries that all go to different places are all kept. -/
theorem keepLast_of_pairwise {entries : List Placed}
    (hdistinct : entries.Pairwise fun entry later => entry.destination ≠ later.destination) :
    keepLast entries = entries := by
  induction entries with
  | nil => rfl
  | cons entry rest ih =>
      obtain ⟨hfirst, hrest⟩ := List.pairwise_cons.mp hdistinct
      rw [keepLast_cons_of_last fun later hmem => (hfirst later hmem).symm, ih hrest]

/-- No two entries that are kept go to one place. -/
theorem keepLast_pairwise (entries : List Placed) :
    (keepLast entries).Pairwise fun entry later => entry.destination ≠ later.destination := by
  induction entries with
  | nil => exact List.Pairwise.nil
  | cons entry rest ih =>
      by_cases hrepeated : ∃ later ∈ rest, later.destination = entry.destination
      · rw [keepLast_cons_of_repeated hrepeated]
        exact ih
      · rw [keepLast_cons_of_last fun later hmem hsame => hrepeated ⟨later, hmem, hsame⟩]
        refine List.pairwise_cons.mpr ⟨?_, ih⟩
        intro later hmem hsame
        exact hrepeated ⟨later, (keepLast_sublist rest).subset hmem, hsame.symm⟩

theorem contains_renamedTo (entries : List Placed) (destination : Destination) :
    (renamedTo entries).contains destination =
      entries.any fun entry => entry.renamed && entry.destination == destination := by
  rw [renamedTo, Std.HashSet.contains_ofList, Bool.eq_iff_iff, List.contains_iff_mem,
    List.mem_map, List.any_eq_true]
  constructor
  · rintro ⟨entry, hmem, rfl⟩
    obtain ⟨hmem, hrenamed⟩ := List.mem_filter.mp hmem
    exact ⟨entry, hmem, by rw [hrenamed, Bool.true_and, beq_self_eq_true]⟩
  · rintro ⟨entry, hmem, hentry⟩
    obtain ⟨hrenamed, hsame⟩ := Bool.and_eq_true_iff.mp hentry
    exact ⟨entry, List.mem_filter.mpr ⟨hmem, hrenamed⟩, beq_iff_eq.mp hsame⟩

/-- Whether a renamed entry takes the place of another one. -/
def isDisplaced (entries : List Placed) (entry : Placed) : Bool :=
  !entry.renamed && entries.any fun other => other.renamed && other.destination == entry.destination

theorem survivors_eq (entries : List Placed) :
    survivors entries = keepLast (entries.filter (!isDisplaced entries ·)) := by
  simp only [survivors, contains_renamedTo, isDisplaced, Bool.not_and, Bool.not_not]

theorem survivors_sublist (entries : List Placed) : (survivors entries).Sublist entries := by
  rw [survivors_eq]
  exact (keepLast_sublist _).trans List.filter_sublist

theorem survivors_pairwise (entries : List Placed) :
    (survivors entries).Pairwise fun entry later => entry.destination ≠ later.destination := by
  rw [survivors_eq]
  exact keepLast_pairwise _

/-- In one map, entries that go to different places have different keys. -/
theorem nodup_keys {entries : List Placed}
    (hdistinct : entries.Pairwise fun entry later => entry.destination ≠ later.destination)
    {nested : Bool} (hnested : ∀ entry ∈ entries, entry.destination.nested = nested) :
    ((entries.map toAttribute).map Attribute.key).Nodup := by
  rw [List.map_map, List.Nodup, List.pairwise_map]
  apply hdistinct.imp_of_mem
  intro first second hfirst hsecond hne hkey
  apply hne
  have hmaps : first.destination.nested = second.destination.nested := by
    rw [hnested first hfirst, hnested second hsecond]
  have hkeys : first.destination.key = second.destination.key := hkey
  calc first.destination = ⟨first.destination.nested, first.destination.key⟩ := rfl
    _ = ⟨second.destination.nested, second.destination.key⟩ := by rw [hmaps, hkeys]

/-- An entry outside the nested map has a key that the record does not write itself. -/
theorem claims_place {claims : String → Bool} {choose : String → ColumnChoice}
    {property : Attribute} (hcolumn : (place claims choose property).destination.nested = false) :
    claims (place claims choose property).destination.key = false := by
  cases hclaimed : claims property.key with
  | true =>
      simp only [place, hclaimed, if_true] at hcolumn
      cases hcolumn
  | false =>
      cases hchoice : choose property.key with
      | dedicated =>
          simp only [place, hclaimed, hchoice, if_neg Bool.false_ne_true]
      | renamed column =>
          cases htaken : claims column with
          | true =>
              simp only [place, hclaimed, hchoice, htaken, if_neg Bool.false_ne_true, if_true]
                at hcolumn
              cases hcolumn
          | false =>
              simp only [place, hclaimed, hchoice, htaken, if_neg Bool.false_ne_true]
      | deferred =>
          simp only [place, hclaimed, hchoice, if_neg Bool.false_ne_true] at hcolumn
          cases hcolumn

end Placed

/-- The keys that records may write themselves. -/
def reservedKeys : List String :=
  ["env_name", "env_properties", "env_dt_traceId", "env_dt_spanId", "env_dt_traceFlags",
    "env_ex_type", "env_ex_msg", "severityText", "severityNumber", "name", "eventId",
    "eventName", "body", "parentId", "kind", "startTime", "success", "statusMessage", "links"]

theorem reservedKeys_eq : reservedKeys = Column.reserved := rfl

/-- Whether every record with the configured fields writes the key itself, also where the
field has no value. -/
def isTaken (configured : List Attribute) (key : String) : Bool :=
  reservedKeys.contains key || configured.any (·.key == key)

/-- The entries of properties: the columns, and one nested map of the others, if there
are any. -/
def propertyEntries (columns deferred : List Attribute) : List (Value × Value) :=
  columns.map Attribute.entry ++
    if deferred = [] then []
    else [(.ofText "env_properties", .map (deferred.map Attribute.entry))]

/-- The bytes of these entries. -/
def propertyBytes (columns deferred : List Attribute) : List UInt8 :=
  columns.flatMap Attribute.entryBytes ++
    if deferred = [] then []
    else textBytes Column.envProperties ++ (Slot.countedHeader Slot.map16 deferred.length ++
      deferred.flatMap Attribute.entryBytes)

namespace RecordTemplate

/-- Writes properties that are already placed. -/
def writeSplit (map : OpenMap) (columns deferred : List Attribute) : Encode OpenMap := do
  let map ← map.fields columns
  if deferred.isEmpty then
    return map
  else
    map.entry Column.envProperties do
      let nested ← OpenMap.start
      let nested ← nested.fields deferred
      nested.close

/-- Placed properties add their columns and at most one entry more, the nested map. -/
theorem adds_writeSplit {columns deferred : List Attribute}
    (hcolumns : ∀ property ∈ columns, property.value.isNull = false)
    (hdeferred : ∀ property ∈ deferred, property.value.isNull = false) :
    OpenMap.Adds (fun map => writeSplit map columns deferred)
      (propertyBytes columns deferred) (propertyEntries columns deferred) := by
  have hfirst := OpenMap.adds_fields hcolumns
  by_cases hempty : deferred = []
  · have hnone := hfirst.bind OpenMap.adds_nothing
    rw [propertyBytes, propertyEntries, if_pos hempty, if_pos hempty]
    simp only [writeSplit, List.isEmpty_iff.mpr hempty, if_true]
    exact hnone
  · have hnested := hfirst.bind
      (OpenMap.adds_entry Column.envProperties (OpenMap.adds_fields hdeferred).emits_map)
    rw [List.length_map] at hnested
    rw [propertyBytes, propertyEntries, if_neg hempty, if_neg hempty]
    simp only [writeSplit, List.isEmpty_eq_false_iff.mpr hempty, if_neg Bool.false_ne_true]
    exact hnested

theorem claims_ofParts (table : String) (configured : List Attribute) (key : String) :
    (ofParts table configured).claims key = isTaken configured key := by
  have hconfigured : (configured.map (·.key)).contains key = configured.any (·.key == key) := by
    rw [List.contains_eq_any_beq, List.any_map]
    simp only [Function.comp_def, Bool.beq_comm]
  rw [claims, ofParts, hconfigured, isTaken, reservedKeys_eq]

variable (template : RecordTemplate) (choose : String → ColumnChoice)
  (properties : List Attribute)

/-- The properties that a record writes as columns. -/
def placedColumns : List Attribute :=
  ((template.placements choose properties).filter (!·.destination.nested)).map Placed.toAttribute

/-- The properties that a record writes into the nested map. -/
def placedDeferred : List Attribute :=
  ((template.placements choose properties).filter (·.destination.nested)).map Placed.toAttribute

theorem place_value (claims : String → Bool) (property : Attribute) :
    (Placed.place claims choose property).value = property.value := by
  unfold Placed.place
  split
  · rfl
  · split
    · rfl
    · split
      · rfl
      · rfl
    · rfl

/-- Nothing that is written lacks a value. -/
theorem isNull_of_mem_placements {placed : Placed}
    (hmem : placed ∈ template.placements choose properties) : placed.value.isNull = false := by
  have hplaced := (Placed.survivors_sublist _).subset hmem
  obtain ⟨property, hproperty, rfl⟩ := List.mem_map.mp hplaced
  have hvalue := (List.mem_filter.mp hproperty).2
  rw [place_value]
  exact Bool.not_eq_true' _ |>.mp hvalue

theorem isNull_of_mem_placed {keep : Placed → Bool} :
    ∀ property ∈ ((template.placements choose properties).filter keep).map Placed.toAttribute,
      property.value.isNull = false := by
  intro property hmem
  obtain ⟨placed, hplaced, rfl⟩ := List.mem_map.mp hmem
  exact template.isNull_of_mem_placements choose properties (List.mem_filter.mp hplaced).1

/-- No two columns have one name. -/
theorem nodup_placedColumns :
    ((template.placedColumns choose properties).map Attribute.key).Nodup := by
  apply Placed.nodup_keys ((Placed.survivors_pairwise _).filter _)
  intro placed hmem
  exact (Bool.not_eq_true' _).mp (List.mem_filter.mp hmem).2

theorem nodup_placedDeferred :
    ((template.placedDeferred choose properties).map Attribute.key).Nodup := by
  apply Placed.nodup_keys ((Placed.survivors_pairwise _).filter _)
  intro placed hmem
  exact (List.mem_filter.mp hmem).2

/-- No column has the name of a field that the record writes itself. -/
theorem claims_of_mem_placedColumns :
    ∀ column ∈ template.placedColumns choose properties, template.claims column.key = false := by
  intro column hmem
  obtain ⟨placed, hplaced, rfl⟩ := List.mem_map.mp hmem
  obtain ⟨hplaced, hcolumn⟩ := List.mem_filter.mp hplaced
  obtain ⟨property, -, rfl⟩ := List.mem_map.mp ((Placed.survivors_sublist _).subset hplaced)
  exact Placed.claims_place ((Bool.not_eq_true' _).mp hcolumn)

theorem adds_properties :
    OpenMap.Adds (fun map => template.writeProperties map choose properties)
      (propertyBytes (template.placedColumns choose properties)
        (template.placedDeferred choose properties))
      (propertyEntries (template.placedColumns choose properties)
        (template.placedDeferred choose properties)) :=
  adds_writeSplit (template.isNull_of_mem_placed choose properties)
    (template.isNull_of_mem_placed choose properties)

end RecordTemplate

end TelemetryExport
