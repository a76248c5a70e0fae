import TelemetryExport.Record.Span
import TelemetryExport.Proofs.Record.Log

/-! # Envelopes of spans

The columns of a span are entries whose keys and values are written apart, one of them an
array of links. Its attributes go to columns of their own or of another name, or to the
nested map. Where an attribute is renamed to the key of another one, it takes that one's
place.
-/

namespace TelemetryExport

open MessagePack Encode

/-! ## Links and cells -/

namespace SpanCell

/-- A link as it is read. -/
def linkValue (link : SpanLink) : Value :=
  .map [(.ofText "toTraceId", .ofText (Text.lowerHex link.traceId.bytes.toList)),
    (.ofText "toSpanId", .ofText (Text.lowerHex link.spanId.bytes.toList))]

def linkBytes (link : SpanLink) : List UInt8 :=
  UInt8.ofNat (0x80 + 2) :: (textBytes Column.toTraceId ++ (textBytes link.traceId.hex ++
    (textBytes Column.toSpanId ++ textBytes link.spanId.hex)))

theorem emits_link (link : SpanLink) :
    Emits (writeLink link) (linkBytes link) (linkValue link) where
  writes := (writes_writeByte _).seq ((writes_text Column.toTraceId).seq
    ((writes_text link.traceId.hex).seq ((writes_text Column.toSpanId).seq
      (writes_text link.spanId.hex))))
  encodes := by
    have hentries : EncodesEntries _ _ :=
      .cons (encodes_text Column.toTraceId) (encodes_text link.traceId.hex)
        (.single (encodes_text Column.toSpanId) (encodes_text link.spanId.hex))
    rw [List.append_assoc] at hentries
    rw [linkValue, ← Text.hex_eq_lowerHex, ← Text.hex_eq_lowerHex]
    exact encodes_smallMap hentries (show 2 < 16 by decide)

/-- A cell as it is read. -/
def readAs : SpanCell → Value
  | scalar value => .ofScalar value
  | time value => .ofTime value
  | links values => .array (values.map linkValue)

def bytes : SpanCell → List UInt8
  | scalar value => scalarBytes value
  | time value => timeBytes value
  | links values => arrayHeader values.length ++ values.flatMap linkBytes

/-- The times of a cell lie in the calendar. -/
def InCalendar : SpanCell → Prop
  | time value => value.inCalendar = true
  | _ => True

/-- A cell is one value, whatever number of links it holds. -/
theorem emits_write {cell : SpanCell} (hcell : cell.InCalendar) :
    Emits cell.write cell.bytes cell.readAs := by
  cases cell with
  | scalar value => exact emits_scalar value
  | time value => exact emits_time hcell
  | links values => exact emits_array fun link _ => emits_link link

end SpanCell

/-! ## The columns of a span -/

namespace Span

/-- The number of a kind. -/
def kindAs : SpanKind → Int
  | .internal => 0
  | .server => 1
  | .client => 2
  | .producer => 3
  | .consumer => 4

theorem kindAs_eq (kind : SpanKind) : kindAs kind = kind.number.toInt := by
  cases kind <;> rfl

/-- What a span says besides its attributes, given its start as it is read. -/
def columnEntries (span : Span) (start : Value) : List (Value × Value) :=
  [(.ofText "env_dt_traceId", .ofText (Text.lowerHex span.traceId.bytes.toList)),
    (.ofText "env_dt_spanId", .ofText (Text.lowerHex span.spanId.bytes.toList))] ++
    optionalEntry "parentId"
      (if span.parentId.bytes = Vector.replicate 8 0 then none
        else some (.ofText (Text.lowerHex span.parentId.bytes.toList))) ++
    [(.ofText "name", .ofText span.name),
      (.ofText "kind", .int (kindAs span.kind)),
      (.ofText "startTime", start),
      (.ofText "success", .bool (match span.status with
        | .error _ => false
        | _ => true))] ++
    optionalEntry "statusMessage" (match span.status with
      | .error description => if description = "" then none else some (.ofText description)
      | _ => none) ++
    optionalEntry "links"
      (if span.links = [] then none else some (.array (span.links.map SpanCell.linkValue)))

/-- A column as an entry. -/
def columnEntry (column : String × SpanCell) : Value × Value :=
  (.ofText column.1, column.2.readAs)

def columnBytes (column : String × SpanCell) : List UInt8 :=
  textBytes column.1 ++ column.2.bytes

theorem map_columnEntry_parent (span : Span) :
    (if span.parentId = SpanId.invalid then []
      else [(Column.parentId, SpanCell.scalar (toScalar span.parentId.hex))]).map columnEntry =
      optionalEntry "parentId" (if span.parentId.bytes = Vector.replicate 8 0 then none
        else some (.ofText (Text.lowerHex span.parentId.bytes.toList))) := by
  have hroot : span.parentId.bytes = Vector.replicate 8 0 ↔ span.parentId = SpanId.invalid := by
    constructor
    · intro hbytes
      rw [SpanId.invalid, ← hbytes]
    · intro hinvalid
      rw [hinvalid, SpanId.invalid]
  by_cases hinvalid : span.parentId = SpanId.invalid
  · rw [if_pos hinvalid, if_pos (hroot.mpr hinvalid)]
    rfl
  · rw [if_neg hinvalid, if_neg (mt hroot.mp hinvalid), ← Text.hex_eq_lowerHex]
    rfl

theorem map_columnEntry_message (status : SpanStatus) :
    (status.message?.map fun text =>
      (Column.statusMessage, SpanCell.scalar (toScalar text))).toList.map columnEntry =
      optionalEntry "statusMessage" (match status with
        | .error description => if description = "" then none else some (.ofText description)
        | _ => none) := by
  cases status with
  | unset => rfl
  | ok => rfl
  | error description =>
      rw [SpanStatus.message?]
      by_cases hempty : description = ""
      · simp only [hempty, if_true]
        rfl
      · have hisEmpty : description.isEmpty = false := by
          rw [Bool.eq_false_iff]
          exact mt String.isEmpty_iff.mp hempty
        simp only [if_neg hempty, hisEmpty, if_neg Bool.false_ne_true]
        rfl

theorem map_columnEntry_links (links : List SpanLink) :
    (if links.isEmpty then [] else [(Column.links, SpanCell.links links)]).map columnEntry =
      optionalEntry "links"
        (if links = [] then none else some (.array (links.map SpanCell.linkValue))) := by
  cases links with
  | nil => rfl
  | cons link rest => rfl

theorem map_columnEntry_columns (span : Span) :
    span.columns.map columnEntry = span.columnEntries (.ofTime span.startTime) := by
  have hsuccess : Value.ofScalar (toScalar (!span.status.isError)) =
      .bool (match span.status with
        | .error _ => false
        | _ => true) := by
    cases span.status <;> rfl
  simp only [columns, columnEntries, List.map_append, map_columnEntry_parent,
    map_columnEntry_message, map_columnEntry_links, List.map_cons, List.map_nil, columnEntry,
    SpanCell.readAs, hsuccess, kindAs_eq, ← Text.hex_eq_lowerHex]
  rfl

/-- The one time among the columns of a span is its start. -/
theorem inCalendar_of_mem_columns {span : Span} (hstart : span.startTime.inCalendar = true) :
    ∀ column ∈ span.columns, column.2.InCalendar := by
  simp only [columns, List.forall_mem_append]
  refine ⟨⟨⟨⟨?_, ?_⟩, ?_⟩, ?_⟩, ?_⟩
  · simp [SpanCell.InCalendar]
  · split <;> simp [SpanCell.InCalendar]
  · simp [SpanCell.InCalendar, hstart]
  · cases span.status.message? <;> simp [SpanCell.InCalendar]
  · split <;> simp [SpanCell.InCalendar]

theorem adds_columns {span : Span} (hstart : span.startTime.inCalendar = true) :
    OpenMap.Adds (fun map => SpanEncoder.writeColumns map span.columns)
      (span.columns.flatMap columnBytes) (span.columnEntries (.ofTime span.startTime)) := by
  have hcolumns : OpenMap.Adds (fun map => SpanEncoder.writeColumns map span.columns)
      (span.columns.flatMap columnBytes) (span.columns.map columnEntry) := by
    apply OpenMap.adds_foldlM
    intro column hmem
    exact OpenMap.adds_entry column.1
      (SpanCell.emits_write (inCalendar_of_mem_columns hstart column hmem))
  rw [map_columnEntry_columns] at hcolumns
  exact hcolumns

/-- Columns that were written hold no time outside the calendar. -/
theorem inCalendar_of_writeColumns {columns : List (String × SpanCell)} {map filled : OpenMap}
    {buffer after : Buffer}
    (hok : SpanEncoder.writeColumns map columns buffer = .ok filled after) :
    ∀ column ∈ columns, column.2.InCalendar := by
  induction columns generalizing map buffer with
  | nil => exact List.forall_mem_nil _
  | cons column rest ih =>
      rw [SpanEncoder.writeColumns, List.foldlM_cons] at hok
      obtain ⟨next, middle, hcolumn, hrest⟩ := exists_of_bind_ok hok
      refine List.forall_mem_cons.mpr ⟨?_, ih hrest⟩
      obtain ⟨_, _, -, hcolumn⟩ := exists_of_bind_ok hcolumn
      obtain ⟨_, _, hcell, -⟩ := exists_of_bind_ok hcolumn
      obtain ⟨key, cell⟩ := column
      cases cell with
      | scalar value => trivial
      | time value => exact inCalendar_of_writeTime hcell
      | links values => trivial

end Span

/-! ## The attributes of a span -/

namespace SpanEncoder

/-- The well-known attributes, with the columns to which they are renamed. -/
def renamedColumns : List (String × String) :=
  [("db.system", "dbSystem"), ("db.name", "dbName"), ("db.statement", "dbStatement"),
    ("http.method", "httpMethod"), ("http.url", "httpUrl"),
    ("http.status_code", "httpStatusCode"), ("messaging.system", "messagingSystem"),
    ("messaging.destination", "messagingDestination"), ("messaging.url", "messagingUrl")]

theorem renamedColumns_eq : renamedColumns = Column.spanAttributeColumns := rfl

/-- A well-known attribute and the column to which it is renamed. -/
theorem mem_of_lookup {key column : String}
    (hlookup : renamedColumns.lookup key = some column) :
    (key, column) ∈ renamedColumns := by
  obtain ⟨before, after, htable, -⟩ := List.lookup_eq_some_iff.mp hlookup
  rw [htable]
  exact List.mem_append_right _ List.mem_cons_self

theorem ne_of_lookup {key column : String}
    (hlookup : renamedColumns.lookup key = some column) : column ≠ key := by
  have hrenamed : ∀ entry ∈ renamedColumns, entry.2 ≠ entry.1 := by decide
  exact hrenamed _ (mem_of_lookup hlookup)

/-- No two attributes are renamed to one column. -/
theorem eq_of_lookup {first second column : String}
    (hfirst : renamedColumns.lookup first = some column)
    (hsecond : renamedColumns.lookup second = some column) : first = second := by
  have hinjective : ∀ entry ∈ renamedColumns,
      ∀ other ∈ renamedColumns, entry.2 = other.2 → entry.1 = other.1 := by decide
  exact hinjective _ (mem_of_lookup hfirst) _ (mem_of_lookup hsecond) rfl

variable (configured : List Attribute) (listed : Option (List String))

/-- The column of an attribute. A well-known one is renamed, any other that is listed keeps
its key. There is none where the record writes the key or the column itself. -/
def columnOf (key : String) : Option String :=
  if isTaken configured key then none
  else match renamedColumns.lookup key with
    | some column => if isTaken configured column then none else some column
    | none => if listed.any (!·.contains key) then none else some key

/-- A column of another name is that of a well-known attribute. -/
theorem lookup_of_columnOf {key column : String}
    (hcolumn : columnOf configured listed key = some column) (hrenamed : column ≠ key) :
    renamedColumns.lookup key = some column := by
  unfold columnOf at hcolumn
  split at hcolumn
  next => cases hcolumn
  next =>
    split at hcolumn
    next hlookup =>
      split at hcolumn
      next => cases hcolumn
      next =>
        cases hcolumn
        exact hlookup
    next =>
      split at hcolumn
      next => cases hcolumn
      next =>
        cases hcolumn
        exact absurd rfl hrenamed

/-- Where an attribute goes. -/
def placed (property : Attribute) : Placed :=
  match columnOf configured listed property.key with
  | some column => ⟨⟨false, column⟩, property.value, column != property.key⟩
  | none => ⟨⟨true, property.key⟩, property.value, false⟩

variable {configured listed}

theorem placed_of_some {property : Attribute} {column : String}
    (hcolumn : columnOf configured listed property.key = some column) :
    placed configured listed property =
      ⟨⟨false, column⟩, property.value, column != property.key⟩ := by
  rw [placed, hcolumn]

theorem placed_of_none {property : Attribute}
    (hcolumn : columnOf configured listed property.key = none) :
    placed configured listed property = ⟨⟨true, property.key⟩, property.value, false⟩ := by
  rw [placed, hcolumn]

theorem place_span (table : String) (property : Attribute) :
    Placed.place (RecordTemplate.ofParts table configured).claims
      (choose ⟨RecordTemplate.ofParts table configured, listed⟩) property =
        placed configured listed property := by
  rw [Placed.place, RecordTemplate.claims_ofParts]
  by_cases htaken : isTaken configured property.key = true
  · have hcolumn : columnOf configured listed property.key = none := by
      rw [columnOf, if_pos htaken]
    rw [if_pos htaken, placed_of_none hcolumn]
  rw [if_neg htaken, choose, ← renamedColumns_eq]
  cases hlookup : renamedColumns.lookup property.key with
  | some column =>
      simp only [RecordTemplate.claims_ofParts]
      by_cases hcolumn : isTaken configured column = true
      · have hnone : columnOf configured listed property.key = none := by
          simp only [columnOf, if_neg htaken, hlookup, if_pos hcolumn]
        rw [if_pos hcolumn, placed_of_none hnone]
      · have hsome : columnOf configured listed property.key = some column := by
          simp only [columnOf, if_neg htaken, hlookup, if_neg hcolumn]
        rw [if_neg hcolumn, placed_of_some hsome, bne_iff_ne.mpr (ne_of_lookup hlookup)]
  | none =>
      simp only [chooseListed_eq]
      by_cases hlisted : listed.any (!·.contains property.key) = true
      · have hnone : columnOf configured listed property.key = none := by
          simp only [columnOf, if_neg htaken, hlookup, if_pos hlisted]
        rw [if_pos hlisted, placed_of_none hnone]
      · have hsome : columnOf configured listed property.key = some property.key := by
          simp only [columnOf, if_neg htaken, hlookup, if_neg hlisted]
        rw [if_neg hlisted, placed_of_some hsome, bne_self_eq_false]

/-- An attribute that is renamed to a column. -/
theorem renamed_placed {property : Attribute} {destination : Destination} :
    ((placed configured listed property).renamed &&
        (placed configured listed property).destination == destination) = true ↔
      ∃ column, columnOf configured listed property.key = some column ∧ column ≠ property.key ∧
        destination = ⟨false, column⟩ := by
  rw [Bool.and_eq_true_iff]
  cases hcolumn : columnOf configured listed property.key with
  | some column =>
      rw [placed_of_some hcolumn, bne_iff_ne, beq_iff_eq]
      constructor
      · rintro ⟨hrenamed, rfl⟩
        exact ⟨column, rfl, hrenamed, rfl⟩
      · rintro ⟨_, hsame, hrenamed, rfl⟩
        cases hsame
        exact ⟨hrenamed, rfl⟩
  | none =>
      rw [placed_of_none hcolumn]
      constructor
      · rintro ⟨hrenamed, -⟩
        cases hrenamed
      · rintro ⟨_, hsome, -⟩
        cases hsome

variable (configured listed) in
/-- Whether an attribute with a column under its own key gives way to another one that is
renamed to that key. -/
def isDisplaced (properties : List Attribute) (property : Attribute) : Bool :=
  columnOf configured listed property.key == some property.key &&
    properties.any fun other => other.key != property.key &&
      columnOf configured listed other.key == some property.key

theorem isDisplaced_iff {properties : List Attribute} {property : Attribute} :
    isDisplaced configured listed properties property = true ↔
      columnOf configured listed property.key = some property.key ∧
        ∃ other ∈ properties, other.key ≠ property.key ∧
          columnOf configured listed other.key = some property.key := by
  simp only [isDisplaced, Bool.and_eq_true, beq_iff_eq, List.any_eq_true, bne_iff_ne]

/-- Placed attributes displace each other as the attributes do. -/
theorem isDisplaced_placed (properties : List Attribute) (property : Attribute) :
    Placed.isDisplaced (properties.map (placed configured listed))
      (placed configured listed property) =
        isDisplaced configured listed properties property := by
  rw [Bool.eq_iff_iff, isDisplaced_iff, Placed.isDisplaced, List.any_map, Bool.and_eq_true_iff,
    List.any_eq_true]
  simp only [Function.comp_apply, renamed_placed]
  constructor
  · rintro ⟨hkept, other, hmem, column, hother, hrenamed, hsame⟩
    cases hcolumn : columnOf configured listed property.key with
    | none =>
        rw [placed_of_none hcolumn] at hsame
        cases hsame
    | some own =>
        rw [placed_of_some hcolumn] at hkept hsame
        obtain rfl : own = property.key := by simpa using hkept
        cases hsame
        exact ⟨rfl, other, hmem, hrenamed.symm, hother⟩
  · rintro ⟨hcolumn, other, hmem, hne, hother⟩
    rw [placed_of_some hcolumn]
    refine ⟨?_, other, hmem, property.key, hother, hne.symm, rfl⟩
    rw [bne_self_eq_false]
    rfl

/-- Attributes with different keys that are not displaced all go to different places. -/
theorem destination_ne {properties : List Attribute} {first second : Attribute}
    (hfirst : first ∈ properties) (hsecond : second ∈ properties)
    (hkeys : first.key ≠ second.key)
    (hkeptFirst : ¬isDisplaced configured listed properties first = true)
    (hkeptSecond : ¬isDisplaced configured listed properties second = true) :
    (placed configured listed first).destination ≠
      (placed configured listed second).destination := by
  intro hsame
  cases hone : columnOf configured listed first.key with
  | none =>
      rw [placed_of_none hone] at hsame
      cases htwo : columnOf configured listed second.key with
      | none =>
          rw [placed_of_none htwo] at hsame
          exact hkeys (congrArg Destination.key hsame)
      | some column =>
          rw [placed_of_some htwo] at hsame
          cases congrArg Destination.nested hsame
  | some column =>
      rw [placed_of_some hone] at hsame
      cases htwo : columnOf configured listed second.key with
      | none =>
          rw [placed_of_none htwo] at hsame
          cases congrArg Destination.nested hsame
      | some other =>
          rw [placed_of_some htwo] at hsame
          obtain rfl : column = other := congrArg Destination.key hsame
          -- One of them keeps its key and gives way, or both are renamed to one column.
          by_cases hown : column = first.key
          · subst hown
            exact hkeptFirst (isDisplaced_iff.mpr ⟨hone, second, hsecond, hkeys.symm, htwo⟩)
          by_cases hother : column = second.key
          · subst hother
            exact hkeptSecond (isDisplaced_iff.mpr ⟨htwo, first, hfirst, hkeys, hone⟩)
          exact hkeys (eq_of_lookup (lookup_of_columnOf configured listed hone hown)
            (lookup_of_columnOf configured listed htwo hother))

variable (configured listed)

/-- Attributes whose keys differ are all written, but those that give way. -/
theorem placements_span (table : String) {properties : List Attribute}
    (hvalues : ∀ property ∈ properties, property.value.isNull = false)
    (hkeys : (properties.map Attribute.key).Nodup) :
    (RecordTemplate.ofParts table configured).placements
      (choose ⟨RecordTemplate.ofParts table configured, listed⟩) properties =
        (properties.filter (!isDisplaced configured listed properties ·)).map
          (placed configured listed) := by
  have hvalued : properties.filter (!·.value.isNull) = properties := by
    apply List.filter_eq_self.mpr
    intro property hmem
    rw [hvalues property hmem]
    rfl
  have hplace : Placed.place (RecordTemplate.ofParts table configured).claims
      (choose ⟨RecordTemplate.ofParts table configured, listed⟩) = placed configured listed :=
    funext (place_span table)
  rw [RecordTemplate.placements, hvalued, hplace, Placed.survivors_eq, List.filter_map]
  simp only [Function.comp_def, isDisplaced_placed]
  -- With those that give way left out, no two go to one place, so that all others stay.
  apply Placed.keepLast_of_pairwise
  rw [List.pairwise_map]
  have hdistinct := (List.pairwise_map.mp hkeys).filter
    (!isDisplaced configured listed properties ·)
  apply hdistinct.imp_of_mem
  intro first second hfirst hsecond hne
  obtain ⟨hfirst, hkeptFirst⟩ := List.mem_filter.mp hfirst
  obtain ⟨hsecond, hkeptSecond⟩ := List.mem_filter.mp hsecond
  rw [Bool.not_eq_true'] at hkeptFirst hkeptSecond
  exact destination_ne hfirst hsecond hne (Bool.not_eq_true _ ▸ hkeptFirst)
    (Bool.not_eq_true _ ▸ hkeptSecond)

/-- The attributes with a column, under its name. -/
def columnAttributes (properties : List Attribute) : List Attribute :=
  properties.filterMap fun property =>
    (columnOf configured listed property.key).map fun column => ⟨column, property.value⟩

/-- The attributes without one. -/
def deferredAttributes (properties : List Attribute) : List Attribute :=
  properties.filter fun property => (columnOf configured listed property.key).isNone

theorem columns_map_placed (properties : List Attribute) :
    ((properties.map (placed configured listed)).filter (!·.destination.nested)).map
      Placed.toAttribute = columnAttributes configured listed properties := by
  induction properties with
  | nil => rfl
  | cons property rest ih =>
      rw [columnAttributes] at ih ⊢
      cases hcolumn : columnOf configured listed property.key with
      | some column =>
          rw [List.map_cons, placed_of_some hcolumn, List.filter_cons_of_pos rfl, List.map_cons,
            ih, List.filterMap_cons, hcolumn]
          rfl
      | none =>
          rw [List.map_cons, placed_of_none hcolumn, List.filter_cons_of_neg (by simp), ih,
            List.filterMap_cons, hcolumn]
          rfl

theorem deferred_map_placed (properties : List Attribute) :
    ((properties.map (placed configured listed)).filter (·.destination.nested)).map
      Placed.toAttribute = deferredAttributes configured listed properties := by
  induction properties with
  | nil => rfl
  | cons property rest ih =>
      rw [deferredAttributes] at ih ⊢
      cases hcolumn : columnOf configured listed property.key with
      | some column =>
          rw [List.map_cons, placed_of_some hcolumn, List.filter_cons_of_neg (by simp), ih,
            List.filter_cons_of_neg (by simp [hcolumn])]
      | none =>
          rw [List.map_cons, placed_of_none hcolumn, List.filter_cons_of_pos rfl, List.map_cons,
            ih, List.filter_cons_of_pos (by simp [hcolumn])]
          rfl

/-- Nothing in the nested map gives way. -/
theorem deferredAttributes_kept (properties : List Attribute) :
    deferredAttributes configured listed
      (properties.filter (!isDisplaced configured listed properties ·)) =
        deferredAttributes configured listed properties := by
  rw [deferredAttributes, deferredAttributes, List.filter_filter]
  apply List.filter_congr
  intro property _
  cases hcolumn : columnOf configured listed property.key with
  | some column => rfl
  | none =>
      rw [isDisplaced, hcolumn]
      rfl

end SpanEncoder

end TelemetryExport
