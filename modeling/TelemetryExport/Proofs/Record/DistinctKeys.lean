import TelemetryExport.Proofs.Record.LogEncoder
import TelemetryExport.Proofs.Record.SpanEncoder

/-! # Keys of envelopes

No map of an envelope has a key twice. The keys of the field map come from five sides:
the table's name, the configured fields, the columns that the record fills, those that
its properties get, and the nested map of the rest. The configuration keeps the first
three apart, and the placement of the properties keeps the others away from them and from
each other.
-/

namespace TelemetryExport

open MessagePack Encode

/-! ## Values without repeated keys -/

namespace MessagePack.Value

def isContainer : Value → Bool
  | array _ => true
  | map _ => true
  | _ => false

/-- No map in the value, at whatever depth, has a key twice. -/
inductive DistinctKeys : Value → Prop
  | leaf {value : Value} (hleaf : value.isContainer = false) : DistinctKeys value
  | array {items : List Value} (hitems : ∀ item ∈ items, DistinctKeys item) :
      DistinctKeys (.array items)
  | map {entries : List (Value × Value)} (hkeys : (entries.map Prod.fst).Nodup)
      (hinner : ∀ entry ∈ entries, DistinctKeys entry.1)
      (hvalues : ∀ entry ∈ entries, DistinctKeys entry.2) : DistinctKeys (.map entries)

theorem ofText_inj {first second : String} :
    ofText first = ofText second ↔ first = second := by
  constructor
  · intro hsame
    have hbytes : first.toUTF8.data.toList = second.toUTF8.data.toList := Value.text.inj hsame
    have hutf8 : first.toUTF8 = second.toUTF8 := ByteArray.ext (Array.toList_inj.mp hbytes)
    rw [String.toUTF8_eq_toByteArray, String.toUTF8_eq_toByteArray] at hutf8
    exact String.toByteArray_inj.mp hutf8
  · exact congrArg ofText

theorem distinctKeys_ofText (text : String) : (ofText text).DistinctKeys := .leaf rfl

theorem distinctKeys_ofScalar (scalar : Scalar) : (ofScalar scalar).DistinctKeys := by
  cases scalar <;> exact .leaf rfl

/-- A map whose keys are texts has distinct keys if the texts are. -/
theorem distinctKeys_map {entries : List (Value × Value)} {keys : List String}
    (hkeys : entries.map Prod.fst = keys.map ofText) (hdistinct : keys.Nodup)
    (hvalues : ∀ entry ∈ entries, entry.2.DistinctKeys) : (Value.map entries).DistinctKeys := by
  refine .map ?_ ?_ hvalues
  · rw [hkeys, List.Nodup, List.pairwise_map]
    exact hdistinct.imp fun hne hsame => hne (ofText_inj.mp hsame)
  · intro entry hmem
    have hkey : entry.1 ∈ keys.map ofText := by
      rw [← hkeys]
      exact List.mem_map_of_mem hmem
    obtain ⟨text, -, hkey⟩ := List.mem_map.mp hkey
    rw [← hkey]
    exact distinctKeys_ofText text

theorem DistinctKeys.nodup_keys {entries : List (Value × Value)}
    (hdistinct : (Value.map entries).DistinctKeys) : (entries.map Prod.fst).Nodup := by
  cases hdistinct with
  | leaf hleaf => cases hleaf
  | map hkeys _ _ => exact hkeys

theorem DistinctKeys.of_mem {entries : List (Value × Value)} {entry : Value × Value}
    (hdistinct : (Value.map entries).DistinctKeys) (hmem : entry ∈ entries) :
    entry.2.DistinctKeys := by
  cases hdistinct with
  | leaf hleaf => cases hleaf
  | map _ _ hvalues => exact hvalues entry hmem

end MessagePack.Value

open Value

theorem distinctKeys_entries {properties : List Attribute}
    (hdistinct : (properties.map Attribute.key).Nodup) :
    (Value.map (properties.map Attribute.entry)).DistinctKeys := by
  refine distinctKeys_map (by rw [List.map_map, List.map_map]; rfl) hdistinct ?_
  intro entry hmem
  obtain ⟨property, -, rfl⟩ := List.mem_map.mp hmem
  exact distinctKeys_ofScalar property.value

theorem distinctKeys_envelope {table : String} {stamp : Value} {fields : List (Value × Value)}
    (hstamp : stamp.DistinctKeys) (hfields : (Value.map fields).DistinctKeys) :
    (envelope table stamp fields).DistinctKeys := by
  have hformat : (Value.map [(.ofText "TimeFormat", .ofText "DateTime")]).DistinctKeys := by
    refine distinctKeys_map (show _ = ["TimeFormat"].map ofText from rfl) (by decide) ?_
    simp [distinctKeys_ofText]
  have hrecord : (Value.array [stamp, .map fields]).DistinctKeys :=
    .array (by simp [hstamp, hfields])
  have hrecords : (Value.array [.array [stamp, .map fields]]).DistinctKeys :=
    .array (by simp [hrecord])
  exact .array (by simp [hformat, hrecords, distinctKeys_ofText])

/-! ## Names of fields -/

/-- The columns that records fill themselves. -/
def Column.filled : List String := Column.reserved.drop 2

theorem RecordTemplate.names_of_checkFieldNames {earlier : List String} {fields : List Attribute}
    (hcheck : checkFieldNames earlier fields = .ok ()) :
    (fields.map Attribute.key).Nodup ∧
      ∀ name ∈ fields.map Attribute.key, name ∉ Column.reserved ∧ name ∉ earlier := by
  induction fields generalizing earlier with
  | nil => exact ⟨List.nodup_nil, List.forall_mem_nil _⟩
  | cons field rest ih =>
      rw [checkFieldNames] at hcheck
      by_cases hreserved : Column.reserved.contains field.key = true
      · rw [if_pos hreserved] at hcheck
        cases hcheck
      rw [if_neg hreserved] at hcheck
      by_cases hrepeated : earlier.contains field.key = true
      · rw [if_pos hrepeated] at hcheck
        cases hcheck
      rw [if_neg hrepeated] at hcheck
      obtain ⟨hnodup, hfree⟩ := ih hcheck
      rw [List.contains_iff_mem] at hreserved hrepeated
      rw [List.map_cons]
      constructor
      · exact List.nodup_cons.mpr ⟨fun hmem => (hfree _ hmem).2 List.mem_cons_self, hnodup⟩
      · refine List.forall_mem_cons.mpr ⟨⟨hreserved, hrepeated⟩, fun name hmem => ?_⟩
        exact ⟨(hfree name hmem).1, fun hearlier =>
          (hfree name hmem).2 (List.mem_cons_of_mem _ hearlier)⟩

/-- The fields have names of their own, and none has the name of a fixed column. -/
structure HasFreeNames (fields : List Attribute) : Prop where
  nodup : (fields.map Attribute.key).Nodup
  unreserved : ∀ name ∈ fields.map Attribute.key, name ∉ Column.reserved

theorem RecordTemplate.hasFreeNames_of_make {table : String} {fields : List Attribute}
    {template : RecordTemplate} (hmake : make table fields = .ok template) :
    HasFreeNames fields := by
  obtain ⟨_, -, hmake⟩ := exists_of_except_bind hmake
  obtain ⟨_, hcheck, -⟩ := exists_of_except_bind hmake
  obtain ⟨hnodup, hfree⟩ := names_of_checkFieldNames hcheck
  exact ⟨hnodup, fun name hmem => (hfree name hmem).1⟩

section Fields

variable {configured columns deferred : List Attribute} {own : List String}

/-- The names of all fields of a record: that of the table's, those configured, those the
record fills itself, those of its properties, and that of the nested map. -/
def fieldNames (configured : List Attribute) (own : List String)
    (columns deferred : List Attribute) : List String :=
  Column.envName :: ((RecordTemplate.constantFields configured).map Attribute.key ++
    (own ++ (columns.map Attribute.key ++
      if deferred = [] then [] else [Column.envProperties])))

theorem nodup_fieldNames (hfree : HasFreeNames configured) (hown : own.Nodup)
    (hfilled : ∀ name ∈ own, name ∈ Column.filled)
    (hcolumns : (columns.map Attribute.key).Nodup)
    (huntaken : ∀ column ∈ columns, isTaken configured column.key = false) :
    (fieldNames configured own columns deferred).Nodup := by
  have hconstants : ((RecordTemplate.constantFields configured).map Attribute.key).Sublist
      (configured.map Attribute.key) := List.filter_sublist.map _
  have hreserved : ∀ name ∈ Column.filled, name ∈ Column.reserved ∧ name ≠ Column.envName ∧
      name ≠ Column.envProperties := by decide
  have hopen : ∀ name ∈ columns.map Attribute.key,
      name ∉ Column.reserved ∧ name ∉ configured.map Attribute.key := by
    intro name hmem
    obtain ⟨column, hcolumn, rfl⟩ := List.mem_map.mp hmem
    obtain ⟨hfixed, hothers⟩ := Bool.or_eq_false_iff.mp (huntaken column hcolumn)
    constructor
    · rw [← reservedKeys_eq, ← List.contains_iff_mem, hfixed]
      exact Bool.false_ne_true
    · intro hsame
      obtain ⟨field, hfield, hkey⟩ := List.mem_map.mp hsame
      exact List.any_eq_false.mp hothers field hfield (beq_iff_eq.mpr hkey)
  have hnested : ∀ name ∈ (if deferred = [] then [] else [Column.envProperties]),
      name = Column.envProperties := by
    split <;> simp
  have hsingle : (if deferred = [] then [] else [Column.envProperties]).Nodup := by
    split <;> simp
  refine List.nodup_cons.mpr ⟨?_, List.nodup_append.mpr ⟨hconstants.nodup hfree.nodup,
    List.nodup_append.mpr ⟨hown, List.nodup_append.mpr ⟨hcolumns, hsingle, ?_⟩, ?_⟩, ?_⟩⟩
  · simp only [List.mem_append]
    rintro (hname | hname | hname | hname)
    · exact hfree.unreserved _ (hconstants.subset hname) (by decide)
    · exact (hreserved _ (hfilled _ hname)).2.1 rfl
    · exact (hopen _ hname).1 (by decide)
    · exact absurd (hnested _ hname) (by decide)
  · rintro name hcolumn _ hlater rfl
    rw [hnested name hlater] at hcolumn
    exact (hopen _ hcolumn).1 (by decide)
  · rintro name hname _ hlater rfl
    obtain ⟨hfixed, -, hne⟩ := hreserved name (hfilled name hname)
    rcases List.mem_append.mp hlater with hlater | hlater
    · exact (hopen name hlater).1 hfixed
    · exact hne (hnested name hlater)
  · rintro name hname _ hlater rfl
    have hconfigured := hconstants.subset hname
    simp only [List.mem_append] at hlater
    rcases hlater with hlater | hlater | hlater
    · exact hfree.unreserved name hconfigured (hreserved name (hfilled name hlater)).1
    · exact (hopen name hlater).2 hconfigured
    · rw [hnested name hlater] at hconfigured
      exact hfree.unreserved _ hconfigured (by decide)

theorem map_fst_fields {table : String} {ownEntries : List (Value × Value)}
    (hentries : ownEntries.map Prod.fst = own.map ofText) :
    ((RecordTemplate.partAFields table configured).map Attribute.entry ++
      (ownEntries ++ propertyEntries columns deferred)).map Prod.fst =
        (fieldNames configured own columns deferred).map ofText := by
  have hkeys : ∀ properties : List Attribute, (properties.map Attribute.entry).map Prod.fst =
      (properties.map Attribute.key).map ofText := by
    intro properties
    rw [List.map_map, List.map_map]
    rfl
  rw [RecordTemplate.partAFields, fieldNames, propertyEntries]
  simp only [List.map_cons, List.map_append, hkeys, hentries, List.cons_append]
  split <;> rfl

/-- However properties are placed, the fields of a record are a map without repeated keys
if that is so for the values that the record fills in itself. -/
theorem distinctKeys_fields (table : String) (choose : String → ColumnChoice)
    (properties : List Attribute) (hfree : HasFreeNames configured) (hown : own.Nodup)
    (hfilled : ∀ name ∈ own, name ∈ Column.filled) {ownEntries : List (Value × Value)}
    (hentries : ownEntries.map Prod.fst = own.map ofText)
    (hvalues : ∀ entry ∈ ownEntries, entry.2.DistinctKeys) :
    let template := RecordTemplate.ofParts table configured
    (Value.map ((RecordTemplate.partAFields table configured).map Attribute.entry ++
      (ownEntries ++ propertyEntries (template.placedColumns choose properties)
        (template.placedDeferred choose properties)))).DistinctKeys := by
  intro template
  have huntaken : ∀ column ∈ template.placedColumns choose properties,
      isTaken configured column.key = false := by
    intro column hmem
    rw [← RecordTemplate.claims_ofParts table]
    exact template.claims_of_mem_placedColumns choose properties column hmem
  refine distinctKeys_map (map_fst_fields hentries) (nodup_fieldNames hfree hown hfilled
    (template.nodup_placedColumns choose properties) huntaken) ?_
  have hscalars : ∀ properties : List Attribute,
      ∀ entry ∈ properties.map Attribute.entry, entry.2.DistinctKeys := by
    intro properties entry hmem
    obtain ⟨property, -, rfl⟩ := List.mem_map.mp hmem
    exact distinctKeys_ofScalar property.value
  rw [propertyEntries]
  simp only [List.forall_mem_append]
  refine ⟨hscalars _, hvalues, hscalars _, ?_⟩
  split
  · exact List.forall_mem_nil _
  · exact List.forall_mem_singleton.mpr
      (distinctKeys_entries (template.nodup_placedDeferred choose properties))

end Fields

/-! ## Log records -/

namespace LogRecord

/-- The names of the columns that a log record may fill, in order. -/
def columnNames : List String :=
  [Column.traceId, Column.spanId, Column.traceFlags] ++
    [Column.severityText, Column.severityNumber, Column.name] ++ [Column.eventId] ++
    [Column.eventName] ++ [Column.body] ++ [Column.exceptionType, Column.exceptionMessage]

theorem map_key_columns_sublist (record : LogRecord) (table : String) :
    ((record.columns table).map Attribute.key).Sublist columnNames := by
  simp only [columns, List.map_append]
  refine .append (.append (.append (.append (.append ?_ ?_) ?_) ?_) ?_) ?_
  · cases record.trace <;> simp [traceColumns]
  · exact List.Sublist.refl _
  · cases record.eventId <;> simp
  · cases record.eventName <;> simp
  · cases record.body <;> simp
  · cases record.exception <;> simp [exceptionColumns]

end LogRecord

/-! ## Spans -/

namespace Span

/-- The names of the columns that a span may fill, in order. -/
def columnNames : List String :=
  [Column.traceId, Column.spanId] ++ [Column.parentId] ++
    [Column.name, Column.kind, Column.startTime, Column.success] ++ [Column.statusMessage] ++
    [Column.links]

theorem map_fst_columns_sublist (span : Span) :
    (span.columns.map Prod.fst).Sublist columnNames := by
  simp only [columns, List.map_append]
  refine .append (.append (.append (.append ?_ ?_) ?_) ?_) ?_
  · exact List.Sublist.refl _
  · split <;> simp
  · exact List.Sublist.refl _
  · cases span.status.message? <;> simp
  · split <;> simp

theorem distinctKeys_linkValue (link : SpanLink) : (SpanCell.linkValue link).DistinctKeys := by
  refine distinctKeys_map (show _ = ["toTraceId", "toSpanId"].map ofText from rfl) (by decide) ?_
  simp [distinctKeys_ofText]

theorem distinctKeys_readAs (cell : SpanCell) : cell.readAs.DistinctKeys := by
  cases cell with
  | scalar value => exact distinctKeys_ofScalar value
  | time value => exact .leaf rfl
  | links links =>
      apply DistinctKeys.array
      intro item hmem
      obtain ⟨link, -, rfl⟩ := List.mem_map.mp hmem
      exact distinctKeys_linkValue link

end Span

/-! ## Envelopes -/

/-- The bytes are one envelope, and no map in it has a key twice: not the field map, not
the nested map, and none of the others. -/
def HasDistinctKeys (bytes : List UInt8) : Prop :=
  ∃ table stamp fields, Value.read bytes = some (envelope table stamp fields, []) ∧
    (fields.map Prod.fst).Nodup ∧
    (∀ nested, (Value.ofText "env_properties", Value.map nested) ∈ fields →
      (nested.map Prod.fst).Nodup) ∧
    (envelope table stamp fields).DistinctKeys

theorem hasDistinctKeys_of_read {bytes : List UInt8} {table : String} {time : Time}
    {fields : List (Value × Value)}
    (hread : Value.read bytes = some (envelope table (.ofTime time) fields, []))
    (hfields : (Value.map fields).DistinctKeys) : HasDistinctKeys bytes :=
  ⟨table, .ofTime time, fields, hread, hfields.nodup_keys,
    fun _ hmem => (hfields.of_mem hmem).nodup_keys,
    distinctKeys_envelope (.leaf rfl) hfields⟩

variable {configured : List Attribute} {listed : Option (List String)} {buffer after : Buffer}

theorem LogRecord.distinctKeys_fieldEntries (record : LogRecord) (table : String)
    (hfree : HasFreeNames configured) :
    (Value.map (record.fieldEntries table configured listed)).DistinctKeys := by
  have hnames := record.map_key_columns_sublist table
  have hfilled : ∀ name ∈ columnNames, name ∈ Column.filled := by decide
  have hentries : (record.columnEntries table).map Prod.fst =
      ((record.columns table).map Attribute.key).map ofText := by
    rw [← map_entry_columns, List.map_map, List.map_map]
    rfl
  have hvalues : ∀ entry ∈ record.columnEntries table, entry.2.DistinctKeys := by
    rw [← map_entry_columns]
    intro entry hmem
    obtain ⟨column, -, rfl⟩ := List.mem_map.mp hmem
    exact distinctKeys_ofScalar column.value
  have hdistinct := distinctKeys_fields table (chooseListed listed) record.properties hfree
    (hnames.nodup (by decide)) (fun name hmem => hfilled name (hnames.subset hmem)) hentries
    hvalues
  simp only [RecordTemplate.placedColumns_log, RecordTemplate.placedDeferred_log] at hdistinct
  rw [fieldEntries_eq]
  exact hdistinct

theorem LogEncoder.hasDistinctKeys_of_encode {table : String}
    {mappings : List (String × String)} {encoder : LogEncoder}
    (hmake : make table mappings configured listed = .ok encoder) {record : LogRecord}
    (hvalid : buffer.Valid) (hencode : encoder.encode record buffer = .ok () after) :
    ∃ bytes, after.bytes = buffer.bytes ++ bytes ∧ HasDistinctKeys bytes := by
  have hemits := (configured_of_make hmake).emits_encode (inCalendar_of_encode hencode)
  obtain ⟨hbytes, hread⟩ := hemits.read_of_ok hvalid hencode
  obtain ⟨template, htemplate, -⟩ := exists_of_except_bind hmake
  exact ⟨_, hbytes, hasDistinctKeys_of_read hread
    (record.distinctKeys_fieldEntries _ (RecordTemplate.hasFreeNames_of_make htemplate))⟩

theorem Span.distinctKeys_columnEntries (span : Span) :
    ∀ entry ∈ span.columnEntries (.ofTime span.startTime), entry.2.DistinctKeys := by
  rw [← map_columnEntry_columns]
  intro entry hmem
  obtain ⟨column, -, rfl⟩ := List.mem_map.mp hmem
  exact distinctKeys_readAs column.2

theorem SpanEncoder.hasDistinctKeys_of_encode {table : String} {encoder : SpanEncoder}
    (hmake : make table configured listed = .ok encoder) {span : Span}
    (hvalid : buffer.Valid) (hencode : encoder.encode span buffer = .ok () after) :
    ∃ bytes, after.bytes = buffer.bytes ++ bytes ∧ HasDistinctKeys bytes := by
  obtain ⟨template, htemplate, -⟩ := exists_of_except_bind hmake
  have hfree := RecordTemplate.hasFreeNames_of_make htemplate
  obtain rfl := eq_of_make hmake
  obtain ⟨hstart, hend⟩ := inCalendar_of_encode hencode
  obtain ⟨hbytes, hread⟩ := (emits_placed table hstart hend rfl rfl).read_of_ok hvalid hencode
  have hnames := span.map_fst_columns_sublist
  have hfilled : ∀ name ∈ Span.columnNames, name ∈ Column.filled := by decide
  have hentries : (span.columnEntries (.ofTime span.startTime)).map Prod.fst =
      (span.columns.map Prod.fst).map ofText := by
    rw [← Span.map_columnEntry_columns, List.map_map, List.map_map]
    rfl
  refine ⟨_, hbytes, hasDistinctKeys_of_read hread ?_⟩
  exact distinctKeys_fields table _ _ hfree (hnames.nodup (by decide))
    (fun name hmem => hfilled name (hnames.subset hmem)) hentries span.distinctKeys_columnEntries

/-- Whatever the configuration, and whatever the record and its properties, what is written
is an envelope no map of which has a key twice. -/
theorem hasDistinctKeys_of_make :
    (∀ (table : String) (mappings : List (String × String)) (configured : List Attribute)
        (listed : Option (List String)) (encoder : LogEncoder) (record : LogRecord)
        (buffer after : Buffer),
      LogEncoder.make table mappings configured listed = .ok encoder → buffer.Valid →
      encoder.encode record buffer = .ok () after →
      ∃ bytes, after.bytes = buffer.bytes ++ bytes ∧ HasDistinctKeys bytes) ∧
    ∀ (table : String) (configured : List Attribute) (listed : Option (List String))
        (encoder : SpanEncoder) (span : Span) (buffer after : Buffer),
      SpanEncoder.make table configured listed = .ok encoder → buffer.Valid →
      encoder.encode span buffer = .ok () after →
      ∃ bytes, after.bytes = buffer.bytes ++ bytes ∧ HasDistinctKeys bytes :=
  ⟨fun _ _ _ _ _ _ _ _ hmake hvalid hencode =>
      LogEncoder.hasDistinctKeys_of_encode hmake hvalid hencode,
    fun _ _ _ _ _ _ _ hmake hvalid hencode =>
      SpanEncoder.hasDistinctKeys_of_encode hmake hvalid hencode⟩

theorem hasDistinctKeys_of_samples :
    (∃ after, LogEncoder.sampleEncoder.encode LogEncoder.sampleRecord (Buffer.withCapacity 400) =
        .ok () after ∧
      ∃ bytes, after.bytes = (Buffer.withCapacity 400).bytes ++ bytes ∧ HasDistinctKeys bytes) ∧
    ∃ after, SpanEncoder.encode ⟨RecordTemplate.ofParts "Span" [], none⟩
        SpanEncoder.collidingSpan (Buffer.withCapacity 300) = .ok () after ∧
      ∃ bytes, after.bytes = (Buffer.withCapacity 300).bytes ++ bytes ∧
        HasDistinctKeys bytes := by
  have htime : LogEncoder.sampleRecord.time.inCalendar = true := by decide
  have hlog := (LogEncoder.configured_of_make LogEncoder.make_sample).emits_encode htime
  have hlogLength : (LogEncoder.sampleRecord.envelopeBytes
      (LogEncoder.sampleEncoder.tableOf LogEncoder.sampleRecord) LogEncoder.sampleFields
      (some ["user"])).length ≤ 400 := by decide +kernel
  have hspanLength : (SpanEncoder.collidingSpan.envelopeBytes "Span" [] none).length ≤ 300 := by
    decide +kernel
  have hrecord := hlog.ok_withCapacity hlogLength (by decide)
  have hspan := SpanEncoder.emits_colliding.ok_withCapacity hspanLength (by decide)
  exact ⟨⟨_, hrecord, hasDistinctKeys_of_make.1 _ _ _ _ _ _ _ _ LogEncoder.make_sample
      (Buffer.withCapacity_valid 400) hrecord⟩,
    ⟨_, hspan, hasDistinctKeys_of_make.2 _ _ _ _ _ _ _ SpanEncoder.make_colliding
      (Buffer.withCapacity_valid 300) hspan⟩⟩

end TelemetryExport
