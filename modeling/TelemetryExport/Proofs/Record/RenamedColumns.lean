import TelemetryExport.Proofs.Record.DistinctKeys

/-! # Well-known attributes

A well-known attribute of a span is in its envelope under the name of its column, whatever
the configuration lists and whatever other attributes the span has: it is the one that stays
where another attribute has the column's name. Only a configured field is before it. One with
the column's name keeps the attribute from its column, and so does one with the attribute's
own key, although it leaves the column free.
-/

namespace TelemetryExport

open MessagePack Encode

namespace SpanEncoder

variable {table : String} {configured : List Attribute} {listed : Option (List String)}
  {span : Span} {key column : String} {value : AnyValue}

theorem lookup_of_mem (hknown : (key, column) ∈ renamedColumns) :
    renamedColumns.lookup key = some column := by
  have hall : ∀ entry ∈ renamedColumns,
      renamedColumns.lookup entry.1 = some entry.2 := by decide
  exact hall _ hknown

/-- No fixed column bears the name of a well-known attribute or of its column. -/
theorem isTaken_of_mem (configured : List Attribute)
    (hknown : (key, column) ∈ renamedColumns) :
    (isTaken configured key = true ↔ key ∈ configured.map Attribute.key) ∧
      (isTaken configured column = true ↔ column ∈ configured.map Attribute.key) := by
  have hall : ∀ entry ∈ renamedColumns,
      reservedKeys.contains entry.1 = false ∧ reservedKeys.contains entry.2 = false := by
    decide
  obtain ⟨hkey, hcolumn⟩ := hall _ hknown
  simp only [isTaken, hkey, hcolumn, Bool.false_or, List.any_eq_true, beq_iff_eq, List.mem_map,
    and_self]

/-- A well-known attribute has its column unless a configured field has one of the names. -/
theorem columnOf_of_mem (hknown : (key, column) ∈ renamedColumns)
    (hkey : key ∉ configured.map Attribute.key)
    (hcolumn : column ∉ configured.map Attribute.key) :
    columnOf configured listed key = some column := by
  obtain ⟨htaken, htakenColumn⟩ := isTaken_of_mem configured hknown
  simp only [columnOf, if_neg (mt htaken.mp hkey), lookup_of_mem hknown,
    if_neg (mt htakenColumn.mp hcolumn)]

theorem columnOf_of_configured (hknown : (key, column) ∈ renamedColumns)
    (htaken : key ∈ configured.map Attribute.key ∨ column ∈ configured.map Attribute.key) :
    columnOf configured listed key = none := by
  obtain ⟨hkey, hcolumn⟩ := isTaken_of_mem configured hknown
  by_cases hown : isTaken configured key = true
  · rw [columnOf, if_pos hown]
  · have hother := hcolumn.mpr (htaken.resolve_left (mt hkey.mpr hown))
    simp only [columnOf, if_neg hown, lookup_of_mem hknown, if_pos hother]

/-- A renamed attribute gives way to no other one. -/
theorem mem_writtenColumns (hmem : (key, value) ∈ span.attributes)
    (hcolumn : columnOf configured listed key = some column) (hrenamed : column ≠ key) :
    ⟨column, Span.attributeAs value⟩ ∈ span.writtenColumns configured listed := by
  have hproperty : ⟨key, Span.attributeAs value⟩ ∈ span.attributesAs :=
    List.mem_map.mpr ⟨(key, value), hmem, rfl⟩
  refine List.mem_filterMap.mpr
    ⟨⟨key, Span.attributeAs value⟩, List.mem_filter.mpr ⟨hproperty, ?_⟩, ?_⟩
  · rw [Bool.not_eq_true', Bool.eq_false_iff]
    intro hdisplaced
    have hown := (isDisplaced_iff.mp hdisplaced).1
    exact hrenamed (Option.some.inj (hcolumn.symm.trans hown))
  · rw [hcolumn]
    rfl

theorem mem_writtenDeferred (hmem : (key, value) ∈ span.attributes)
    (hcolumn : columnOf configured listed key = none) :
    ⟨key, Span.attributeAs value⟩ ∈ span.writtenDeferred configured listed := by
  refine List.mem_filter.mpr ⟨List.mem_map.mpr ⟨(key, value), hmem, rfl⟩, ?_⟩
  rw [hcolumn]
  rfl

theorem mem_fieldEntries_of_column (table : String) (start : Value) {property : Attribute}
    (hmem : property ∈ span.writtenColumns configured listed) :
    property.entry ∈ span.fieldEntries table configured listed start := by
  simp only [Span.fieldEntries, Span.fieldsWith, propertyEntries, List.mem_cons,
    List.mem_append]
  exact .inr (.inr (.inr (.inl (List.mem_map_of_mem hmem))))

theorem mem_fieldEntries_of_deferred (table : String) (start : Value) {property : Attribute}
    (hmem : property ∈ span.writtenDeferred configured listed) :
    (.ofText "env_properties", .map ((span.writtenDeferred configured listed).map
      Attribute.entry)) ∈ span.fieldEntries table configured listed start := by
  simp only [Span.fieldEntries, Span.fieldsWith, propertyEntries, List.mem_cons,
    List.mem_append, if_neg (List.ne_nil_of_mem hmem)]
  exact .inr (.inr (.inr (.inr (.inl trivial))))

/-- Only a configured field keeps a well-known attribute from its column: one with the name of
the column, or one with the key of the attribute. The attribute is then in the nested map. In
the maps that are read no key comes twice, so that each of these entries is the only one of
its key. -/
theorem renamed_of_encode {encoder : SpanEncoder}
    (hmake : make table configured listed = .ok encoder)
    (hkeys : (span.attributes.map (·.1)).Nodup) {buffer after : Buffer} (hvalid : buffer.Valid)
    (hencode : encoder.encode span buffer = .ok () after) :
    ∃ bytes stamp fields, after.bytes = buffer.bytes ++ bytes ∧
      Value.read bytes = some (envelope table stamp fields, []) ∧
      (fields.map Prod.fst).Nodup ∧
      ∀ key column value, (key, value) ∈ span.attributes →
        (key, column) ∈ renamedColumns →
        (column ∉ configured.map Attribute.key → key ∉ configured.map Attribute.key →
          (.ofText column, .ofScalar (Span.attributeAs value)) ∈ fields) ∧
        (column ∈ configured.map Attribute.key ∨ key ∈ configured.map Attribute.key →
          ∃ nested, (.ofText "env_properties", .map nested) ∈ fields ∧
            (nested.map Prod.fst).Nodup ∧
            (.ofText key, .ofScalar (Span.attributeAs value)) ∈ nested) := by
  obtain ⟨bytes, hbytes, _, stamp, fields, hread, hnodup, hnested, -⟩ :=
    hasDistinctKeys_of_encode hmake hvalid hencode
  obtain rfl := eq_of_make hmake
  obtain ⟨hstart, hend⟩ := inCalendar_of_encode hencode
  have hemits : Emits (encode ⟨RecordTemplate.ofParts table configured, listed⟩ span) _ _ :=
    emits_encode table hstart hend hkeys
  obtain ⟨hwritten, hreadSpan⟩ := hemits.read_of_ok hvalid hencode
  obtain rfl := List.append_cancel_left (hbytes.symm.trans hwritten)
  have henvelope := congrArg Prod.fst (Option.some.inj (hread.symm.trans hreadSpan))
  obtain rfl := fields_eq_of_envelope_eq henvelope
  refine ⟨_, _, _, hwritten, hreadSpan, hnodup, fun key column value hmem hknown => ⟨?_, ?_⟩⟩
  · intro hcolumn hkey
    have hplace : columnOf configured listed key = some column :=
      columnOf_of_mem hknown hkey hcolumn
    exact mem_fieldEntries_of_column table _
      (mem_writtenColumns hmem hplace (ne_of_lookup (lookup_of_mem hknown)))
  · intro htaken
    have hplace : columnOf configured listed key = none :=
      columnOf_of_configured hknown htaken.symm
    have hdeferred := mem_writtenDeferred hmem hplace
    have hmap := mem_fieldEntries_of_deferred table (.ofTime span.startTime) hdeferred
    exact ⟨_, hmap, hnested _ hmap, List.mem_map_of_mem hdeferred⟩

/-- Of two well-known attributes one replaces another attribute, and the other one gives way to
a configured field. -/
theorem renamed_sampleSpan :
    ∃ after, encode ⟨RecordTemplate.ofParts "Span" sampleFields, some ["httpMethod", "user"]⟩
        sampleSpan (Buffer.withCapacity 600) = .ok () after ∧
      ∃ bytes stamp fields, after.bytes = (Buffer.withCapacity 600).bytes ++ bytes ∧
        Value.read bytes = some (envelope "Span" stamp fields, []) ∧
        (fields.map Prod.fst).Nodup ∧
        (.ofText "httpMethod", .ofText "GET") ∈ fields ∧
        ∃ nested, (.ofText "env_properties", .map nested) ∈ fields ∧
          (.ofText "db.name", .ofText "orders") ∈ nested := by
  have hkeys : (sampleSpan.attributes.map (·.1)).Nodup := by decide
  have hlength : (sampleSpan.envelopeBytes "Span" sampleFields
      (some ["httpMethod", "user"])).length ≤ 600 := by decide +kernel
  have hencode := (emits_encode "Span" (by decide) (by decide) hkeys).ok_withCapacity hlength
    (by decide)
  obtain ⟨bytes, stamp, fields, hbytes, hread, hnodup, hrenamed⟩ :=
    renamed_of_encode make_sample hkeys (Buffer.withCapacity_valid 600) hencode
  have hmethod := (hrenamed "http.method" "httpMethod" (.text "GET") (by decide) (by decide)).1
    (by decide) (by decide)
  obtain ⟨nested, hmap, -, hname⟩ :=
    (hrenamed "db.name" "dbName" (.text "orders") (by decide) (by decide)).2 (by decide)
  exact ⟨_, hencode, bytes, stamp, fields, hbytes, hread, hnodup, hmethod, nested, hmap, hname⟩

/-! ### A configured field with the key of an attribute -/

def methodField : List Attribute := [⟨"http.method", .text "fixed"⟩]

def methodSpan : Span := { collidingSpan with attributes := [("http.method", .text "GET")] }

theorem make_methodField :
    make "Span" methodField none = .ok ⟨RecordTemplate.ofParts "Span" methodField, none⟩ := by
  have hlength : ((RecordTemplate.partAFields "Span" methodField).flatMap
      Attribute.entryBytes).length = 32 := by decide
  apply make_eq rfl rfl
  change _ ≤ 65360
  omega

/-- Not every well-known attribute whose column is free is in the field map: one whose key is
that of a configured field is not. -/
theorem not_forall_renamed :
    ¬ ∀ (table : String) (configured : List Attribute) (listed : Option (List String))
      (encoder : SpanEncoder) (span : Span) (buffer after : Buffer),
      make table configured listed = .ok encoder → (span.attributes.map (·.1)).Nodup →
      buffer.Valid → encoder.encode span buffer = .ok () after →
      ∃ bytes stamp fields, after.bytes = buffer.bytes ++ bytes ∧
        Value.read bytes = some (envelope table stamp fields, []) ∧
        ∀ key column value, (key, value) ∈ span.attributes →
          (key, column) ∈ renamedColumns → column ∉ reservedKeys →
          column ∉ configured.map Attribute.key →
          (.ofText column, .ofScalar (Span.attributeAs value)) ∈ fields := by
  intro hall
  have hemits : Emits (encode ⟨RecordTemplate.ofParts "Span" methodField, none⟩ methodSpan) _ _ :=
    emits_encode "Span" (by decide) (by decide) (by decide)
  have hlength : (methodSpan.envelopeBytes "Span" methodField none).length ≤ 300 := by
    decide +kernel
  have hencode := hemits.ok_withCapacity hlength (by decide)
  have hvalid := Buffer.withCapacity_valid 300
  obtain ⟨hbytes, hread⟩ := hemits.read_of_ok hvalid hencode
  obtain ⟨bytes, stamp, fields, hclaimed, hreadClaim, hclaim⟩ := hall "Span" methodField none _
    methodSpan _ _ make_methodField (by decide) hvalid hencode
  obtain rfl := List.append_cancel_left (hbytes.symm.trans hclaimed)
  obtain rfl := fields_eq_of_envelope_eq
    (congrArg Prod.fst (Option.some.inj (hread.symm.trans hreadClaim)))
  have hcolumn := hclaim "http.method" "httpMethod" (.text "GET") (by decide) (by decide)
    (by decide) (by decide)
  -- No field has the name of the column.
  have hnames : (methodSpan.fieldEntries "Span" methodField none (.ofTime .epoch)).map Prod.fst =
      ["env_name", "http.method", "env_dt_traceId", "env_dt_spanId", "name", "kind", "startTime",
        "success", "env_properties"].map Value.ofText := rfl
  have hname := List.mem_map_of_mem (f := Prod.fst) hcolumn
  rw [show methodSpan.startTime = .epoch from rfl, hnames] at hname
  obtain ⟨name, hmem, hsame⟩ := List.mem_map.mp hname
  obtain rfl := Value.ofText_inj.mp hsame
  exact absurd hmem (by decide)

end SpanEncoder

end TelemetryExport
