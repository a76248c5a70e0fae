import Mathlib.Data.List.Nodup
import TelemetryExport.Proofs.Record.Routing

/-! # The tables of an encoder

An encoder is made from a default table and mappings, one mapping after another, or it is
refused. A mapping adds a template only where its table has none yet, so the templates
stand for the tables that are named, each table for itself. Together with the routes this
says where every record goes.
-/

namespace TelemetryExport

open MessagePack Encode

namespace LogEncoder

variable {encoder next : LogEncoder} {configured : List Attribute} {table : String}
  {mapping : String × String} {earlier mappings : List (String × String)}

/-! ## One template for each table -/

/-- The tables that have a template, in the order of the indices. -/
def tables (encoder : LogEncoder) : List String :=
  encoder.templates.map (·.tableName)

/-- The tables that are named by a default table and mappings. The wildcard is none. -/
def Names (table : String) (mappings : List (String × String)) (name : String) : Prop :=
  name = table ∨ name ≠ wildcard ∧ ∃ mapping ∈ mappings, mapping.2 = name

theorem names_append {name : String} : Names table (earlier ++ [mapping]) name ↔
    Names table earlier name ∨ mapping.2 ≠ wildcard ∧ mapping.2 = name := by
  simp only [Names, List.mem_append, List.mem_singleton]
  constructor
  · rintro (hdefault | ⟨hname, other, hother | rfl, rfl⟩)
    · exact .inl (.inl hdefault)
    · exact .inl (.inr ⟨hname, other, hother, rfl⟩)
    · exact .inr ⟨hname, rfl⟩
  · rintro ((hdefault | ⟨hname, other, hother, rfl⟩) | ⟨hname, rfl⟩)
    · exact .inl hdefault
    · exact .inr ⟨hname, other, .inl hother, rfl⟩
    · exact .inr ⟨hname, mapping, .inr rfl, rfl⟩

theorem tables_of_withTable {index : Nat}
    (hnext : encoder.withTable configured table = .ok (index, next)) :
    next.tables = if table ∈ encoder.tables then encoder.tables
      else encoder.tables ++ [table] := by
  rcases cases_of_withTable hnext with
    ⟨rfl, template, hindex, rfl⟩ | ⟨hmissing, -, template, hmake, rfl⟩
  · have hmem : template.tableName ∈ next.tables :=
      List.mem_map_of_mem (List.mem_of_getElem? hindex)
    rw [if_pos hmem]
  · have hnew : table ∉ encoder.tables := by
      intro hmem
      obtain ⟨other, hother, hname⟩ := List.mem_map.mp hmem
      exact hmissing other hother hname
    rw [if_neg hnew, tables, templates_push, List.map_append, List.map_singleton,
      tableName_of_make hmake]
    rfl

theorem tables_withRoute (encoder : LogEncoder) (category : String) (route : Route) :
    (encoder.withRoute category route).tables = encoder.tables :=
  congrArg (List.map RecordTemplate.tableName) (encoder.templates_withRoute category route)

theorem tables_of_withMapping (hnext : encoder.withMapping configured mapping = .ok next) :
    next.tables = if mapping.2 = wildcard ∨ mapping.2 ∈ encoder.tables then encoder.tables
      else encoder.tables ++ [mapping.2] := by
  rcases cases_of_withMapping hnext with
    ⟨hpass, -, rfl⟩ | ⟨hnamed, index, routed, hrouted, rfl⟩
  · rw [if_pos (.inl hpass), tables_withRoute]
  · rw [tables_withRoute, tables_of_withTable hrouted]
    simp only [hnamed, false_or]

/-- An encoder has one template for each table that is named, and no other. -/
structure Indexes (table : String) (mappings : List (String × String))
    (encoder : LogEncoder) : Prop where
  nodup : encoder.tables.Nodup
  mem_iff : ∀ name, name ∈ encoder.tables ↔ Names table mappings name

theorem Indexes.withMapping (hindexes : Indexes table earlier encoder)
    (hnext : encoder.withMapping configured mapping = .ok next) :
    Indexes table (earlier ++ [mapping]) next := by
  have htables := tables_of_withMapping hnext
  split at htables
  next hknown =>
    refine ⟨htables ▸ hindexes.nodup, fun name => ?_⟩
    rw [htables, names_append, hindexes.mem_iff]
    refine ⟨.inl, ?_⟩
    rintro (hname | ⟨hnamed, rfl⟩)
    · exact hname
    · exact (hindexes.mem_iff _).mp (hknown.resolve_left hnamed)
  next hnew =>
    obtain ⟨hnamed, hmissing⟩ := not_or.mp hnew
    refine ⟨?_, fun name => ?_⟩
    · rw [htables, List.nodup_append]
      refine ⟨hindexes.nodup, List.nodup_singleton _, fun known hknown added hadded => ?_⟩
      rintro rfl
      exact hmissing (List.mem_singleton.mp hadded ▸ hknown)
    · rw [htables, names_append, List.mem_append, List.mem_singleton, hindexes.mem_iff]
      simp only [ne_eq, hnamed, not_false_eq_true, true_and, eq_comm]

theorem indexes_of_make {listed : Option (List String)}
    (hmake : make table mappings configured listed = .ok encoder) :
    Indexes table mappings encoder := by
  refine make_induction Indexes.withMapping
    (fun template htemplate => ⟨List.nodup_singleton _, fun name => ?_⟩) hmake
  simp only [tables, templates, List.map_cons, List.map_nil, List.mem_singleton,
    tableName_of_make htemplate, Names, List.not_mem_nil, false_and, exists_false, and_false,
    or_false]

/-! ## Where records go -/

/-- An encoder that serves a default table and mappings. Each table that is named has one
template, made with the configured fields, and the routes lead to the templates of the
tables that they stand for. A record is written where its time lies in the calendar, as an
envelope that bears the name of the table that the mappings give to its category. -/
structure Serves (table : String) (mappings : List (String × String))
    (configured : List Attribute) (encoder : LogEncoder) : Prop where
  indexes : Indexes table mappings encoder
  routed : Routed table configured mappings encoder
  dated : ∀ (record : LogRecord) (buffer after : Buffer),
    encoder.encode record buffer = .ok () after → record.time.inCalendar = true
  envelopes : ∀ record : LogRecord, record.time.inCalendar = true → ∃ bytes stamp fields,
    Writes (encoder.encode record) bytes () ∧
    Value.timestamp? stamp = some (record.time.seconds.toInt, record.time.nanoseconds.val) ∧
    (bytes.length ≤ maxPayloadSize →
      Value.read bytes = some (envelope (tableFor table mappings record.category) stamp
        ((.ofText "env_name", .ofText (tableFor table mappings record.category)) :: fields), []))

theorem serves_of_make {listed : Option (List String)}
    (hmake : make table mappings configured listed = .ok encoder) :
    Serves table mappings configured encoder where
  indexes := indexes_of_make hmake
  routed := routed_of_make hmake
  dated := fun _ _ _ => inCalendar_of_encode
  envelopes := by
    intro record htime
    have hemits := (configured_of_make hmake).emits_encode htime
    rw [(routed_of_make hmake).tableOf_eq] at hemits
    exact ⟨_, .ofTime record.time, _, hemits.writes, Value.timestamp?_ofTime record.time,
      hemits.encodes.read⟩

theorem accepts_iff : Accepts configured mapping ↔
    (mapping.2 ≠ wildcard →
      ∃ template, RecordTemplate.make mapping.2 configured = .ok template) ∧
    (mapping.2 = wildcard → mapping.1 = wildcard) := by
  rw [Accepts, ite_prop_iff_and, and_comm]

/-- An encoder is made exactly where the default table and every table that a mapping names
has a template, and only the wildcard category is mapped to the wildcard. It serves them. -/
theorem serves (table : String) (mappings : List (String × String))
    (configured : List Attribute) (listed : Option (List String)) :
    ((∃ encoder, make table mappings configured listed = .ok encoder) ↔
      (∃ template, RecordTemplate.make table configured = .ok template) ∧
      (∀ mapping ∈ mappings, mapping.2 ≠ wildcard →
        ∃ template, RecordTemplate.make mapping.2 configured = .ok template) ∧
      ∀ mapping ∈ mappings, mapping.2 = wildcard → mapping.1 = wildcard) ∧
    ∀ encoder, make table mappings configured listed = .ok encoder →
      Serves table mappings configured encoder := by
  refine ⟨?_, fun encoder hmake => serves_of_make hmake⟩
  simp only [exists_make_iff, accepts_iff, imp_and, forall_and]

/-! ### Mappings that name a table twice, and the default table once more -/

def sampleMappings : List (String × String) :=
  [("Db", "Store"), ("Web", "Log"), ("Disk", "Store"), ("*", "*")]

/-- A record whose category none of the mappings names. -/
def strayRecord : LogRecord := { sampleRecord with category := some "my-app.Level 2" }

/-- What an encoder appends to an empty buffer is no longer than the buffer. -/
theorem Serves.read_of_ok (hserves : Serves table mappings configured encoder)
    {record : LogRecord} {requested : Nat} {after : Buffer}
    (hencode : encoder.encode record (Buffer.withCapacity requested) = .ok () after) :
    ∃ stamp fields, Value.read after.bytes =
      some (envelope (tableFor table mappings record.category) stamp
        ((.ofText "env_name", .ofText (tableFor table mappings record.category)) :: fields),
        []) := by
  have hvalid := Buffer.withCapacity_valid requested
  obtain ⟨bytes, stamp, fields, hwrites, -, hread⟩ :=
    hserves.envelopes record (hserves.dated _ _ _ hencode)
  obtain ⟨hroom, -, rfl⟩ := hwrites.of_ok hvalid hencode
  have hempty : (Buffer.withCapacity requested).bytes = [] := rfl
  rw [Buffer.bytes_append hroom, hempty, List.nil_append]
  have hcapacity := hvalid.capacity_le
  exact ⟨stamp, fields, hread (by omega)⟩

theorem tables_sampleMappings {encoder : LogEncoder}
    (hserves : Serves "Log" sampleMappings sampleFields encoder) :
    encoder.tables.Perm ["Log", "Store"] := by
  refine (List.perm_ext_iff_of_nodup hserves.indexes.nodup (by decide)).mpr fun name => ?_
  rw [hserves.indexes.mem_iff]
  simp only [Names, sampleMappings, List.mem_cons, List.not_mem_nil, or_false]
  constructor
  · rintro (rfl | ⟨hnamed, mapping, rfl | rfl | rfl | rfl, rfl⟩)
    · exact .inl rfl
    · exact .inr rfl
    · exact .inl rfl
    · exact .inr rfl
    · exact absurd rfl hnamed
  · rintro (rfl | rfl)
    · exact .inl rfl
    · exact .inr ⟨by decide, ("Db", "Store"), .inl rfl, rfl⟩

/-- These mappings need two templates, and a category that none of them names gives its own
table. If another category was mapped to the wildcard they would be refused. -/
theorem serves_sampleMappings :
    (∃ encoder after stamp fields, make "Log" sampleMappings sampleFields none = .ok encoder ∧
      Serves "Log" sampleMappings sampleFields encoder ∧ encoder.tables.length = 2 ∧
      encoder.encode strayRecord (Buffer.withCapacity 400) = .ok () after ∧
      Value.read after.bytes = some (envelope "MyappLevel2" stamp
        ((.ofText "env_name", .ofText "MyappLevel2") :: fields), [])) ∧
    ¬∃ encoder, make "Log" (sampleMappings ++ [("Job", "*")]) sampleFields none =
      .ok encoder := by
  obtain ⟨hmade, hserves⟩ := serves "Log" sampleMappings sampleFields none
  have hlog : ∃ template, RecordTemplate.make "Log" sampleFields = .ok template :=
    RecordTemplate.exists_make_iff.mpr ⟨rfl, rfl, show _ ≤ 65360 by decide⟩
  have hstore : ∃ template, RecordTemplate.make "Store" sampleFields = .ok template :=
    RecordTemplate.exists_make_iff.mpr ⟨rfl, rfl, show _ ≤ 65360 by decide⟩
  obtain ⟨encoder, hmake⟩ := hmade.mpr ⟨hlog, by
    simp only [sampleMappings, List.forall_mem_cons]
    exact ⟨fun _ => hstore, fun _ => hlog, fun _ => hstore, fun hpass => absurd rfl hpass,
      List.forall_mem_nil _⟩, by decide⟩
  have hserved := hserves encoder hmake
  have htable : tableFor "Log" sampleMappings strayRecord.category = "MyappLevel2" := by decide
  have hemits := (configured_of_make hmake).emits_encode (show strayRecord.time.inCalendar = true
    by decide)
  rw [hserved.routed.tableOf_eq, htable] at hemits
  have hlength : (strayRecord.envelopeBytes "MyappLevel2" sampleFields none).length ≤ 400 := by
    decide +kernel
  have hencode := hemits.ok_withCapacity hlength (by decide)
  obtain ⟨stamp, fields, hread⟩ := hserved.read_of_ok hencode
  rw [htable] at hread
  have htables := (tables_sampleMappings hserved).length_eq
  refine ⟨⟨encoder, _, stamp, fields, hmake, hserved, htables, hencode, hread⟩,
    fun hrefused => ?_⟩
  obtain ⟨-, -, hwild⟩ := (serves "Log" _ sampleFields none).1.mp hrefused
  exact absurd (hwild ("Job", "*") (by decide) rfl) (by decide)

end LogEncoder

end TelemetryExport
