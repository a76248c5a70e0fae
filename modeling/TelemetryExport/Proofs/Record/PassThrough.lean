import TelemetryExport.Proofs.Record.Routing

/-! # Categories as table names

A category that is passed through names its own table. Its records are written as though a
mapping sent the category to that table, although the encoder has no template for it and
takes the constant fields from that of the default table. Records whose category names no
table are written as though nothing was passed through.
-/

namespace TelemetryExport

open MessagePack Encode

namespace LogEncoder

theorem ne_wildcard_of_check {name : String} (hname : TableName.check name = .ok ()) :
    name ≠ wildcard := by
  rintro rfl
  cases hname

theorem ne_wildcard_of_derived? {category name : String}
    (hname : TableName.derived? category = some name) : category ≠ wildcard := by
  rintro rfl
  have hnone : TableName.derived? wildcard = none := by decide
  rw [hnone] at hname
  cases hname

/-! ## Encoders with and without the wildcard -/

variable {encoder plain passing : LogEncoder} {configured : List Attribute}
  {table category name : String} {before after : List (String × String)}

/-- The encoder with another route for the categories without a mapping. -/
def withFallback (fallback : Route) (encoder : LogEncoder) : LogEncoder :=
  { encoder with fallback }

theorem withTable_withFallback (fallback : Route) :
    (encoder.withFallback fallback).withTable configured table =
      (encoder.withTable configured table).map fun result =>
        (result.1, result.2.withFallback fallback) := by
  have htemplates : (encoder.withFallback fallback).templates = encoder.templates := rfl
  rw [withTable, withTable, htemplates]
  cases encoder.templates.findIdx? (·.tableName == table) with
  | some index => rfl
  | none => cases RecordTemplate.make table configured <;> rfl

/-- Mappings of named categories do not look at the route of the others. -/
theorem withMapping_withFallback (fallback : Route) {mapping : String × String}
    (hnamed : mapping.1 ≠ wildcard) :
    (encoder.withFallback fallback).withMapping configured mapping =
      (encoder.withMapping configured mapping).map (withFallback fallback) := by
  obtain ⟨category, target⟩ := mapping
  rw [withMapping, withMapping]
  by_cases hpass : target = wildcard
  · rw [if_pos hpass, if_pos hpass, if_neg hnamed, if_neg hnamed]
    rfl
  · rw [if_neg hpass, if_neg hpass, withTable_withFallback]
    cases encoder.withTable configured target with
    | error fault => rfl
    | ok result =>
        change (if category = wildcard then _ else _) =
          Except.map _ (if category = wildcard then _ else _)
        rw [if_neg hnamed, if_neg hnamed]
        rfl

theorem withMappings_withFallback (fallback : Route)
    (hnamed : ∀ mapping ∈ after, mapping.1 ≠ wildcard) :
    after.foldlM (withMapping configured) (encoder.withFallback fallback) =
      (after.foldlM (withMapping configured) encoder).map (withFallback fallback) := by
  induction after generalizing encoder with
  | nil => rfl
  | cons mapping rest ih =>
      obtain ⟨hfirst, hrest⟩ := List.forall_mem_cons.mp hnamed
      rw [List.foldlM_cons, List.foldlM_cons, withMapping_withFallback fallback hfirst]
      cases encoder.withMapping configured mapping with
      | error fault => rfl
      | ok next => exact ih hrest

/-- An encoder that passes categories through is the one without that mapping, but for the
route of the categories that no mapping names. -/
theorem exists_plain {listed : Option (List String)}
    (hpassing : make table (before ++ (wildcard, wildcard) :: after) configured listed =
      .ok passing) (hnamed : ∀ mapping ∈ after, mapping.1 ≠ wildcard) :
    ∃ plain, make table (before ++ after) configured listed = .ok plain ∧
      passing = plain.withFallback .passThrough := by
  obtain ⟨template, htemplate, hpassing⟩ := exists_of_except_bind hpassing
  rw [List.foldlM_append] at hpassing
  obtain ⟨middle, hbefore, hpassing⟩ := exists_of_except_bind hpassing
  rw [List.foldlM_cons] at hpassing
  obtain ⟨routed, hrouted, hafter⟩ := exists_of_except_bind hpassing
  have hfallback : routed = middle.withFallback .passThrough :=
    (Except.ok.inj hrouted).symm
  rw [hfallback, withMappings_withFallback .passThrough hnamed] at hafter
  cases hplain : after.foldlM (withMapping configured) middle with
  | error fault =>
      rw [hplain] at hafter
      cases hafter
  | ok plain =>
      rw [hplain] at hafter
      cases hafter
      refine ⟨plain, ?_, rfl⟩
      rw [make, except_bind_of_ok htemplate, List.foldlM_append, except_bind_of_ok hbefore, hplain]

theorem target_withFallback (hdefault : plain.fallback = .table 0) {record : LogRecord}
    (hnone : record.category.bind TableName.derived? = none) :
    (plain.withFallback .passThrough).target record = plain.target record := by
  cases hcategory : record.category with
  | none => simp only [target, hcategory, route, withFallback, templateAt]
  | some category =>
      rw [hcategory, Option.bind_some, ← TableName.ofCategory?_eq] at hnone
      cases hfound : plain.routes.find? (·.1 == category) with
      | some found => simp only [target, hcategory, route, withFallback, hfound, templateAt]
      | none =>
          simp only [target, hcategory, route, withFallback, hfound, hdefault, templateAt,
            Option.bind_some, hnone]

/-! ## The table of a category that is passed through -/

theorem filter_wildcard_eq_nil (hnamed : ∀ mapping ∈ after, mapping.1 ≠ wildcard) :
    after.filter (·.1 = wildcard) = [] := by
  rw [List.filter_eq_nil_iff]
  intro mapping hmem
  simpa using hnamed mapping hmem

theorem find?_named_eq_none (hothers : ∀ mapping ∈ before, mapping.1 ≠ category) :
    (before.filter (·.1 ≠ wildcard)).find? (·.1 == category) = none := by
  rw [List.find?_eq_none]
  intro mapping hmem
  rw [beq_iff_eq]
  exact hothers mapping (List.mem_of_mem_filter hmem)

theorem mappingFor_passThrough (hothers : ∀ mapping ∈ before ++ after, mapping.1 ≠ category)
    (hnamed : ∀ mapping ∈ after, mapping.1 ≠ wildcard) :
    mappingFor (before ++ (wildcard, wildcard) :: after) category = some (wildcard, wildcard) := by
  obtain ⟨hbefore, hafter⟩ := List.forall_mem_append.mp hothers
  rw [mappingFor, List.filter_append, List.filter_append, List.filter_cons_of_neg (by simp),
    List.filter_cons_of_pos (by simp), List.find?_append, find?_named_eq_none hbefore,
    find?_named_eq_none hafter, filter_wildcard_eq_nil hnamed, List.getLast?_concat]
  rfl

theorem mappingFor_explicit (hbefore : ∀ mapping ∈ before, mapping.1 ≠ category)
    (hcategory : category ≠ wildcard) :
    mappingFor (before ++ (category, name) :: after) category = some (category, name) := by
  rw [mappingFor, List.filter_append, List.filter_cons_of_pos (by simpa using hcategory),
    List.find?_append, find?_named_eq_none hbefore, Option.none_or,
    List.find?_cons_of_pos (by simp), Option.some_or]

/-- The computations end alike: both append the same bytes, or both overflow. -/
def EndsAlike (first second : Encode Unit) (buffer : Buffer) : Prop :=
  (∃ after bytes, first buffer = .ok () after ∧ second buffer = .ok () after ∧
    after.bytes = buffer.bytes ++ bytes) ∨
  ∃ offset requested left otherOffset otherRequested otherLeft,
    first buffer = .error (.bufferOverflow offset requested buffer.capacity) left ∧
    second buffer =
      .error (.bufferOverflow otherOffset otherRequested buffer.capacity) otherLeft

theorem endsAlike_of_writes {first second : Encode Unit} {bytes : List UInt8}
    (hfirst : Writes first bytes ()) (hsecond : Writes second bytes ()) {buffer : Buffer}
    (hvalid : buffer.Valid) : EndsAlike first second buffer := by
  by_cases hroom : buffer.cursor + bytes.length ≤ buffer.capacity
  · exact .inl ⟨_, bytes, hfirst.appends buffer hvalid hroom,
      hsecond.appends buffer hvalid hroom, Buffer.bytes_append hroom⟩
  · have hover := Nat.lt_of_not_le hroom
    obtain ⟨offset, requested, left, herror, -⟩ := hfirst.overflows buffer hvalid hover
    obtain ⟨otherOffset, otherRequested, otherLeft, hother, -⟩ :=
      hsecond.overflows buffer hvalid hover
    exact .inr ⟨offset, requested, left, otherOffset, otherRequested, otherLeft, herror, hother⟩

/-- Encoders with the same fields that send a record to one table write it alike. -/
theorem Configured.endsAlike {listed : Option (List String)}
    (hfirst : encoder.Configured configured listed) (hsecond : plain.Configured configured listed)
    {record : LogRecord} (htable : encoder.tableOf record = plain.tableOf record)
    (htime : record.time.inCalendar = true) {buffer : Buffer} (hvalid : buffer.Valid) :
    EndsAlike (encoder.encode record) (plain.encode record) buffer := by
  have hwrites := (hfirst.emits_encode htime).writes
  rw [htable] at hwrites
  exact endsAlike_of_writes hwrites (hsecond.emits_encode htime).writes hvalid

/-- Wherever categories are passed through, the mapping of a category to the table it names
can stand in that mapping's place, if the table's constant fields fit. -/
theorem exists_explicit_iff {listed : Option (List String)}
    (hpassing : make table (before ++ (wildcard, wildcard) :: after) configured listed =
      .ok passing) (hname : TableName.check name = .ok ()) :
    (∃ explicit, make table (before ++ (category, name) :: after) configured listed =
        .ok explicit) ↔
      ((RecordTemplate.partAFields name configured).flatMap Attribute.entryBytes).length ≤
        maxPayloadSize := by
  obtain ⟨hdefault, hmappings⟩ := exists_make_iff.mp ⟨passing, hpassing⟩
  obtain ⟨-, hfields, -⟩ := RecordTemplate.exists_make_iff.mp hdefault
  rw [List.forall_mem_append, List.forall_mem_cons] at hmappings
  have haccepts : Accepts configured (category, name) ↔
      ((RecordTemplate.partAFields name configured).flatMap Attribute.entryBytes).length ≤
        maxPayloadSize := by
    rw [Accepts, if_neg (ne_wildcard_of_check hname)]
    exact RecordTemplate.exists_make_iff.trans
      ⟨fun hmade => hmade.2.2, fun hfits => ⟨hname, hfields, hfits⟩⟩
  rw [exists_make_iff, List.forall_mem_append, List.forall_mem_cons, haccepts]
  exact ⟨fun haccepted => haccepted.2.2.1,
    fun hfits => ⟨hdefault, hmappings.1, hfits, hmappings.2.2⟩⟩

/-- A category that names a table is written as though a mapping sent it there, wherever that
mapping could stand in the place of the one that passes all categories through. Where no
mapping names the wildcard category otherwise, a record whose category names no table is
written as though that mapping was not there. -/
theorem passesThrough_of_make :
    (∀ category name, TableName.derived? category = some name →
      TableName.check name = .ok () ∧
      ∀ table before after configured listed passing,
        make table (before ++ (wildcard, wildcard) :: after) configured listed = .ok passing →
        (∀ mapping ∈ before ++ after, mapping.1 ≠ category) →
        (∀ mapping ∈ after, mapping.1 ≠ wildcard) →
        ((∃ explicit, make table (before ++ (category, name) :: after) configured listed =
            .ok explicit) ↔
          ((RecordTemplate.partAFields name configured).flatMap Attribute.entryBytes).length ≤
            maxPayloadSize) ∧
        ∀ explicit, make table (before ++ (category, name) :: after) configured listed =
            .ok explicit →
          ∀ record : LogRecord, record.category = some category →
            record.time.inCalendar = true → ∀ buffer : Buffer, buffer.Valid →
              EndsAlike (passing.encode record) (explicit.encode record) buffer) ∧
    ∀ table before after configured listed passing,
      make table (before ++ (wildcard, wildcard) :: after) configured listed = .ok passing →
      (∀ mapping ∈ before ++ after, mapping.1 ≠ wildcard) →
      ∃ plain, make table (before ++ after) configured listed = .ok plain ∧
        ∀ record : LogRecord, record.category.bind TableName.derived? = none →
          passing.encode record = plain.encode record := by
  constructor
  · intro category name hname
    have hcheck := TableName.check_of_derived? hname
    refine ⟨hcheck, fun table before after configured listed passing hpassing hothers hnamed =>
      ⟨exists_explicit_iff hpassing hcheck, ?_⟩⟩
    intro explicit hexplicit record hcategory htime buffer hvalid
    have hfirst : passing.tableOf record = name := by
      rw [(routed_of_make hpassing).tableOf_eq, hcategory, tableFor,
        mappingFor_passThrough hothers hnamed, hname]
      rfl
    have hsecond : explicit.tableOf record = name := by
      rw [(routed_of_make hexplicit).tableOf_eq, hcategory, tableFor,
        mappingFor_explicit (List.forall_mem_append.mp hothers).1
          (ne_wildcard_of_derived? hname)]
      exact if_neg (ne_wildcard_of_check hcheck)
    exact (configured_of_make hpassing).endsAlike (configured_of_make hexplicit)
      (hfirst.trans hsecond.symm) htime hvalid
  · intro table before after configured listed passing hpassing hnamed
    obtain ⟨plain, hplain, rfl⟩ := exists_plain hpassing (List.forall_mem_append.mp hnamed).2
    have hfallback := (routed_of_make hplain).fallback
    rw [filter_wildcard_eq_nil hnamed] at hfallback
    refine ⟨plain, hplain, fun record hrecord => ?_⟩
    rw [encode, encode, target_withFallback hfallback hrecord]
    rfl

/-! ### Two categories, one of which names a table -/

def eventRecord : LogRecord := { sampleRecord with category := some "my.app-events" }

def numberRecord : LogRecord := { sampleRecord with category := some "123" }

theorem accepts_sampleFields (category : String) {name : String} (hname : name ≠ wildcard)
    (hcheck : TableName.check name = .ok ())
    (hfits : ((RecordTemplate.partAFields name sampleFields).flatMap
      Attribute.entryBytes).length ≤ 65360) : Accepts sampleFields (category, name) := by
  rw [Accepts, if_neg hname]
  exact RecordTemplate.exists_make_iff.mpr ⟨hcheck, rfl, hfits⟩

theorem passesThrough_sampleCategories :
    ∃ passing explicit plain,
      make "Log" ([("Db", "Store")] ++ ("*", "*") :: [("Web", "Log")]) sampleFields none =
        .ok passing ∧
      make "Log" ([("Db", "Store")] ++ ("my.app-events", "Myappevents") :: [("Web", "Log")])
        sampleFields none = .ok explicit ∧
      make "Log" ([("Db", "Store")] ++ [("Web", "Log")]) sampleFields none = .ok plain ∧
      EndsAlike (passing.encode eventRecord) (explicit.encode eventRecord)
        (Buffer.withCapacity 400) ∧
      passing.encode numberRecord = plain.encode numberRecord := by
  have hlog : Accepts sampleFields ("Web", "Log") :=
    accepts_sampleFields "Web" (by decide) rfl (by decide)
  have hstore : Accepts sampleFields ("Db", "Store") :=
    accepts_sampleFields "Db" (by decide) rfl (by decide)
  have hlogTable := hlog
  rw [Accepts, if_neg (by decide)] at hlogTable
  obtain ⟨passing, hpassing⟩ : ∃ passing, make "Log"
      ([("Db", "Store")] ++ ("*", "*") :: [("Web", "Log")]) sampleFields none = .ok passing := by
    refine exists_make_iff.mpr ⟨hlogTable, ?_⟩
    simp only [List.forall_mem_append, List.forall_mem_cons]
    exact ⟨⟨hstore, List.forall_mem_nil _⟩, accepts_wildcard, hlog, List.forall_mem_nil _⟩
  obtain ⟨hmapped, hunmapped⟩ := passesThrough_of_make
  obtain ⟨-, hagrees⟩ := hmapped "my.app-events" "Myappevents" (by decide)
  obtain ⟨hexplicit, hencodes⟩ := hagrees "Log" [("Db", "Store")] [("Web", "Log")] sampleFields
    none passing hpassing (by decide) (by decide)
  obtain ⟨explicit, hexplicit⟩ := hexplicit.mpr (show _ ≤ 65360 by decide)
  obtain ⟨plain, hplain, hsame⟩ := hunmapped "Log" [("Db", "Store")] [("Web", "Log")]
    sampleFields none passing hpassing (by decide)
  exact ⟨passing, explicit, plain, hpassing, hexplicit, hplain,
    hencodes explicit hexplicit eventRecord rfl (by decide) _ (Buffer.withCapacity_valid 400),
    hsame numberRecord (by decide)⟩

end LogEncoder

end TelemetryExport
