import TelemetryExport.Proofs.Record.Log

/-! # Encoded log records

An encoder holds a template for each table that its mappings name, all with the same
constant fields. Whichever of them a record is written by, and under whichever table
name, the bytes are the record's envelope.
-/

namespace TelemetryExport

open MessagePack Encode

namespace LogEncoder

variable {encoder : LogEncoder} {configured : List Attribute} {listed : Option (List String)}

/-! ## Mappings one after another -/

section

variable {next : LogEncoder} {mapping : String × String} {table : String}
  {mappings : List (String × String)}

theorem templates_push (encoder : LogEncoder) (template : RecordTemplate) :
    ({ encoder with mapped := encoder.mapped.push template } : LogEncoder).templates =
      encoder.templates ++ [template] := by
  rw [templates, Array.toList_push]
  rfl

/-- A table's template is found, or else it is made and gets the next index. -/
theorem cases_of_withTable {index : Nat}
    (hnext : encoder.withTable configured table = .ok (index, next)) :
    (next = encoder ∧ ∃ template, encoder.templates[index]? = some template ∧
      template.tableName = table) ∨
    (∀ template ∈ encoder.templates, template.tableName ≠ table) ∧
      index = encoder.templates.length ∧
      ∃ template, RecordTemplate.make table configured = .ok template ∧
        next = { encoder with mapped := encoder.mapped.push template } := by
  unfold withTable at hnext
  split at hnext
  next found hfound =>
    cases hnext
    obtain ⟨hlt, hname, -⟩ := List.findIdx?_eq_some_iff_getElem.mp hfound
    exact .inl ⟨rfl, _, List.getElem?_eq_getElem hlt, beq_iff_eq.mp hname⟩
  next hmissing =>
    obtain ⟨template, hmake, hnext⟩ := exists_of_except_bind hnext
    cases hnext
    refine .inr ⟨fun other hother => ?_, rfl, template, hmake, rfl⟩
    exact beq_eq_false_iff_ne.mp (List.findIdx?_eq_none_iff.mp hmissing other hother)

/-- The encoder with a route for a category. -/
def withRoute (encoder : LogEncoder) (category : String) (route : Route) : LogEncoder :=
  if category = wildcard then { encoder with fallback := route }
  else { encoder with routes := encoder.routes.push (category, route) }

theorem exists_withRoute_eq (encoder : LogEncoder) (category : String) (route : Route) :
    ∃ routes fallback, encoder.withRoute category route = { encoder with routes, fallback } := by
  rw [withRoute]
  split
  · exact ⟨_, _, rfl⟩
  · exact ⟨_, _, rfl⟩

/-- Routes are stored beside the templates. -/
theorem templates_withRoute (encoder : LogEncoder) (category : String) (route : Route) :
    (encoder.withRoute category route).templates = encoder.templates := by
  obtain ⟨_, _, hroute⟩ := exists_withRoute_eq encoder category route
  rw [hroute]
  rfl

/-- All that a mapping does. The wildcard stands for no table. Only a table that is named may
add a template. -/
theorem cases_of_withMapping (hnext : encoder.withMapping configured mapping = .ok next) :
    (mapping.2 = wildcard ∧ mapping.1 = wildcard ∧
      next = encoder.withRoute mapping.1 .passThrough) ∨
    mapping.2 ≠ wildcard ∧ ∃ index routed,
      encoder.withTable configured mapping.2 = .ok (index, routed) ∧
      next = routed.withRoute mapping.1 (.table index) := by
  obtain ⟨category, target⟩ := mapping
  have hstored {routed : LogEncoder} {route : Route}
      (hok : (if category = wildcard then pure { routed with fallback := route }
        else pure { routed with routes := routed.routes.push (category, route) } :
          Except ConfigError LogEncoder) = .ok next) : next = routed.withRoute category route := by
    rw [withRoute]
    split at hok
    next hwildcard =>
      cases hok
      rw [if_pos hwildcard]
    next hnamed =>
      cases hok
      rw [if_neg hnamed]
  rw [withMapping] at hnext
  split at hnext
  next hpass =>
    split at hnext
    next hcategory =>
      obtain ⟨⟨route, routed⟩, hroute, hnext⟩ := exists_of_except_bind hnext
      cases hroute
      cases hnext
      exact .inl ⟨hpass, hcategory, (if_pos hcategory).symm⟩
    next =>
      obtain ⟨_, hroute, -⟩ := exists_of_except_bind hnext
      cases hroute
  next hnamed =>
    obtain ⟨⟨index, routed⟩, hrouted, hnext⟩ := exists_of_except_bind hnext
    exact .inr ⟨hnamed, index, routed, hrouted, hstored hnext⟩

section Induction

variable {motive : List (String × String) → LogEncoder → Prop}
  (hstep : ∀ {earlier mapping encoder next}, motive earlier encoder →
    encoder.withMapping configured mapping = .ok next → motive (earlier ++ [mapping]) next)

include hstep

theorem withMappings_induction {earlier : List (String × String)}
    (hencoder : motive earlier encoder)
    (hlast : mappings.foldlM (withMapping configured) encoder = .ok next) :
    motive (earlier ++ mappings) next := by
  induction mappings generalizing encoder earlier with
  | nil =>
      cases hlast
      rw [List.append_nil]
      exact hencoder
  | cons mapping rest ih =>
      rw [List.foldlM_cons] at hlast
      obtain ⟨middle, hmiddle, hlast⟩ := exists_of_except_bind hlast
      have hrest := ih (hstep hencoder hmiddle) hlast
      rw [List.append_assoc] at hrest
      exact hrest

/-- What holds of the default table alone, and is kept by one more mapping, holds of every
encoder that is made. -/
theorem make_induction
    (hfirst : ∀ template, RecordTemplate.make table configured = .ok template →
      motive [] ⟨template, #[], #[], .table 0, listed⟩)
    (hmake : make table mappings configured listed = .ok encoder) : motive mappings encoder := by
  obtain ⟨template, htemplate, hmappings⟩ := exists_of_except_bind hmake
  exact withMappings_induction hstep (hfirst template htemplate) hmappings

end Induction

end

/-! ## Templates -/

/-- Every template of the encoder is that of its table with the same fields. -/
structure Configured (encoder : LogEncoder) (configured : List Attribute)
    (listed : Option (List String)) : Prop where
  templates : ∀ template ∈ encoder.templates,
    template = RecordTemplate.ofParts template.tableName configured
  customColumns : encoder.customColumns = listed

theorem Configured.withTable (hconfigured : encoder.Configured configured listed)
    {table : String} {index : Nat} {next : LogEncoder}
    (hnext : encoder.withTable configured table = .ok (index, next)) :
    next.Configured configured listed := by
  rcases cases_of_withTable hnext with ⟨rfl, -⟩ | ⟨-, -, template, hmake, rfl⟩
  · exact hconfigured
  · refine ⟨?_, hconfigured.customColumns⟩
    intro other hmem
    rw [templates_push] at hmem
    rcases List.mem_append.mp hmem with hmem | hmem
    · exact hconfigured.templates other hmem
    · obtain rfl := List.mem_singleton.mp hmem
      obtain rfl := RecordTemplate.eq_ofParts_of_make hmake
      rfl

theorem Configured.withRoute (hconfigured : encoder.Configured configured listed)
    (category : String) (route : Route) :
    (encoder.withRoute category route).Configured configured listed := by
  obtain ⟨_, _, hroute⟩ := exists_withRoute_eq encoder category route
  rw [hroute]
  exact ⟨hconfigured.templates, hconfigured.customColumns⟩

/-- A mapping may add a template. It changes none. -/
theorem Configured.withMapping (hconfigured : encoder.Configured configured listed)
    {mapping : String × String} {next : LogEncoder}
    (hnext : encoder.withMapping configured mapping = .ok next) :
    next.Configured configured listed := by
  rcases cases_of_withMapping hnext with ⟨-, -, rfl⟩ | ⟨-, index, routed, hrouted, rfl⟩
  · exact hconfigured.withRoute _ _
  · exact (hconfigured.withTable hrouted).withRoute _ _

theorem configured_of_make {table : String} {mappings : List (String × String)}
    (hmake : make table mappings configured listed = .ok encoder) :
    encoder.Configured configured listed := by
  refine make_induction (motive := fun _ encoder => encoder.Configured configured listed)
    (fun hcurrent hnext => hcurrent.withMapping hnext) (fun template htemplate => ?_) hmake
  obtain rfl := RecordTemplate.eq_ofParts_of_make htemplate
  refine ⟨?_, rfl⟩
  intro other hmem
  obtain rfl := List.mem_singleton.mp hmem
  rfl

theorem templateAt_mem (encoder : LogEncoder) (index : Nat) :
    encoder.templateAt index ∈ encoder.templates := by
  cases index with
  | zero => exact List.mem_cons_self
  | succ index =>
      rw [templateAt, Array.getD_eq_getD_getElem?]
      cases hfound : encoder.mapped[index]? with
      | none => exact List.mem_cons_self
      | some template =>
          exact List.mem_cons_of_mem _ (Array.mem_of_getElem? hfound).val

/-- The table to which a record goes. -/
def tableOf (encoder : LogEncoder) (record : LogRecord) : String :=
  (encoder.target record).2.getD (encoder.target record).1.tableName

theorem target_mem (encoder : LogEncoder) (record : LogRecord) :
    (encoder.target record).1 ∈ encoder.templates := by
  unfold target
  split
  · exact encoder.templateAt_mem _
  · exact List.mem_cons_self

/-- An encoded record is one envelope, whose fields follow from the record and the
configuration. -/
theorem Configured.emits_encode (hconfigured : encoder.Configured configured listed)
    {record : LogRecord} (htime : record.time.inCalendar = true) :
    Emits (encoder.encode record)
      (record.envelopeBytes (encoder.tableOf record) configured listed)
      (envelope (encoder.tableOf record) (.ofTime record.time)
        (record.fieldEntries (encoder.tableOf record) configured listed)) := by
  have htemplate := hconfigured.templates _ (encoder.target_mem record)
  have hcolumns := OpenMap.adds_fields (record.isNull_of_mem_columns (encoder.tableOf record))
  rw [record.map_entry_columns] at hcolumns
  rw [LogEncoder.encode, hconfigured.customColumns, LogRecord.fieldEntries_eq]
  rw [tableOf] at hcolumns ⊢
  -- From here on, any template of the encoder and any table name will do.
  generalize encoder.target record = target at htemplate hcolumns
  obtain ⟨template, table⟩ := target
  generalize hhome : template.tableName = home at htemplate hcolumns
  subst htemplate
  have hbody := hcolumns.bind
    (RecordTemplate.adds_logProperties home configured listed record)
  cases table with
  | none =>
      have hrecord := RecordTemplate.emits_openRecord home configured htime hbody
      simp only [bind_assoc] at hrecord
      exact hrecord
  | some table =>
      have hrecord := RecordTemplate.emits_openRecordAs home table configured htime hbody
      simp only [bind_assoc] at hrecord
      exact hrecord

/-- Only a record whose time lies in the calendar is ever written. -/
theorem inCalendar_of_encode {record : LogRecord} {buffer after : Buffer}
    (hok : encoder.encode record buffer = .ok () after) : record.time.inCalendar = true := by
  rcases htarget : encoder.target record with ⟨template, table⟩
  rw [encode, htarget] at hok
  obtain ⟨_, _, hopen, -⟩ := exists_of_bind_ok hok
  cases table with
  | none => exact RecordTemplate.inCalendar_of_openRecord hopen
  | some table => exact RecordTemplate.inCalendar_of_openRecordAs hopen

/-! ### A record before the epoch, with a repeated key and a property under a column's name -/

def sampleFields : List Attribute := [⟨"cloud.role", .text "api"⟩, ⟨"cloud.zone", .null⟩]

def sampleEncoder : LogEncoder :=
  ⟨RecordTemplate.ofParts "Log" sampleFields, #[], #[], .table 0, some ["user"]⟩

theorem make_sample : make "Log" [] sampleFields (some ["user"]) = .ok sampleEncoder := by
  have hlength : ((RecordTemplate.partAFields "Log" sampleFields).flatMap
      Attribute.entryBytes).length = 28 := by decide
  have hfits : ((RecordTemplate.partAFields "Log" sampleFields).flatMap
      Attribute.entryBytes).length ≤ maxPayloadSize := by
    change _ ≤ 65360
    omega
  rw [make, except_bind_of_ok (RecordTemplate.make_eq rfl rfl hfits)]
  rfl

def sampleRecord : LogRecord where
  time := ⟨-1, ⟨500000000, by decide⟩⟩
  category := some "Db"
  severity := .warning
  eventId := some 7
  trace := some ⟨⟨Vector.replicate 16 171⟩, ⟨Vector.replicate 8 12⟩, 1⟩
  ownProperties := [⟨"user", .int 1⟩, ⟨"name", .text "x"⟩]
  scopes := [[⟨"user", .int (-200)⟩], [⟨"user", .null⟩, ⟨"size", .bool true⟩]]

end LogEncoder

end TelemetryExport
