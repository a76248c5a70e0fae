import TelemetryExport.Configuration
import TelemetryExport.Proofs.Export.Accounting
import TelemetryExport.Proofs.Record.Shortest
import TelemetryExport.Proofs.Record.Tables

/-! # Capacities

An exporter is accepted for a capacity that holds a record without fields of its own, and
no such record is ever written. Here it is told for which capacities an exporter is
accepted, and for which it can carry a record at all. The two differ: between them lie
capacities for which an exporter is accepted, and then drops whatever it is given.
-/

namespace TelemetryExport

open MessagePack Encode

/-! ## What a capacity carries -/

/-- The export of a unit by itself: where its payload is accepted, it succeeds whatever the
shared buffer holds, and its one payload is the unit's encoding, within the capacity. -/
def Carries (exportUnit : Buffer → StateM Journal (Outcome × Buffer)) (encoding : Encode Unit)
    (capacity : Nat) : Prop :=
  ∀ shared : Buffer, shared.capacity ≤ maxPayloadSize → ∃ payload left after,
    exportUnit shared (.start []) = ((.ok (), left), after) ∧
    after.attempts.toList = [(payload, .ok ())] ∧
    encoding.run = .ok ((), payload) ∧ payload.size ≤ capacity

/-- The exporter encodes and sends the record. -/
def LogExporter.Carries (exporter : LogExporter) (record : LogRecord) : Prop :=
  TelemetryExport.Carries (exporter.exportRecords (.scripted true) [record])
    (exporter.encoder.encode record) exporter.capacity

/-- The exporter encodes and sends the span. -/
def SpanExporter.Carries (exporter : SpanExporter) (span : Span) : Prop :=
  TelemetryExport.Carries (exporter.exportSpans (.scripted true) [span])
    (exporter.encoder.encode span) exporter.capacity

section

variable {α : Type} {encode : α → Encode Unit} {kind : UnitKind} {capacity : Nat} {unit : α}
  {bytes : List UInt8}

theorem Carries.exists_ok {exportUnit : Buffer → StateM Journal (Outcome × Buffer)}
    {encoding : Encode Unit} (hcarries : Carries exportUnit encoding capacity) :
    ∃ after, encoding Buffer.empty = .ok () after := by
  obtain ⟨payload, -, -, -, -, hrun, -⟩ :=
    hcarries Buffer.empty (Nat.le_of_eq Buffer.capacity_empty)
  obtain ⟨after, hok, -⟩ := exists_of_run hrun
  exact ⟨after, hok⟩

/-- What has one encoding is carried by the capacities that hold it. -/
theorem carries_iff_of_writes (kind : UnitKind) (hwrites : Writes (encode unit) bytes ())
    (hrepeats : (encode unit).Repeats) (hcapacity : capacity ≤ maxPayloadSize) :
    Carries (exportEach (.scripted true) kind encode capacity [unit]) (encode unit) capacity ↔
      bytes.length ≤ capacity := by
  constructor
  · intro hcarries
    obtain ⟨payload, -, -, -, -, hrun, hsize⟩ :=
      hcarries Buffer.empty (Nat.le_of_eq Buffer.capacity_empty)
    obtain ⟨-, -, rfl⟩ := hwrites.of_run hrun
    rw [List.size_toByteArray] at hsize
    exact hsize
  · intro hlength shared hshared
    have halone : (encode unit).alone capacity = .ok bytes.toByteArray :=
      hwrites.alone_of_le hlength (Nat.le_trans hlength hcapacity)
    have hunit : ∀ other ∈ [unit], other = unit := fun _ => List.mem_singleton.mp
    have hencoding : ∀ other ∈ [unit], ∃ bytes, Writes (encode other) bytes () :=
      fun other hmem => ⟨bytes, hunit other hmem ▸ hwrites⟩
    obtain ⟨outcome, left, after, hexport, -, haccounts⟩ :=
      Batch.exists_accounts kind capacity hencoding
        (fun other hmem => hunit other hmem ▸ hrepeats) hshared []
    have hattempts : after.attempts.toList = [(bytes.toByteArray, .ok ())] := by
      rw [haccounts.attempts_eq, Batch.payloads_cons_ok halone]
      rfl
    have houtcome : outcome = .ok () := by
      rw [haccounts.ok_iff, hattempts]
      simp only [List.forall_mem_singleton]
      exact ⟨⟨_, halone⟩, trivial⟩
    subst houtcome
    obtain ⟨hrun, hsize⟩ := hwrites.alone_iff.mp halone
    exact ⟨_, left, after, hexport, hattempts, hrun, hsize⟩

end

/-! ## Accepted capacities -/

namespace ExporterConfig

variable {config : ExporterConfig} {capacity : Nat}

theorem checkedCapacity_eq_ok_iff {header : Nat} :
    config.checkedCapacity header = .ok capacity ↔
      config.capacity ≤ maxPayloadSize ∧ header ≤ config.capacity ∧
        capacity = config.capacity := by
  rw [checkedCapacity]
  by_cases habove : maxPayloadSize < config.capacity
  · rw [if_pos habove]
    exact iff_of_false (fun hok => nomatch hok) fun hle => Nat.not_le_of_lt habove hle.1
  rw [if_neg habove]
  by_cases hbelow : config.capacity < header
  · rw [if_pos hbelow]
    exact iff_of_false (fun hok => nomatch hok) fun hle => Nat.not_le_of_lt hbelow hle.2.1
  · rw [if_neg hbelow, Except.ok.injEq, eq_comm, and_iff_right (Nat.le_of_not_lt habove),
      and_iff_right (Nat.le_of_not_lt hbelow)]

/-- An exporter is made of an encoder where the capacity is within the limit and holds the
header. -/
theorem checked_eq_ok_iff {ε β : Type} {part : Except ConfigError ε} {header : ε → Nat}
    {build : ε → Nat → β} {exporter : β} :
    (do
      let encoder ← part
      let capacity ← config.checkedCapacity (header encoder)
      return build encoder capacity) = .ok exporter ↔
    ∃ encoder, part = .ok encoder ∧ config.capacity ≤ maxPayloadSize ∧
      header encoder ≤ config.capacity ∧ exporter = build encoder config.capacity := by
  constructor
  · intro hmake
    obtain ⟨encoder, hencoder, hmake⟩ := exists_of_except_bind hmake
    obtain ⟨capacity, hcapacity, hmake⟩ := exists_of_except_bind hmake
    obtain ⟨hle, hheader, rfl⟩ := checkedCapacity_eq_ok_iff.mp hcapacity
    cases hmake
    exact ⟨encoder, hencoder, hle, hheader, rfl⟩
  · rintro ⟨encoder, hencoder, hle, hheader, rfl⟩
    rw [except_bind_of_ok hencoder]
    exact except_bind_of_ok (checkedCapacity_eq_ok_iff.mpr ⟨hle, hheader, rfl⟩)

theorem foldl_max_le_iff {templates : List RecordTemplate} {longest : Nat} :
    templates.foldl (fun longest template => max longest template.minRecordLength) longest ≤
        capacity ↔
      longest ≤ capacity ∧ ∀ template ∈ templates, template.minRecordLength ≤ capacity := by
  induction templates generalizing longest with
  | nil => exact (and_iff_left (List.forall_mem_nil _)).symm
  | cons template rest ih =>
      rw [List.foldl_cons, ih, List.forall_mem_cons, Nat.max_le, and_assoc]

theorem longestHeader_le_iff {templates : List RecordTemplate} :
    longestHeader templates ≤ capacity ↔
      ∀ template ∈ templates, template.minRecordLength ≤ capacity :=
  foldl_max_le_iff.trans (and_iff_right (Nat.zero_le capacity))

/-! ## Capacities that are accepted and capacities that suffice -/

/-- The length of a record of the table without fields of its own. -/
def headerLength (config : ExporterConfig) (table : String) : Nat :=
  (RecordTemplate.ofParts table config.prepopulated).minRecordLength

/-- The table of the log records with a category, or with none. -/
def tableOf (config : ExporterConfig) (category : Option String) : String :=
  LogEncoder.tableFor config.logTable config.mappings category

/-- The length of the shortest log records with a category, or with none. -/
def shortestLog (config : ExporterConfig) (category : Option String) : Nat :=
  config.headerLength (config.tableOf category) +
    LogRecord.leastLength (category.getD (config.tableOf category))

/-- The length of the shortest spans. -/
def shortestSpan (config : ExporterConfig) : Nat :=
  config.headerLength config.spanTable + Span.leastLength

/-- The capacities of log exporters. One is accepted if it holds the header of every table
that is named. It suffices for a category if it holds its shortest records, which are
longer than the header. -/
structure LogCapacity (config : ExporterConfig) : Prop where
  accepted_iff : (∃ exporter, config.logExporter = .ok exporter) ↔
    (∃ encoder, config.logEncoder = .ok encoder) ∧ config.capacity ≤ maxPayloadSize ∧
      ∀ table, LogEncoder.Names config.logTable config.mappings table →
        config.headerLength table ≤ config.capacity
  carries_iff : ∀ exporter, config.logExporter = .ok exporter → ∀ category,
    (∃ record : LogRecord, record.category = category ∧ exporter.Carries record) ↔
      config.shortestLog category ≤ config.capacity
  headerLength_add_le : ∀ category,
    config.headerLength (config.tableOf category) + 41 ≤ config.shortestLog category

/-- The capacities of span exporters. One is accepted if it holds the header of the table.
It suffices if it holds the shortest spans, which are longer than the header. -/
structure SpanCapacity (config : ExporterConfig) : Prop where
  accepted_iff : (∃ exporter, config.spanExporter = .ok exporter) ↔
    (∃ encoder, config.spanEncoder = .ok encoder) ∧ config.capacity ≤ maxPayloadSize ∧
      config.headerLength config.spanTable ≤ config.capacity
  carries_iff : ∀ exporter, config.spanExporter = .ok exporter →
    ((∃ span, exporter.Carries span) ↔ config.shortestSpan ≤ config.capacity)
  headerLength_add_le : config.headerLength config.spanTable + 126 ≤ config.shortestSpan

theorem longestHeader_le_iff_names {encoder : LogEncoder}
    (hmake : config.logEncoder = .ok encoder) :
    longestHeader encoder.templates ≤ capacity ↔
      ∀ table, LogEncoder.Names config.logTable config.mappings table →
        config.headerLength table ≤ capacity := by
  have hconfigured := LogEncoder.configured_of_make hmake
  simp only [longestHeader_le_iff, ← (LogEncoder.indexes_of_make hmake).mem_iff,
    LogEncoder.tables, List.mem_map, forall_exists_index, and_imp, forall_apply_eq_imp_iff₂]
  refine forall₂_congr fun template hmem => ?_
  rw [headerLength, ← hconfigured.templates template hmem]

theorem logExporter_eq_ok_iff {exporter : LogExporter} : config.logExporter = .ok exporter ↔
    ∃ encoder, config.logEncoder = .ok encoder ∧ config.capacity ≤ maxPayloadSize ∧
      longestHeader encoder.templates ≤ config.capacity ∧
      exporter = ⟨encoder, config.capacity⟩ :=
  checked_eq_ok_iff

theorem spanExporter_eq_ok_iff {exporter : SpanExporter} :
    config.spanExporter = .ok exporter ↔
      ∃ encoder, config.spanEncoder = .ok encoder ∧ config.capacity ≤ maxPayloadSize ∧
        encoder.template.minRecordLength ≤ config.capacity ∧
        exporter = ⟨encoder, config.capacity⟩ :=
  checked_eq_ok_iff

theorem carries_log_iff {exporter : LogExporter} (hmake : config.logExporter = .ok exporter)
    {record : LogRecord} (htime : record.time.inCalendar = true) :
    exporter.Carries record ↔
      (record.envelopeBytes (config.tableOf record.category) config.prepopulated
        config.customColumns).length ≤ config.capacity := by
  obtain ⟨encoder, hencoder, hle, -, rfl⟩ := logExporter_eq_ok_iff.mp hmake
  have hconfigured := LogEncoder.configured_of_make hencoder
  have htable : encoder.tableOf record = config.tableOf record.category :=
    (LogEncoder.routed_of_make hencoder).tableOf_eq record
  have hwrites := (hconfigured.emits_encode htime).writes
  rw [htable] at hwrites
  exact carries_iff_of_writes .logRecord hwrites (hconfigured.repeats_encode record) hle

theorem carries_span_iff {exporter : SpanExporter}
    (hmake : config.spanExporter = .ok exporter) {span : Span} (hspan : span.IsInCalendar) :
    exporter.Carries span ↔
      (exporter.encoder.placedBytes config.spanTable config.prepopulated span).length ≤
        config.capacity := by
  obtain ⟨encoder, hencoder, hle, -, rfl⟩ := spanExporter_eq_ok_iff.mp hmake
  have hwrites : Writes (encoder.encode span)
      (encoder.placedBytes config.spanTable config.prepopulated span) () := by
    rw [SpanEncoder.eq_of_make hencoder]
    exact (SpanEncoder.emits_placed config.spanTable hspan.1 hspan.2 rfl rfl).writes
  exact carries_iff_of_writes .span hwrites
    (SpanEncoder.repeats_encode_of_make hencoder span) hle

theorem logCapacity (config : ExporterConfig) : config.LogCapacity where
  accepted_iff := by
    constructor
    · rintro ⟨exporter, hmake⟩
      obtain ⟨encoder, hencoder, hle, hheaders, -⟩ := logExporter_eq_ok_iff.mp hmake
      exact ⟨⟨encoder, hencoder⟩, hle, (longestHeader_le_iff_names hencoder).mp hheaders⟩
    · rintro ⟨⟨encoder, hencoder⟩, hle, hheaders⟩
      exact ⟨_, logExporter_eq_ok_iff.mpr
        ⟨encoder, hencoder, hle, (longestHeader_le_iff_names hencoder).mpr hheaders, rfl⟩⟩
  carries_iff := by
    intro exporter hmake category
    constructor
    · rintro ⟨record, rfl, hcarries⟩
      obtain ⟨_, hok⟩ := hcarries.exists_ok
      have hlength := (carries_log_iff hmake (LogEncoder.inCalendar_of_encode hok)).mp hcarries
      exact Nat.le_trans (record.le_length_envelopeBytes _ _ _) hlength
    · intro hle
      have hepoch : Time.epoch.inCalendar = true := by decide
      have htime : (LogRecord.shortest category).time.inCalendar = true := hepoch
      refine ⟨.shortest category, rfl, (carries_log_iff hmake htime).mpr ?_⟩
      rw [LogRecord.length_envelopeBytes_shortest]
      exact hle
  headerLength_add_le := by
    intro category
    have hname := one_le_length_textBytes (category.getD (config.tableOf category))
    rw [shortestLog, LogRecord.leastLength]
    omega

theorem spanCapacity (config : ExporterConfig) : config.SpanCapacity where
  accepted_iff := by
    have hheader {encoder : SpanEncoder} (hencoder : config.spanEncoder = .ok encoder) :
        encoder.template.minRecordLength = config.headerLength config.spanTable := by
      rw [SpanEncoder.eq_of_make hencoder, headerLength]
    constructor
    · rintro ⟨exporter, hmake⟩
      obtain ⟨encoder, hencoder, hle, hlength, -⟩ := spanExporter_eq_ok_iff.mp hmake
      exact ⟨⟨encoder, hencoder⟩, hle, hheader hencoder ▸ hlength⟩
    · rintro ⟨⟨encoder, hencoder⟩, hle, hlength⟩
      exact ⟨_, spanExporter_eq_ok_iff.mpr
        ⟨encoder, hencoder, hle, (hheader hencoder).symm ▸ hlength, rfl⟩⟩
  carries_iff := by
    intro exporter hmake
    constructor
    · rintro ⟨span, hcarries⟩
      obtain ⟨_, hok⟩ := hcarries.exists_ok
      have hlength := (carries_span_iff hmake (SpanEncoder.inCalendar_of_encode hok)).mp hcarries
      exact Nat.le_trans (exporter.encoder.le_length_placedBytes _ _ span) hlength
    · intro hle
      have hspan : Span.shortest.IsInCalendar := ⟨by decide, by decide⟩
      refine ⟨.shortest, (carries_span_iff hmake hspan).mpr ?_⟩
      rw [SpanEncoder.length_placedBytes_shortest]
      exact hle
  headerLength_add_le := Nat.le_refl _

/-- An exporter is accepted for capacities that hold a header, and those that suffice for a
record are larger. -/
theorem capacities (config : ExporterConfig) : config.LogCapacity ∧ config.SpanCapacity :=
  ⟨config.logCapacity, config.spanCapacity⟩

/-! ### Exporters of the default tables -/

/-- The default configuration with a capacity of its own. -/
def ofCapacity (capacity : Nat) : ExporterConfig := { capacity }

theorem tableOf_ofCapacity (capacity : Nat) (category : Option String) :
    (ofCapacity capacity).tableOf category = "Log" := by
  cases category <;> rfl

theorem headerLength_ofCapacity (capacity : Nat) :
    (ofCapacity capacity).headerLength "Log" = 59 ∧
      (ofCapacity capacity).headerLength "Span" = 61 := by
  have hlog : (RecordTemplate.ofParts "Log" []).minRecordLength = 59 := by decide +kernel
  have hspan : (RecordTemplate.ofParts "Span" []).minRecordLength = 61 := by decide +kernel
  exact ⟨hlog, hspan⟩

theorem shortestLog_ofCapacity (capacity : Nat) (category : Option String) :
    (ofCapacity capacity).shortestLog category =
      99 + (textBytes (category.getD "Log")).length := by
  rw [shortestLog, tableOf_ofCapacity, (headerLength_ofCapacity capacity).1,
    LogRecord.leastLength]
  omega

theorem shortestSpan_ofCapacity (capacity : Nat) : (ofCapacity capacity).shortestSpan = 187 :=
  congrArg (· + Span.leastLength) (headerLength_ofCapacity capacity).2

theorem exists_logExporter_ofCapacity (hheader : 59 ≤ capacity)
    (hle : capacity ≤ maxPayloadSize) :
    ∃ exporter, (ofCapacity capacity).logExporter = .ok exporter := by
  have htemplate : ∃ template, RecordTemplate.make "Log" [] = .ok template :=
    RecordTemplate.exists_make_iff.mpr ⟨rfl, rfl, show _ ≤ 65360 by decide⟩
  have hencoder : ∃ encoder, (ofCapacity capacity).logEncoder = .ok encoder :=
    LogEncoder.exists_make_iff.mpr ⟨htemplate, List.forall_mem_nil _⟩
  refine (logCapacity _).accepted_iff.mpr ⟨hencoder, hle, fun table hnamed => ?_⟩
  rcases hnamed with rfl | ⟨-, mapping, hmem, -⟩
  · exact (headerLength_ofCapacity capacity).1 ▸ hheader
  · cases hmem

theorem exists_spanExporter_ofCapacity (hheader : 61 ≤ capacity)
    (hle : capacity ≤ maxPayloadSize) :
    ∃ exporter, (ofCapacity capacity).spanExporter = .ok exporter := by
  have hencoder : ∃ encoder, SpanEncoder.make "Span" [] none = .ok encoder :=
    ⟨_, SpanEncoder.make_eq rfl rfl (show _ ≤ 65360 by decide)⟩
  exact (spanCapacity _).accepted_iff.mpr
    ⟨hencoder, hle, (headerLength_ofCapacity capacity).2 ▸ hheader⟩

/-- Within a hundred bytes there is room for records with an empty category, and none for
those without a category, which bear the name of the table. -/
theorem capacities_ofCapacity :
    (∃ exporter, (ofCapacity 100).logExporter = .ok exporter ∧
      (∃ record : LogRecord, record.category = some "" ∧ exporter.Carries record) ∧
      ¬∃ record : LogRecord, record.category = none ∧ exporter.Carries record) ∧
    ∃ exporter, (ofCapacity 187).spanExporter = .ok exporter ∧
      ∃ span, exporter.Carries span := by
  obtain ⟨logs, hlogs⟩ := exists_logExporter_ofCapacity (show 59 ≤ 100 by decide) (by decide)
  obtain ⟨spans, hspans⟩ := exists_spanExporter_ofCapacity (show 61 ≤ 187 by decide) (by decide)
  have hlog : ∀ category, (∃ record : LogRecord, record.category = category ∧
      logs.Carries record) ↔ (ofCapacity 100).shortestLog category ≤ 100 :=
    (capacities (ofCapacity 100)).1.carries_iff logs hlogs
  have hspan : (∃ span, spans.Carries span) ↔ (ofCapacity 187).shortestSpan ≤ 187 :=
    (capacities (ofCapacity 187)).2.carries_iff spans hspans
  have hempty : (ofCapacity 100).shortestLog (some "") = 100 := by
    rw [shortestLog_ofCapacity]
    decide
  have hnamed : (ofCapacity 100).shortestLog none = 103 := by
    rw [shortestLog_ofCapacity]
    decide
  refine ⟨⟨logs, hlogs, (hlog (some "")).mpr (Nat.le_of_eq hempty), fun hnone => ?_⟩, spans,
    hspans, hspan.mpr (Nat.le_of_eq (shortestSpan_ofCapacity 187))⟩
  have hlength := (hlog none).mp hnone
  omega

/-- The least capacities that are accepted for the default tables carry nothing at all. -/
theorem least_capacities_carry_nothing :
    (∃ exporter, (ofCapacity 59).logExporter = .ok exporter ∧
      ∀ record, ¬exporter.Carries record) ∧
    ∃ exporter, (ofCapacity 61).spanExporter = .ok exporter ∧
      ∀ span, ¬exporter.Carries span := by
  obtain ⟨logs, hlogs⟩ := exists_logExporter_ofCapacity (show 59 ≤ 59 by decide) (by decide)
  obtain ⟨spans, hspans⟩ := exists_spanExporter_ofCapacity (show 61 ≤ 61 by decide) (by decide)
  refine ⟨⟨logs, hlogs, fun record hcarries => ?_⟩, spans, hspans, fun span hcarries => ?_⟩
  · have hlength : (ofCapacity 59).shortestLog record.category ≤ 59 :=
      ((logCapacity _).carries_iff logs hlogs record.category).mp ⟨record, rfl, hcarries⟩
    rw [shortestLog_ofCapacity] at hlength
    omega
  · have hlength : (ofCapacity 61).shortestSpan ≤ 61 :=
      ((spanCapacity _).carries_iff spans hspans).mp ⟨span, hcarries⟩
    rw [shortestSpan_ofCapacity] at hlength
    omega

end ExporterConfig

end TelemetryExport
