import TelemetryExport.Proofs.Export.Atomic
import TelemetryExport.Proofs.Export.Records

/-! # Exports forget what came before them

Exports that follow each other share a buffer, and nothing wipes it in between. Whatever
earlier exports encoded, left out or lost, a later one sends the same payloads and has the
same outcome as the first export over a new buffer. Exporters of records may differ in their
encoders and capacities; a metric exporter keeps its buffer to itself.
-/

namespace TelemetryExport

/-! ## Calls in sequence -/

section

variable {σ κ : Type}

/-- An export as a call: it gets what the call before it left, and leaves that for the next. -/
abbrev ExportCall (σ κ : Type) := κ → StateM σ (Outcome × κ)

/-- Calls one after the other, with their outcomes. -/
def inSequence : List (ExportCall σ κ) → κ → StateM σ (List Outcome × κ)
  | [], kept => return ([], kept)
  | call :: rest, kept => do
      let first ← call kept
      let others ← inSequence rest first.2
      return (first.1 :: others.1, others.2)

/-- Calls of a kind, of which the first starts afresh, leave each other no trace. -/
structure ForgetsHistory (fresh : κ) (isCall : ExportCall σ κ → Prop) : Prop where
  /-- Calls in a row have the outcomes that they have if each of them starts afresh, and the
  transport sees the same. -/
  sequence_eq : ∀ history : List (ExportCall σ κ), (∀ call ∈ history, isCall call) →
    Prod.fst <$> inSequence history fresh =
      history.mapM fun call => Prod.fst <$> call fresh
  /-- Behind any history, a call does to every state of its transport what it does if it
  starts afresh. -/
  call_eq : ∀ history : List (ExportCall σ κ), (∀ call ∈ history, isCall call) →
    ∀ (state : σ) (later : ExportCall σ κ), isCall later →
      Prod.fst <$> later (inSequence history fresh state).1.2 = Prod.fst <$> later fresh
  /-- Nothing that a call sends or returns tells two histories from each other. -/
  indistinguishable : ∀ first second : List (ExportCall σ κ), (∀ call ∈ first, isCall call) →
    (∀ call ∈ second, isCall call) →
    ∀ (state other : σ) (later : ExportCall σ κ), isCall later →
      Prod.fst <$> later (inSequence first fresh state).1.2 =
        Prod.fst <$> later (inSequence second fresh other).1.2

variable {fresh kept : κ} {isCall : ExportCall σ κ → Prop} {keeps : κ → Prop}

/-- What is kept between calls is fit for use if every call does the same with it as with
what is fresh, and leaves such again. -/
structure Sustains (fresh : κ) (isCall : ExportCall σ κ → Prop) (keeps : κ → Prop) : Prop where
  fresh_keeps : keeps fresh
  call_eq : ∀ call, isCall call → ∀ kept, keeps kept →
    Prod.fst <$> call kept = Prod.fst <$> call fresh
  call_keeps : ∀ call, isCall call → ∀ kept, keeps kept → ∀ state : σ,
    keeps (call kept state).1.2

theorem Sustains.inSequence_keeps (hsustains : Sustains fresh isCall keeps)
    {history : List (ExportCall σ κ)} (hcalls : ∀ call ∈ history, isCall call)
    (hkept : keeps kept) (state : σ) : keeps (inSequence history kept state).1.2 := by
  induction history generalizing kept state with
  | nil => exact hkept
  | cons call rest ih =>
      have hcall := hcalls call List.mem_cons_self
      exact ih (fun other hmem => hcalls other (List.mem_cons_of_mem _ hmem))
        (hsustains.call_keeps call hcall kept hkept state) _

theorem Sustains.fst_inSequence (hsustains : Sustains fresh isCall keeps)
    {history : List (ExportCall σ κ)} (hcalls : ∀ call ∈ history, isCall call)
    (hkept : keeps kept) :
    Prod.fst <$> inSequence history kept =
      history.mapM fun call => Prod.fst <$> call fresh := by
  induction history generalizing kept with
  | nil => rfl
  | cons call rest ih =>
      have hcall := hcalls call List.mem_cons_self
      rw [List.mapM_cons, ← hsustains.call_eq call hcall kept hkept]
      funext state
      -- The others go on from what the call left, in the state in which it left the transport.
      have hothers := congrFun (ih (fun other hmem => hcalls other (List.mem_cons_of_mem _ hmem))
        (hsustains.call_keeps call hcall kept hkept state)) (call kept state).2
      change _ = (fun others : List Outcome × σ => ((call kept state).1.1 :: others.1, others.2))
        ((rest.mapM fun other => Prod.fst <$> other fresh : StateM σ (List Outcome))
          (call kept state).2)
      rw [← hothers]
      rfl

theorem Sustains.forgetsHistory (hsustains : Sustains fresh isCall keeps) :
    ForgetsHistory fresh isCall := by
  have hcall : ∀ history : List (ExportCall σ κ), (∀ call ∈ history, isCall call) →
      ∀ (state : σ) (later : ExportCall σ κ), isCall later →
        Prod.fst <$> later (inSequence history fresh state).1.2 = Prod.fst <$> later fresh := by
    intro history hcalls state later hlater
    exact hsustains.call_eq later hlater _
      (hsustains.inSequence_keeps hcalls hsustains.fresh_keeps state)
  refine ⟨fun history hcalls => hsustains.fst_inSequence hcalls hsustains.fresh_keeps, hcall, ?_⟩
  intro first second hfirst hsecond state other later hlater
  rw [hcall first hfirst state later hlater, hcall second hsecond other later hlater]

end

/-! ## Exports of records -/

section

variable {σ α : Type} {encode : α → Encode Unit} {units : List α}

/-- An export does not leave a larger buffer than a payload needs. -/
theorem capacity_exportEach_le (transport : Transport (StateM σ)) (kind : UnitKind)
    (capacity : Nat) (hunits : ∀ unit ∈ units, (encode unit).Repeats) {shared : Buffer}
    (hshared : shared.capacity ≤ maxPayloadSize) (state : σ) :
    (exportEach transport kind encode capacity units shared state).1.2.capacity ≤
      maxPayloadSize := by
  obtain ⟨left, hleft, hexport⟩ := exists_exportEach_eq transport kind capacity hunits hshared
  rw [hexport]
  change ((if (transport.isEnabled state).1 = true then
    (·, left) <$> sendAlone transport kind encode capacity units (.start units.length)
    else pure (.ok (), shared) : StateM σ (Outcome × Buffer))
      (transport.isEnabled state).2).1.2.capacity ≤ maxPayloadSize
  cases (transport.isEnabled state).1 with
  | true => exact hleft
  | false => exact hshared

/-- Calls of exports of records, whatever their units, encoders and capacities. -/
theorem sustains_exportEach {isCall : ExportCall σ Buffer → Prop}
    (hcalls : ∀ call, isCall call → ∃ (α : Type) (transport : Transport (StateM σ))
      (kind : UnitKind) (encode : α → Encode Unit) (capacity : Nat) (units : List α),
      call = exportEach transport kind encode capacity units ∧
      ∀ unit ∈ units, (encode unit).Repeats) :
    Sustains Buffer.empty isCall (·.capacity ≤ maxPayloadSize) where
  fresh_keeps := Nat.le_of_eq Buffer.capacity_empty
  call_eq := by
    intro call hcall shared hshared
    obtain ⟨α, transport, kind, encode, capacity, units, rfl, hunits⟩ := hcalls call hcall
    rw [fst_exportEach transport kind capacity hunits hshared,
      fst_exportEach transport kind capacity hunits (Nat.le_of_eq Buffer.capacity_empty)]
  call_keeps := by
    intro call hcall shared hshared state
    obtain ⟨α, transport, kind, encode, capacity, units, rfl, hunits⟩ := hcalls call hcall
    exact capacity_exportEach_le transport kind capacity hunits hshared state

end

/-- The calls of all exporters of log records that can be made. -/
def LogExporter.IsCall {σ : Type} (call : ExportCall σ Buffer) : Prop :=
  ∃ (table : String) (mappings : List (String × String)) (configured : List Attribute)
    (listed : Option (List String)) (exporter : LogExporter) (transport : Transport (StateM σ))
    (records : List LogRecord),
    LogEncoder.make table mappings configured listed = .ok exporter.encoder ∧
    call = exporter.exportRecords transport records

/-- The calls of all exporters of spans that can be made. -/
def SpanExporter.IsCall {σ : Type} (call : ExportCall σ Buffer) : Prop :=
  ∃ (table : String) (configured : List Attribute) (listed : Option (List String))
    (exporter : SpanExporter) (transport : Transport (StateM σ)) (spans : List Span),
    SpanEncoder.make table configured listed = .ok exporter.encoder ∧
    call = exporter.exportSpans transport spans

theorem LogExporter.forgetsHistory (σ : Type) :
    ForgetsHistory Buffer.empty (LogExporter.IsCall (σ := σ)) := by
  refine (sustains_exportEach ?_).forgetsHistory
  rintro call ⟨table, mappings, configured, listed, exporter, transport, records, hmake, rfl⟩
  have hconfigured := LogEncoder.configured_of_make hmake
  exact ⟨_, transport, .logRecord, exporter.encoder.encode, exporter.capacity, records, rfl,
    fun record _ => hconfigured.repeats_encode record⟩

theorem SpanExporter.forgetsHistory (σ : Type) :
    ForgetsHistory Buffer.empty (SpanExporter.IsCall (σ := σ)) := by
  refine (sustains_exportEach ?_).forgetsHistory
  rintro call ⟨table, configured, listed, exporter, transport, spans, hmake, rfl⟩
  exact ⟨_, transport, .span, exporter.encoder.encode, exporter.capacity, spans, rfl,
    fun span _ => SpanEncoder.repeats_encode_of_make hmake span⟩

/-! ## Exports of metrics -/

namespace Packer

variable {properties : List Attribute} {format : RequestFormat} {buffer other : Buffer}
  {packer next : Packer} {item : PlacedPoint}

theorem Rested.capacity_eq_of_written (hrested : Rested properties packer)
    (hrun : tryWrite item packer = .ok () next) :
    next.encoder.buffer.capacity = packer.encoder.buffer.capacity := by
  obtain ⟨draft, hrests, hsettled⟩ := hrested.exists_draft
  by_cases hroom : item.point.isValid = true ∧ packer.encoder.buffer.cursor +
      draft.cost properties item ≤ packer.encoder.buffer.capacity
  · obtain ⟨after, hafter, -, -, hcapacity, -⟩ :=
      tryWrite_of_le hrested.resource_eq hrests hsettled item hroom.1 hroom.2
    rw [hrun] at hafter
    cases hafter
    exact hcapacity
  · obtain ⟨fault, left, hleft, -⟩ := tryWrite_of_lt hrested.resource_eq hrests hsettled item
      fun hvalid => Nat.lt_of_not_le fun hle => hroom ⟨hvalid, hle⟩
    rw [hrun] at hleft
    cases hleft

/-- No packer of an export has another capacity than the buffer it started with. -/
theorem Reachable.capacity_eq (hformat : RequestFormat.make properties = .ok format)
    (hcapacity : buffer.capacity ≤ maxPayloadSize) (hpacker : Reachable format buffer packer) :
    packer.encoder.buffer.capacity = buffer.capacity := by
  induction hpacker with
  | start total => rfl
  | written hbefore hrun ih =>
      exact ((hbefore.rested hformat hcapacity).capacity_eq_of_written hrun).trans ih
  | refused hbefore hrun ih =>
      exact ((hbefore.rested hformat hcapacity).refused hrun).capacity_eq.trans ih
  | restarted _ ih => exact ih
  | counted _ tally ih => exact ih

theorem Reachable.writeAll {σ : Type} (transport : Transport (StateM σ))
    (hpacker : Reachable format buffer packer) (items : List PlacedPoint) :
    Leads (Reachable format buffer) (packer.writeAll transport items) :=
  (hpacker.foldlM transport items).bind fun _ hlast => hlast.flush transport

/-- The packers of exports over two buffers of one capacity. -/
theorem twins_start (hformat : RequestFormat.make properties = .ok format)
    (hcapacity : buffer.capacity ≤ maxPayloadSize) (hsame : other.capacity = buffer.capacity)
    (total : Nat) : Twins properties (start format buffer total) (start format other total) where
  rested := rested_start hformat hcapacity total
  alike := by
    have haligned : Aligned (start format buffer total) (start format other total) :=
      ⟨⟨⟨rfl, hsame⟩, rfl, rfl, rfl⟩, rfl, rfl, rfl⟩
    exact haligned.alike rfl

end Packer

namespace MetricExporter

variable {σ : Type} {properties : List Attribute} (exporter : MetricExporter)
  {other : MetricExporter}

/-- An export from a state of the transport. -/
theorem exportMetrics_run (transport : Transport (StateM σ))
    (batch : List Metric) (state : σ) :
    exporter.exportMetrics transport batch state =
      if (transport.isEnabled state).1 = true then
        let written := (Packer.start exporter.format exporter.buffer
          (Metric.countPoints batch)).writeAll transport (PlacedPoint.ofBatch batch)
            (transport.isEnabled state).2
        ((written.1.tally.outcome, { exporter with buffer := written.1.encoder.buffer }),
          written.2)
      else ((.ok (), exporter), (transport.isEnabled state).2) := by
  rcases hasked : transport.isEnabled state with ⟨enabled, asked⟩
  rw [exportMetrics, bind_scripted hasked]
  cases enabled with
  | true => rfl
  | false => rfl

/-- But for the buffer that it leaves, an export does not depend on the one it was given. -/
theorem fst_exportMetrics (hformat : RequestFormat.make properties = .ok exporter.format)
    (hsame : other.format = exporter.format)
    (hcapacity : exporter.buffer.capacity ≤ maxPayloadSize)
    (hother : other.buffer.capacity = exporter.buffer.capacity)
    (transport : Transport (StateM σ)) (batch : List Metric) :
    Prod.fst <$> other.exportMetrics transport batch =
      Prod.fst <$> exporter.exportMetrics transport batch := by
  funext state
  change ((other.exportMetrics transport batch state).1.1,
      (other.exportMetrics transport batch state).2) =
    ((exporter.exportMetrics transport batch state).1.1,
      (exporter.exportMetrics transport batch state).2)
  rw [exportMetrics_run, exportMetrics_run, hsame]
  cases (transport.isEnabled state).1 with
  | true =>
      have htwins := Packer.twins_start hformat hcapacity hother (Metric.countPoints batch)
      obtain ⟨hstate, hlast⟩ := htwins.writeAll transport (PlacedPoint.ofBatch batch)
        (transport.isEnabled state).2
      exact Prod.ext (congrArg Tally.outcome hlast.alike.tally_eq) hstate
  | false => rfl

theorem exportMetrics_keeps (hformat : RequestFormat.make properties = .ok exporter.format)
    (hcapacity : exporter.buffer.capacity ≤ maxPayloadSize) (transport : Transport (StateM σ))
    (batch : List Metric) (state : σ) :
    (exporter.exportMetrics transport batch state).1.2.format = exporter.format ∧
      (exporter.exportMetrics transport batch state).1.2.buffer.capacity =
        exporter.buffer.capacity := by
  rw [exportMetrics_run]
  cases (transport.isEnabled state).1 with
  | true =>
      have hstart : Packer.Reachable exporter.format exporter.buffer
          (Packer.start exporter.format exporter.buffer (Metric.countPoints batch)) :=
        .start _
      exact ⟨rfl, (hstart.writeAll transport _ _).capacity_eq hformat hcapacity⟩
  | false => exact ⟨rfl, rfl⟩

/-- The calls of a metric exporter. -/
def IsCall (call : ExportCall σ MetricExporter) : Prop :=
  ∃ (transport : Transport (StateM σ)) (batch : List Metric),
    call = fun exporter => exporter.exportMetrics transport batch

theorem forgetsHistory (σ : Type) {format : RequestFormat}
    (hformat : RequestFormat.make properties = .ok format) (capacity : Nat) :
    ForgetsHistory (⟨format, Buffer.withCapacity capacity⟩ : MetricExporter)
      (IsCall (σ := σ)) := by
  have hcapacity := (Buffer.withCapacity_valid capacity).capacity_le
  have hsustains : Sustains (σ := σ) ⟨format, Buffer.withCapacity capacity⟩ IsCall
      fun exporter => exporter.format = format ∧
        exporter.buffer.capacity = (Buffer.withCapacity capacity).capacity := by
    refine ⟨⟨rfl, rfl⟩, ?_, ?_⟩
    · rintro call ⟨transport, batch, rfl⟩ exporter ⟨hsame, hkept⟩
      have hfresh := (⟨format, Buffer.withCapacity capacity⟩ : MetricExporter).fst_exportMetrics
        hformat hsame hcapacity hkept transport batch
      exact hfresh
    · rintro call ⟨transport, batch, rfl⟩ exporter ⟨rfl, hkept⟩ state
      obtain ⟨hleft, hbuffer⟩ := exporter.exportMetrics_keeps hformat (hkept ▸ hcapacity)
        transport batch state
      exact ⟨hleft, hbuffer.trans hkept⟩
  exact hsustains.forgetsHistory

end MetricExporter

/-- No exporter remembers. Exporters of log records that share a buffer do not, neither do
exporters of spans, and a metric exporter does not, whatever transports they have. -/
theorem exports_forget_history (σ : Type) :
    ForgetsHistory Buffer.empty (LogExporter.IsCall (σ := σ)) ∧
    ForgetsHistory Buffer.empty (SpanExporter.IsCall (σ := σ)) ∧
    ∀ (properties : List Attribute) (format : RequestFormat) (capacity : Nat),
      RequestFormat.make properties = .ok format →
      ForgetsHistory (⟨format, Buffer.withCapacity capacity⟩ : MetricExporter)
        (MetricExporter.IsCall (σ := σ)) :=
  ⟨LogExporter.forgetsHistory σ, SpanExporter.forgetsHistory σ,
    fun _ _ capacity hformat => MetricExporter.forgetsHistory σ hformat capacity⟩

/-- A record behind one that was too long for the buffer, whose capacity was another. -/
theorem exports_forget_sampleRecord :
    Prod.fst <$> (LogExporter.mk LogEncoder.sampleEncoder 400).exportRecords (.scripted true)
        [LogEncoder.sampleRecord] (inSequence
          [(LogExporter.mk LogEncoder.sampleEncoder 16).exportRecords (.scripted true)
            [LogEncoder.sampleRecord]] Buffer.empty (.start [])).1.2 =
      Prod.fst <$> (LogExporter.mk LogEncoder.sampleEncoder 400).exportRecords (.scripted true)
        [LogEncoder.sampleRecord] Buffer.empty ∧
    ForgetsHistory (⟨Session.plainFormat, Buffer.withCapacity 80⟩ : MetricExporter)
      (MetricExporter.IsCall (σ := Journal)) := by
  have hcall : ∀ capacity, LogExporter.IsCall (σ := Journal)
      ((LogExporter.mk LogEncoder.sampleEncoder capacity).exportRecords (.scripted true)
        [LogEncoder.sampleRecord]) :=
    fun capacity => ⟨_, _, _, _, _, _, _, LogEncoder.make_sample, rfl⟩
  constructor
  · exact (exports_forget_history Journal).1.call_eq _
      (List.forall_mem_singleton.mpr (hcall 16)) _ _ (hcall 400)
  · exact (exports_forget_history Journal).2.2 _ _ 80 Session.make_plain

end TelemetryExport
