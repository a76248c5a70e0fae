import TelemetryExport.Proofs.Metric.Tree

/-! # Encoders and trees

`Holds` says that what an encoder's bytes stand for, once every header is right, is
read as a given tree. Each operation keeps this for the tree changed accordingly, as
long as it is used at its place: a resource at the outside, a scope in a resource, a
metric in a scope, an instrument in a metric and a point in an instrument.
-/

namespace TelemetryExport

open Encode WrittenField OpenMessage Wire

namespace RequestEncoder

/-- What the encoder's bytes stand for is read as the tree. -/
structure Holds (encoder : RequestEncoder) (tree : Message.Request) (fields : List WrittenField)
    (opens : List OpenMessage) : Prop extends Drafts encoder fields opens where
  numbered : AllNumberedIn fields opens
  absorbs : absorb Message.Request.field {} (content fields opens) = some tree

/-- The encoder's bytes are read as the tree. -/
def Presents (encoder : RequestEncoder) (tree : Message.Request) : Prop :=
  ∃ fields opens, Holds encoder tree fields opens ∧ Completes encoder fields opens

variable {encoder : RequestEncoder} {tree : Message.Request} {fields : List WrittenField}
  {opens : List OpenMessage}

theorem Presents.decode (hpresents : Presents encoder tree) :
    Message.Request.decode encoder.payload = some tree := by
  obtain ⟨fields, opens, hholds, hcompletes⟩ := hpresents
  rw [Message.Request.decode, payload, Buffer.toList_written, hcompletes.bytes_eq,
    merge_eq_absorb _ (allNumbered_content hholds.numbered) hholds.length_content_le]
  exact hholds.absorbs

/-- At the beginning of a buffer, whatever it holds, nothing is presented. -/
theorem completes_of_start (hcursor : encoder.buffer.cursor = 0)
    (hlevels : encoder.levels.toList = [])
    (hcapacity : encoder.buffer.capacity ≤ maxPayloadSize) :
    Holds encoder {} [] [] ∧ Completes encoder [] [] := by
  have hbytes : encoder.buffer.bytes = [] := by
    rw [Buffer.bytes, hcursor, List.take_zero]
  have hdrafts : Drafts encoder [] [] := by
    refine ⟨⟨?_, hcapacity⟩, ?_, hlevels, trivial⟩
    · rw [hcursor]
      exact Nat.zero_le _
    · rw [hbytes]
      exact Laid.innermost []
  exact ⟨⟨hdrafts, ⟨allNumbered_nil, fun _ hmem => absurd hmem List.not_mem_nil⟩, rfl⟩,
    ⟨hdrafts, hbytes⟩⟩

theorem completes_start (format : RequestFormat) {buffer : Buffer}
    (hcapacity : buffer.capacity ≤ maxPayloadSize) :
    Holds (format.start buffer) {} [] [] ∧ Completes (format.start buffer) [] [] :=
  completes_of_start rfl rfl hcapacity

theorem completes_reset (hcapacity : encoder.buffer.capacity ≤ maxPayloadSize) :
    Holds encoder.reset {} [] [] ∧ Completes encoder.reset [] [] :=
  completes_of_start rfl encoder.levels.toList_clear hcapacity

/-! ## Opening -/

theorem Holds.opened_of_grows (hholds : Holds encoder tree fields opens) {number : Nat}
    {more : List WrittenField} (hmore : AllNumbered more) (hnumber : 0 < number ∧ number < 16)
    {change : Message.Request → Option Message.Request}
    (hgrows : Grows Message.Request.field (content fields opens)
      (content fields (opens ++ [⟨number, more⟩])) change)
    {after : RequestEncoder} (hafter : Drafts after fields (opens ++ [⟨number, more⟩]))
    {changed : Message.Request} (hchanged : change tree = some changed) :
    Holds after changed fields (opens ++ [⟨number, more⟩]) :=
  ⟨hafter, hholds.numbered.opened hmore hnumber, hgrows.absorbs _ _ _ hholds.absorbs hchanged⟩

end RequestEncoder

namespace Message

open RequestEncoder (fieldAt NumberedFrom)

variable {fields : List WrittenField} {opens : List OpenMessage} {instrument : Option Instrument}

/-- What is opened in the innermost message is no longer than the whole. -/
theorem length_more_le (number : Nat) (more fields : List WrittenField)
    (opens : List OpenMessage)
    (hlength : (encodeAll (content fields (opens ++ [⟨number, more⟩]))).length ≤
      maxPayloadSize) : (encodeAll more).length ≤ maxPayloadSize := by
  rw [RequestEncoder.length_content_opened] at hlength
  omega

variable {resource scope metric data : OpenMessage}

theorem grows_beginResource (properties : List Attribute) (hnumbered : AllNumberedIn fields [])
    (hlength : (encodeAll (content fields ([] ++ [⟨fieldAt instrument 0,
      [RequestFormat.resourceField properties]⟩]))).length ≤ maxPayloadSize) :
    Grows Request.field (content fields []) (content fields ([] ++
      [⟨fieldAt instrument 0, [RequestFormat.resourceField properties]⟩]))
      (Request.addResource properties) :=
  grows_addResource hnumbered.1 properties (length_more_le _ _ _ _ hlength)

theorem grows_beginScope (added : TelemetryExport.Scope)
    (hnumbered : AllNumberedIn fields [resource])
    (hnumbers : NumberedFrom instrument 0 [resource])
    (hlength : (encodeAll (content fields ([resource] ++
      [⟨fieldAt instrument 1, [added.field]⟩]))).length ≤ maxPayloadSize) :
    Grows Request.field (content fields [resource])
      (content fields ([resource] ++ [⟨fieldAt instrument 1, [added.field]⟩]))
      (Request.addScope added) := by
  obtain ⟨number, resourceFields⟩ := resource
  obtain ⟨rfl, -⟩ := hnumbers
  have hmore := length_more_le _ _ _ _ hlength
  -- The content of an inner message is no longer than that of the one around it.
  have hresource := Nat.le_trans (length_content_tail_le fields _ _) hlength
  exact Grows.inResource hnumbered.1 hresource (grows_addScope hnumbered.tail.1 added hmore)

theorem grows_beginMetric (added : TelemetryExport.Metric)
    (hnumbered : AllNumberedIn fields [resource, scope])
    (hnumbers : NumberedFrom instrument 0 [resource, scope])
    (hlength : (encodeAll (content fields ([resource, scope] ++
      [⟨fieldAt instrument 2, added.headerFields⟩]))).length ≤ maxPayloadSize) :
    Grows Request.field (content fields [resource, scope])
      (content fields ([resource, scope] ++ [⟨fieldAt instrument 2, added.headerFields⟩]))
      (Request.addMetric added) := by
  obtain ⟨resourceNumber, resourceFields⟩ := resource
  obtain ⟨scopeNumber, scopeFields⟩ := scope
  obtain ⟨rfl, rfl, -⟩ := hnumbers
  have hmore := length_more_le _ _ _ _ hlength
  have hresource := Nat.le_trans (length_content_tail_le fields _ _) hlength
  have hscope := Nat.le_trans (length_content_tail_le resourceFields _ _) hresource
  exact Grows.inResource hnumbered.1 hresource <|
    Grows.inScope hnumbered.tail.1 hscope <|
    grows_addMetric hnumbered.tail.tail.1 added hmore

theorem grows_beginInstrument (added : MetricData)
    (hnumbered : AllNumberedIn fields [resource, scope, metric])
    (hnumbers : NumberedFrom instrument 0 [resource, scope, metric])
    (hlength : (encodeAll (content fields ([resource, scope, metric] ++
      [⟨fieldAt (some (Instrument.ofData added)) 3, added.headerFields⟩]))).length ≤
        maxPayloadSize) :
    Grows Request.field (content fields [resource, scope, metric])
      (content fields ([resource, scope, metric] ++
        [⟨fieldAt (some (Instrument.ofData added)) 3, added.headerFields⟩]))
      (Request.addInstrument added) := by
  obtain ⟨resourceNumber, resourceFields⟩ := resource
  obtain ⟨scopeNumber, scopeFields⟩ := scope
  obtain ⟨metricNumber, metricFields⟩ := metric
  obtain ⟨rfl, rfl, rfl, -⟩ := hnumbers
  have hmore := length_more_le _ _ _ _ hlength
  have hresource := Nat.le_trans (length_content_tail_le fields _ _) hlength
  have hscope := Nat.le_trans (length_content_tail_le resourceFields _ _) hresource
  have hmetric := Nat.le_trans (length_content_tail_le scopeFields _ _) hscope
  exact Grows.inResource hnumbered.1 hresource <|
    Grows.inScope hnumbered.tail.1 hscope <|
    Grows.inMetric hnumbered.tail.tail.1 hmetric <|
    grows_setInstrument hnumbered.tail.tail.tail.1 added hmore

theorem grows_emit (kind : Instrument) (point : DataPoint)
    (hnumbered : AllNumberedIn fields [resource, scope, metric, data])
    (hnumbers : NumberedFrom (some kind) 0 [resource, scope, metric, data])
    (hlength : (encodeAll (content
      (grow [RequestEncoder.pointField point] fields [resource, scope, metric, data]).1
      (grow [RequestEncoder.pointField point] fields [resource, scope, metric, data]).2)).length ≤
        maxPayloadSize) :
    Grows Request.field (content fields [resource, scope, metric, data])
      (content
        (grow [RequestEncoder.pointField point] fields [resource, scope, metric, data]).1
        (grow [RequestEncoder.pointField point] fields [resource, scope, metric, data]).2)
      (Request.addPoint point) := by
  obtain ⟨resourceNumber, resourceFields⟩ := resource
  obtain ⟨scopeNumber, scopeFields⟩ := scope
  obtain ⟨metricNumber, metricFields⟩ := metric
  obtain ⟨dataNumber, dataFields⟩ := data
  obtain ⟨rfl, rfl, rfl, rfl, -⟩ := hnumbers
  have hmore : (encodeAll point.fields).length ≤ maxPayloadSize := by
    rw [RequestEncoder.length_content_grow, RequestEncoder.length_encodeAll_pointField] at hlength
    omega
  have hresource := Nat.le_trans (length_content_tail_le fields _ _) hlength
  have hscope := Nat.le_trans (length_content_tail_le resourceFields _ _) hresource
  have hmetric := Nat.le_trans (length_content_tail_le scopeFields _ _) hscope
  have hdata := Nat.le_trans (length_content_tail_le metricFields _ _) hmetric
  exact Grows.inResource hnumbered.1 hresource <|
    Grows.inScope hnumbered.tail.1 hscope <|
    Grows.inMetric hnumbered.tail.tail.1 hmetric <|
    Grows.inInstrument hnumbered.tail.tail.tail.1 hdata kind <|
    grows_addPoint hnumbered.tail.tail.tail.tail.1 point hmore

end Message

/-! ## Operations -/

/-- A message to be opened, with what it says of itself. -/
inductive Opening where
  | resource
  | scope (opened : Scope)
  | metric (opened : Metric)
  | instrument (data : MetricData)

namespace Opening

def run : Opening → EncodeRequest Unit
  | .resource => RequestEncoder.beginResource
  | .scope opened => RequestEncoder.beginScope opened
  | .metric opened => RequestEncoder.beginMetric opened
  | .instrument data => RequestEncoder.beginInstrument data

/-- How many messages are open around it. -/
def depth : Opening → Nat
  | .resource => Level.resource
  | .scope _ => Level.scope
  | .metric _ => Level.metric
  | .instrument _ => Level.instrument

/-- What it does to the tree of a request for the resource with the given attributes. -/
def change (properties : List Attribute) : Opening → Message.Request → Option Message.Request
  | .resource => Message.Request.addResource properties
  | .scope opened => Message.Request.addScope opened
  | .metric opened => Message.Request.addMetric opened
  | .instrument data => Message.Request.addInstrument data

/-- The fields with which its message begins. -/
def fields (properties : List Attribute) : Opening → List WrittenField
  | .resource => [RequestFormat.resourceField properties]
  | .scope opened => [opened.field]
  | .metric opened => opened.headerFields
  | .instrument data => data.headerFields

/-- The instrument that is open afterwards. -/
def instrumentAfter (current : Option Instrument) : Opening → Option Instrument
  | .instrument data => some (Instrument.ofData data)
  | _ => current

/-- The open message that it adds. -/
def message (properties : List Attribute) (current : Option Instrument) (opening : Opening) :
    OpenMessage :=
  ⟨RequestEncoder.fieldAt (opening.instrumentAfter current) opening.depth,
    opening.fields properties⟩

theorem depth_le (opening : Opening) : opening.depth ≤ Level.instrument := by
  cases opening with
  | resource => exact Nat.zero_le _
  | scope opened => exact Nat.le_of_ble_eq_true rfl
  | metric opened => exact Nat.le_of_ble_eq_true rfl
  | instrument data => exact Nat.le_refl _

theorem allNumbered_fields (properties : List Attribute) (opening : Opening) :
    AllNumbered (opening.fields properties) := by
  cases opening with
  | resource => exact allNumbered_singleton (numbered_of_check rfl)
  | scope opened => exact allNumbered_singleton (numbered_of_check rfl)
  | metric opened => exact Message.Metric.allNumbered_headerFields opened
  | instrument data => exact Message.Data.allNumbered_headerFields data

theorem numbered_message (properties : List Attribute) (current : Option Instrument)
    (opening : Opening) : 0 < (opening.message properties current).number ∧
      (opening.message properties current).number < 16 := by
  cases opening with
  | resource => exact ⟨Nat.le_of_ble_eq_true rfl, Nat.le_of_ble_eq_true rfl⟩
  | scope opened => exact ⟨Nat.le_of_ble_eq_true rfl, Nat.le_of_ble_eq_true rfl⟩
  | metric opened => exact ⟨Nat.le_of_ble_eq_true rfl, Nat.le_of_ble_eq_true rfl⟩
  | instrument data => exact Message.numbered_instrument _

/-- The writer behind each opening. -/
theorem exists_writer {properties : List Attribute} {encoder : RequestEncoder}
    (hresource : encoder.resource.data.toList =
      encodeAll [RequestFormat.resourceField properties]) (opening : Opening) :
    ∃ action, RequestEncoder.OpensWith opening.run encoder action
        (opening.instrumentAfter encoder.instrument) ∧
      WritesFields action (opening.fields properties) := by
  cases opening with
  | resource =>
      refine ⟨_, RequestEncoder.opensWith_beginResource encoder, ?_⟩
      have hwrites := writes_write encoder.resource
      rw [hresource] at hwrites
      exact hwrites
  | scope opened =>
      exact ⟨_, RequestEncoder.opensWith_beginScope opened encoder,
        RequestEncoder.writesFields_writeScope opened⟩
  | metric opened =>
      exact ⟨_, RequestEncoder.opensWith_beginMetric opened encoder,
        RequestEncoder.writesFields_writeMetricHeader opened⟩
  | instrument data =>
      exact ⟨_, RequestEncoder.opensWith_beginInstrument data encoder,
        RequestEncoder.writesFields_writeInstrumentHeader data⟩

/-- At its place, an opening changes the tree like the bytes. -/
theorem grows {properties : List Attribute} {current : Option Instrument}
    {fields : List WrittenField} {opens : List OpenMessage}
    (hnumbered : AllNumberedIn fields opens)
    (hnumbers : RequestEncoder.NumberedFrom current 0 opens) (opening : Opening)
    (hdepth : opens.length = opening.depth)
    (hlength : (encodeAll (content fields
      (opens ++ [opening.message properties current]))).length ≤ maxPayloadSize) :
    Grows Message.Request.field (content fields opens)
      (content fields (opens ++ [opening.message properties current]))
      (opening.change properties) := by
  cases opening with
  | resource =>
      match opens, hdepth with
      | [], _ => exact Message.grows_beginResource properties hnumbered hlength
  | scope opened =>
      match opens, hdepth with
      | [_], _ => exact Message.grows_beginScope opened hnumbered hnumbers hlength
  | metric opened =>
      match opens, hdepth with
      | [_, _], _ => exact Message.grows_beginMetric opened hnumbered hnumbers hlength
  | instrument data =>
      match opens, hdepth with
      | [_, _, _], _ => exact Message.grows_beginInstrument data hnumbered hnumbers hlength

end Opening

namespace RequestEncoder

variable {encoder : RequestEncoder} {tree changed : Message.Request}
  {fields : List WrittenField} {opens : List OpenMessage} {properties : List Attribute}

theorem Holds.open_of_ok (hholds : Holds encoder tree fields opens)
    (hresource : encoder.resource.data.toList =
      encodeAll [RequestFormat.resourceField properties]) {opening : Opening}
    (hdepth : opens.length = opening.depth) {after : RequestEncoder}
    (hrun : opening.run encoder = .ok () after)
    (hchange : opening.change properties tree = some changed) :
    Keeps encoder after ∧ after.instrument = opening.instrumentAfter encoder.instrument ∧
      Holds after changed fields
        (opens ++ [opening.message properties encoder.instrument]) := by
  obtain ⟨action, hopens, hwrites⟩ := opening.exists_writer hresource
  have hle := opening.depth_le
  obtain ⟨hkeeps, hinstrument, hdrafts⟩ :=
    hholds.toDrafts.begin_of_ok hopens hwrites (by omega) hrun
  rw [hdepth] at hdrafts
  refine ⟨hkeeps, hinstrument, hholds.opened_of_grows (opening.allNumbered_fields properties)
    (opening.numbered_message properties encoder.instrument) ?_ hdrafts hchange⟩
  exact opening.grows hholds.numbered hholds.numbers hdepth hdrafts.length_content_le

/-- A point of the open instrument's kind is read as the last point of the tree. -/
theorem Holds.emit_of_ok (hholds : Holds encoder tree fields opens) {point : DataPoint}
    {kind : Instrument} (hkind : encoder.instrument = some kind)
    (hdepth : opens.length = Level.dataPoint) {after : RequestEncoder}
    (hrun : emit point encoder = .ok () after)
    (hchange : Message.Request.addPoint point tree = some changed) :
    Holds after changed (grow [pointField point] fields opens).1
        (grow [pointField point] fields opens).2 ∧
      Completes after (grow [pointField point] fields opens).1
        (grow [pointField point] fields opens).2 ∧
      after.resource = encoder.resource ∧ after.instrument = encoder.instrument := by
  obtain ⟨hcompletes, hresource, hinstrument⟩ :=
    hholds.toDrafts.emit_of_ok (by rw [hdepth]; decide) hrun
  have hpoint : AllNumbered [pointField point] := allNumbered_singleton (numbered_of_check rfl)
  refine ⟨⟨hcompletes.toDrafts, hholds.numbered.grow hpoint, ?_⟩, hcompletes, hresource,
    hinstrument⟩
  have hlength := hcompletes.toDrafts.length_content_le
  have hnumbers := hholds.numbers
  rw [hkind] at hnumbers
  match opens, hdepth with
  | [resource, scope, metric, data], _ =>
      have hgrows := Message.grows_emit kind point hholds.numbered hnumbers hlength
      exact hgrows.absorbs _ _ _ hholds.absorbs hchange

/-- At its place a resource, a scope and a metric can always be added to the tree. An
instrument can be where the last metric has none. -/
theorem Holds.change_isSome (hholds : Holds encoder tree fields opens)
    (properties : List Attribute) {opening : Opening}
    (hdepth : opens.length = opening.depth) (hinstrument : ∀ data, opening ≠ .instrument data) :
    (opening.change properties tree).isSome := by
  have habsorb := hholds.absorbs
  have hlength := hholds.length_content_le
  have hnumbers := hholds.numbers
  cases opening with
  | resource => rfl
  | scope opened =>
      match opens, hdepth with
      | [resource], _ =>
          -- The bytes were read with a resource at the end, so that there is one to change.
          rw [content_cons, hnumbers.1] at habsorb
          obtain ⟨_, -, hchange⟩ := Message.Request.changeResource_of_absorb habsorb
          exact hchange _ rfl
  | metric opened =>
      match opens, hdepth with
      | [resource, scope], _ =>
          rw [content_cons, hnumbers.1] at habsorb
          obtain ⟨_, hresource, hchange⟩ := Message.Request.changeResource_of_absorb habsorb
          have hcontent := Nat.le_trans (length_content_tail_le fields _ _) hlength
          rw [merge_eq_absorb _ (allNumbered_content hholds.numbered.tail) hcontent, content_cons,
            hnumbers.2.1] at hresource
          obtain ⟨_, -, hinner⟩ := Message.ResourceMetrics.changeScope_of_absorb hresource
          exact hchange _ (hinner _ rfl)
  | instrument data => exact absurd rfl (hinstrument data)

/-- Closing messages whose headers are right leaves the tree as it is. -/
theorem Holds.closeTo (hholds : Holds encoder tree fields opens)
    (hcompletes : Completes encoder fields opens) (depth : Nat) :
    Holds (encoder.closeTo depth) tree (close depth fields opens).1
      (close depth fields opens).2 := by
  refine ⟨(hcompletes.closeTo depth).toDrafts, hholds.numbered.close depth, ?_⟩
  rw [content_close]
  exact hholds.absorbs

theorem Holds.rewind (hholds : Holds encoder tree fields opens)
    (hcompletes : Completes encoder fields opens) {after : RequestEncoder}
    (hkeeps : Keeps encoder after) :
    Holds (after.rewind encoder.checkpoint) tree fields opens :=
  ⟨(hkeeps.rewind hcompletes).toDrafts, hholds.numbered, hholds.absorbs⟩

end RequestEncoder

end TelemetryExport
