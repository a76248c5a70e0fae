import TelemetryExport.Proofs.Metric.Decoding
import TelemetryExport.Proofs.Metric.Draft

/-! # The tree of a request

A request in the making is written at its right edge: into its last resource, the
last scope of that, the last metric of that, and the instrument of that. The
changes of the tree are stated here on the messages that arrive, and each of them is
what the bytes of the corresponding writer do to the message around them.
-/

namespace TelemetryExport

open WrittenField Wire OpenMessage

namespace Message

/-! ## Changes at the right edge -/

/-- The list with its last element changed, if there is one and the change applies. -/
def changeLast {α : Type} (change : α → Option α) (items : List α) : Option (List α) :=
  items.getLast?.bind fun last => (change last).map fun changed => items.dropLast ++ [changed]

theorem changeLast_concat {α : Type} (change : α → Option α) (items : List α) (last : α) :
    changeLast change (items ++ [last]) =
      (change last).map fun changed => items ++ [changed] := by
  rw [changeLast, List.getLast?_concat, Option.bind_some, List.dropLast_concat]

/-- Changes the instrument of a metric. -/
def Metric.changeData (change : Data → Option Data) (metric : Metric) : Option Metric :=
  metric.data.bind fun data => (change data).map fun data => { metric with data := some data }

/-- Gives a metric its instrument, unless it has one. -/
def Metric.setInstrument (data : MetricData) (metric : Metric) : Option Metric :=
  match metric.data with
  | none => some { metric with data := some (Data.ofInstrument data) }
  | some _ => none

def ScopeMetrics.addMetric (metric : TelemetryExport.Metric) (scope : ScopeMetrics) :
    ScopeMetrics :=
  { scope with metrics := scope.metrics ++ [Metric.ofHeader metric] }

def ScopeMetrics.changeMetric (change : Metric → Option Metric) (scope : ScopeMetrics) :
    Option ScopeMetrics :=
  (changeLast change scope.metrics).map fun metrics => { scope with metrics }

def ResourceMetrics.addScope (scope : TelemetryExport.Scope) (resource : ResourceMetrics) :
    ResourceMetrics :=
  { resource with scopes := resource.scopes ++ [{ scope := some (Scope.ofScope scope) }] }

def ResourceMetrics.changeScope (change : ScopeMetrics → Option ScopeMetrics)
    (resource : ResourceMetrics) : Option ResourceMetrics :=
  (changeLast change resource.scopes).map fun scopes => { resource with scopes }

namespace Request

def changeResource (change : ResourceMetrics → Option ResourceMetrics) (request : Request) :
    Option Request :=
  (changeLast change request.resources).map fun resources => { request with resources }

/-- One more resource, without any scopes. -/
def addResource (properties : List Attribute) (request : Request) : Option Request :=
  some { request with
    resources := request.resources ++ [{ resource := some ⟨keyValues properties⟩ }] }

/-- One more scope in the last resource. -/
def addScope (scope : TelemetryExport.Scope) : Request → Option Request :=
  changeResource fun resource => some (resource.addScope scope)

/-- One more metric in the last scope. -/
def addMetric (metric : TelemetryExport.Metric) : Request → Option Request :=
  changeResource (ResourceMetrics.changeScope fun scope => some (scope.addMetric metric))

/-- An instrument for the last metric. -/
def addInstrument (data : MetricData) : Request → Option Request :=
  changeResource (ResourceMetrics.changeScope (ScopeMetrics.changeMetric
    (Metric.setInstrument data)))

/-- One more point of the last instrument. -/
def addPoint (point : DataPoint) : Request → Option Request :=
  changeResource (ResourceMetrics.changeScope (ScopeMetrics.changeMetric
    (Metric.changeData (·.addPoint? point))))

end Request

/-! ## Nested messages in the messages around them -/

theorem Request.field_resource (request : Request) (content : List UInt8) :
    Request.field request Schema.Request.resourceMetrics (.bytes content) =
      (merge ResourceMetrics.field {} content).map fun resource =>
        { request with resources := request.resources ++ [resource] } := by
  simp only [Schema.Request.resourceMetrics, Request.field, WireValue.message?, WireValue.bytes?,
    Option.bind_eq_bind, Option.bind_some, Option.pure_def]
  cases merge ResourceMetrics.field {} content <;> rfl

theorem ResourceMetrics.field_scope (resource : ResourceMetrics) (content : List UInt8) :
    ResourceMetrics.field resource Schema.ResourceMetrics.scopeMetrics (.bytes content) =
      (merge ScopeMetrics.field {} content).map fun scope =>
        { resource with scopes := resource.scopes ++ [scope] } := by
  simp only [Schema.ResourceMetrics.scopeMetrics, ResourceMetrics.field, WireValue.message?,
    WireValue.bytes?, Option.bind_eq_bind, Option.bind_some, Option.pure_def]
  cases merge ScopeMetrics.field {} content <;> rfl

theorem ScopeMetrics.field_metric (scope : ScopeMetrics) (content : List UInt8) :
    ScopeMetrics.field scope Schema.ScopeMetrics.metrics (.bytes content) =
      (merge Metric.field {} content).map fun metric =>
        { scope with metrics := scope.metrics ++ [metric] } := by
  simp only [Schema.ScopeMetrics.metrics, ScopeMetrics.field, WireValue.message?,
    WireValue.bytes?, Option.bind_eq_bind, Option.bind_some, Option.pure_def]
  cases merge Metric.field {} content <;> rfl

/-- The instrument from which an occurrence of an instrument's message starts. -/
def Metric.startData (instrument : Instrument) (metric : Metric) : Data :=
  (metric.data.filter (·.instrument == instrument)).getD (.empty instrument)

theorem Metric.field_instrument (instrument : Instrument) (metric : Metric)
    (content : List UInt8) :
    Metric.field metric (Schema.Metric.instrument instrument) (.bytes content) =
      (merge Data.field (metric.startData instrument) content).map fun data =>
        { metric with data := some data } := by
  have hmerge : mergeData metric.data instrument (.bytes content) =
      merge Data.field (metric.startData instrument) content := by
    simp only [mergeData, WireValue.message?, WireValue.bytes?, Option.bind_eq_bind,
      Option.bind_some, Metric.startData]
  cases instrument <;>
    simp only [Schema.Metric.instrument, Metric.field, hmerge, Option.bind_eq_bind,
      Option.pure_def] <;>
    cases merge Data.field _ content <;> rfl

theorem Metric.startData_of_none {metric : Metric} (hnone : metric.data = none)
    (instrument : Instrument) : metric.startData instrument = .empty instrument := by
  rw [Metric.startData, hnone]
  rfl

/-- The right edge of a request that ends in open messages: its last resource, scope and
metric are those of the open messages. -/
theorem Request.changeResource_of_absorb {fields : List WrittenField} {content : List UInt8}
    {request : Request}
    (habsorb : absorb Request.field {}
      (fields ++ [.message Schema.Request.resourceMetrics content]) = some request) :
    ∃ resource, merge ResourceMetrics.field {} content = some resource ∧
      ∀ change, (change resource).isSome → (request.changeResource change).isSome := by
  obtain ⟨outer, resource, -, hresource, rfl⟩ :=
    absorb_concat_message Request.field_resource habsorb
  refine ⟨resource, hresource, fun change hchange => ?_⟩
  rw [Request.changeResource, changeLast_concat, Option.isSome_map, Option.isSome_map]
  exact hchange

theorem ResourceMetrics.changeScope_of_absorb {fields : List WrittenField}
    {content : List UInt8} {resource : ResourceMetrics}
    (habsorb : absorb ResourceMetrics.field {}
      (fields ++ [.message Schema.ResourceMetrics.scopeMetrics content]) = some resource) :
    ∃ scope, merge ScopeMetrics.field {} content = some scope ∧
      ∀ change, (change scope).isSome → (resource.changeScope change).isSome := by
  obtain ⟨outer, scope, -, hscope, rfl⟩ :=
    absorb_concat_message ResourceMetrics.field_scope habsorb
  refine ⟨scope, hscope, fun change hchange => ?_⟩
  rw [ResourceMetrics.changeScope, changeLast_concat, Option.isSome_map, Option.isSome_map]
  exact hchange

/-! ## Fresh messages -/

def Resource.attributeList : ListField Resource KeyValue where
  get := (·.attributes)
  set := fun message attributes => { message with attributes }

theorem Resource.absorb_properties (properties : List Attribute)
    (hlength : (encodeAll (propertyFields Schema.Resource.properties properties)).length ≤
      maxPayloadSize) (message : Resource) :
    absorb Resource.field message (propertyFields Schema.Resource.properties properties) =
      some { message with attributes := message.attributes ++ keyValues properties } :=
  absorb_propertyFields attributeList (fun _ _ => Option.map_eq_bind.symm) hlength message

/-- A resource's message that holds only the resource. -/
theorem ResourceMetrics.merge_resourceField (properties : List Attribute)
    (hlength : (encodeAll [RequestFormat.resourceField properties]).length ≤ maxPayloadSize) :
    merge ResourceMetrics.field {} (encodeAll [RequestFormat.resourceField properties]) =
      some { resource := some ⟨keyValues properties⟩ } := by
  have hcontent := Nat.le_trans (length_content_le_of_mem List.mem_cons_self) hlength
  have hmerge : merge Resource.field {}
      (encodeAll (propertyFields Schema.Resource.properties properties)) =
        some ⟨keyValues properties⟩ := by
    rw [merge_eq_absorb _ (allNumbered_propertyFields _ (by decide) (by decide)) hcontent,
      Resource.absorb_properties _ hcontent]
    rfl
  rw [merge_eq_absorb _ (allNumbered_singleton (numbered_of_check rfl)) hlength]
  simp only [absorb_singleton, toWire, RequestFormat.resourceField,
    Schema.ResourceMetrics.resource, field, WireValue.message?, WireValue.bytes?,
    Option.getD_none, Option.bind_eq_bind, Option.bind_some, hmerge, Option.pure_def]

def Scope.attributeList : ListField Scope KeyValue where
  get := (·.attributes)
  set := fun message attributes => { message with attributes }

theorem Scope.absorb_properties (properties : List Attribute)
    (hlength : (encodeAll (propertyFields Schema.Scope.properties properties)).length ≤
      maxPayloadSize) (message : Scope) :
    absorb Scope.field message (propertyFields Schema.Scope.properties properties) =
      some { message with attributes := message.attributes ++ keyValues properties } :=
  absorb_propertyFields attributeList (fun _ _ => Option.map_eq_bind.symm) hlength message

theorem Scope.absorb_version (version : Option String) (message : Scope) :
    absorb Scope.field message
        (bytesFields Schema.Scope.version (version.map (·.toUTF8.data.toList))) =
      some { message with version := version.getD message.version } := by
  cases version with
  | none => rfl
  | some version =>
      simp only [bytesFields, Option.map_some, Option.elim_some, absorb_singleton, toWire,
        Schema.Scope.version, Scope.field, WireValue.text?_toUTF8, Option.bind_eq_bind,
        Option.bind_some, Option.pure_def, Option.getD_some]

theorem Scope.allNumbered_fields (scope : TelemetryExport.Scope) : AllNumbered scope.fields :=
  (allNumbered_singleton (numbered_of_check rfl)).append <|
    (allNumbered_bytesFields _ (by decide) (by decide)).append <|
    allNumbered_propertyFields _ (by decide) (by decide)

theorem Scope.merge_fields (scope : TelemetryExport.Scope)
    (hlength : (encodeAll scope.fields).length ≤ maxPayloadSize) :
    merge Scope.field {} (encodeAll scope.fields) = some (Scope.ofScope scope) := by
  rw [merge_eq_absorb _ (allNumbered_fields scope) hlength]
  simp only [TelemetryExport.Scope.fields, encodeAll_append, List.length_append] at hlength
  have hname : ∀ message : Scope, absorb Scope.field message
      [.bytes Schema.Scope.name scope.name.toUTF8.data.toList] =
        some { message with name := scope.name } := by
    intro message
    simp only [absorb_singleton, toWire, Schema.Scope.name, Scope.field, WireValue.text?_toUTF8,
      Option.bind_eq_bind, Option.bind_some, Option.pure_def]
  have hproperties := Scope.absorb_properties scope.properties (by omega)
  simp only [TelemetryExport.Scope.fields, absorb_append, hname, Scope.absorb_version,
    hproperties, Option.bind_some, List.nil_append]
  rfl

/-- A scope's message that holds only its description. -/
theorem ScopeMetrics.merge_field (scope : TelemetryExport.Scope)
    (hlength : (encodeAll [scope.field]).length ≤ maxPayloadSize) :
    merge ScopeMetrics.field {} (encodeAll [scope.field]) =
      some { scope := some (Scope.ofScope scope) } := by
  have hcontent := Nat.le_trans (length_content_le_of_mem List.mem_cons_self) hlength
  have hmerge := Scope.merge_fields scope hcontent
  rw [merge_eq_absorb _ (allNumbered_singleton (numbered_of_check rfl)) hlength]
  simp only [absorb_singleton, toWire, TelemetryExport.Scope.field, Schema.ScopeMetrics.scope,
    ScopeMetrics.field, WireValue.message?, WireValue.bytes?, Option.getD_none,
    Option.bind_eq_bind, Option.bind_some, hmerge, Option.pure_def]

theorem allNumbered_textFields {number : Nat} (text : String) (hpos : 0 < number)
    (hnumber : number < 16) : AllNumbered (textFields number text) :=
  AllNumbered.ite allNumbered_nil (allNumbered_singleton ⟨hpos, hnumber⟩)

theorem Metric.allNumbered_headerFields (metric : TelemetryExport.Metric) :
    AllNumbered metric.headerFields :=
  (allNumbered_singleton (numbered_of_check rfl)).append <|
    (allNumbered_textFields _ (by decide) (by decide)).append <|
    allNumbered_textFields _ (by decide) (by decide)

/-- A text arrives where it is stored, if no text was stored there before. -/
theorem absorb_textFields {α : Type} {step : α → Nat → WireValue → Option α} {number : Nat}
    {message : α} (store : String → α) (hempty : store "" = message)
    (hstep : ∀ text : String,
      step message number (.bytes text.toUTF8.data.toList) = some (store text)) (text : String) :
    absorb step message (textFields number text) = some (store text) := by
  by_cases htext : text.isEmpty = true
  · rw [textFields, if_pos htext, absorb_nil, String.isEmpty_iff.mp htext, hempty]
  · simp only [textFields, htext, Bool.false_eq_true, if_false, absorb_singleton, toWire, hstep]

theorem Metric.absorb_description (text : String) (message : Metric)
    (hempty : message.description = "") :
    absorb Metric.field message (textFields Schema.Metric.description text) =
      some { message with description := text } := by
  refine absorb_textFields (fun description => { message with description }) ?_ ?_ text
  · rw [← hempty]
  · intro text
    simp only [Schema.Metric.description, Metric.field, WireValue.text?_toUTF8,
      Option.bind_eq_bind, Option.bind_some, Option.pure_def]

theorem Metric.absorb_unit (text : String) (message : Metric) (hempty : message.unit = "") :
    absorb Metric.field message (textFields Schema.Metric.unit text) =
      some { message with unit := text } := by
  refine absorb_textFields (fun unit => { message with unit }) ?_ ?_ text
  · rw [← hempty]
  · intro text
    simp only [Schema.Metric.unit, Metric.field, WireValue.text?_toUTF8, Option.bind_eq_bind,
      Option.bind_some, Option.pure_def]

/-- A metric's message that holds only its header. -/
theorem Metric.merge_headerFields (metric : TelemetryExport.Metric)
    (hlength : (encodeAll metric.headerFields).length ≤ maxPayloadSize) :
    merge Metric.field {} (encodeAll metric.headerFields) = some (Metric.ofHeader metric) := by
  have hname : ∀ message : Metric, absorb Metric.field message
      [.bytes Schema.Metric.name metric.name.toUTF8.data.toList] =
        some { message with name := metric.name } := by
    intro message
    simp only [absorb_singleton, toWire, Schema.Metric.name, Metric.field,
      WireValue.text?_toUTF8, Option.bind_eq_bind, Option.bind_some, Option.pure_def]
  rw [merge_eq_absorb _ (allNumbered_headerFields metric) hlength]
  simp only [TelemetryExport.Metric.headerFields, absorb_append, hname,
    Metric.absorb_description, Metric.absorb_unit, Option.bind_some]
  rfl

theorem Data.allNumbered_headerFields (data : MetricData) : AllNumbered data.headerFields := by
  have htemporality : ∀ kind : Temporality, AllNumbered kind.fields := by
    intro kind
    cases kind with
    | unspecified => exact allNumbered_nil
    | delta => exact allNumbered_singleton (numbered_of_check rfl)
    | cumulative => exact allNumbered_singleton (numbered_of_check rfl)
  cases data with
  | gauge points => exact allNumbered_nil
  | sum points kind monotonic =>
      exact (htemporality kind).append
        (AllNumbered.ite (allNumbered_singleton (numbered_of_check rfl)) allNumbered_nil)
  | histogram points kind => exact htemporality kind
  | exponential points kind => exact htemporality kind

/-- An instrument's message that holds only its header. -/
theorem Data.merge_headerFields (data : MetricData)
    (hlength : (encodeAll data.headerFields).length ≤ maxPayloadSize) :
    merge Data.field (.empty (Instrument.ofData data)) (encodeAll data.headerFields) =
      some (Data.ofInstrument data) := by
  rw [merge_eq_absorb _ (allNumbered_headerFields data) hlength]
  cases data with
  | gauge points => rfl
  | sum points kind monotonic => cases kind <;> cases monotonic <;> rfl
  | histogram points kind => cases kind <;> rfl
  | exponential points kind => cases kind <;> rfl

theorem numbered_instrument (instrument : Instrument) :
    0 < Schema.Metric.instrument instrument ∧ Schema.Metric.instrument instrument < 16 := by
  cases instrument <;> decide

theorem DataPoint.field_pointField (data : Data) {point : DataPoint}
    (hlength : (encodeAll point.fields).length ≤ maxPayloadSize) {after : Data}
    (hafter : data.addPoint? point = some after) :
    Data.field data Schema.Instrument.dataPoints (.bytes (encodeAll point.fields)) =
      some after := by
  cases point with
  | number point =>
      have hread : numberPoint? (.bytes (encodeAll point.fields)) = some point.message :=
        point.merge_fields hlength
      cases data with
      | gauge points =>
          cases hafter
          simp only [Schema.Instrument.dataPoints, TelemetryExport.DataPoint.fields, Data.field,
            hread, Option.bind_eq_bind, Option.bind_some, Option.pure_def]
      | sum points kind monotonic =>
          cases hafter
          simp only [Schema.Instrument.dataPoints, TelemetryExport.DataPoint.fields, Data.field,
            hread, Option.bind_eq_bind, Option.bind_some, Option.pure_def]
      | histogram points kind => cases hafter
      | exponential points kind => cases hafter
  | histogram point =>
      have hread : histogramPoint? (.bytes (encodeAll point.fields)) = some point.message :=
        point.merge_fields hlength
      cases data with
      | histogram points kind =>
          cases hafter
          simp only [Schema.Instrument.dataPoints, TelemetryExport.DataPoint.fields, Data.field,
            hread, Option.bind_eq_bind, Option.bind_some, Option.pure_def]
      | gauge points => cases hafter
      | sum points kind monotonic => cases hafter
      | exponential points kind => cases hafter
  | exponential point =>
      have hread : exponentialPoint? (.bytes (encodeAll point.fields)) = some point.message :=
        point.merge_fields hlength
      cases data with
      | exponential points kind =>
          cases hafter
          simp only [Schema.Instrument.dataPoints, TelemetryExport.DataPoint.fields, Data.field,
            hread, Option.bind_eq_bind, Option.bind_some, Option.pure_def]
      | gauge points => cases hafter
      | sum points kind monotonic => cases hafter
      | histogram points kind => cases hafter

/-! ## What the writers do to the messages around them -/

section

variable {fields : List WrittenField} (hfields : AllNumbered fields)
include hfields

theorem grows_addResource (properties : List Attribute)
    (hlength : (encodeAll [RequestFormat.resourceField properties]).length ≤ maxPayloadSize) :
    Grows Request.field fields (fields ++ [.message Schema.Request.resourceMetrics
      (encodeAll [RequestFormat.resourceField properties])])
      (Request.addResource properties) := by
  apply grows_append hfields (allNumbered_singleton (numbered_of_check rfl))
  intro before after hafter
  rw [absorb_singleton, ← hafter]
  simp only [toWire, Request.field_resource,
    ResourceMetrics.merge_resourceField properties hlength, Option.map_some,
    Request.addResource]

theorem grows_addScope (scope : TelemetryExport.Scope)
    (hlength : (encodeAll [scope.field]).length ≤ maxPayloadSize) :
    Grows ResourceMetrics.field fields (fields ++ [.message Schema.ResourceMetrics.scopeMetrics
      (encodeAll [scope.field])]) (fun resource => some (resource.addScope scope)) := by
  apply grows_append hfields (allNumbered_singleton (numbered_of_check rfl))
  intro before after hafter
  rw [absorb_singleton, ← hafter]
  simp only [toWire, ResourceMetrics.field_scope, ScopeMetrics.merge_field scope hlength,
    Option.map_some, ResourceMetrics.addScope]

theorem grows_addMetric (metric : TelemetryExport.Metric)
    (hlength : (encodeAll metric.headerFields).length ≤ maxPayloadSize) :
    Grows ScopeMetrics.field fields (fields ++ [.message Schema.ScopeMetrics.metrics
      (encodeAll metric.headerFields)]) (fun scope => some (scope.addMetric metric)) := by
  apply grows_append hfields (allNumbered_singleton (numbered_of_check rfl))
  intro before after hafter
  rw [absorb_singleton, ← hafter]
  simp only [toWire, ScopeMetrics.field_metric, Metric.merge_headerFields metric hlength,
    Option.map_some, ScopeMetrics.addMetric]

theorem grows_setInstrument (data : MetricData)
    (hlength : (encodeAll data.headerFields).length ≤ maxPayloadSize) :
    Grows Metric.field fields
      (fields ++ [.message (Schema.Metric.instrument (Instrument.ofData data))
        (encodeAll data.headerFields)]) (Metric.setInstrument data) := by
  have hnumbered : Numbered (.message (Schema.Metric.instrument (Instrument.ofData data))
      (encodeAll data.headerFields)) :=
    numbered_instrument _
  apply grows_append hfields (allNumbered_singleton hnumbered)
  intro before after hafter
  cases hdata : before.data with
  | some earlier =>
      rw [Metric.setInstrument, hdata] at hafter
      cases hafter
  | none =>
      rw [absorb_singleton]
      simp only [toWire, Metric.field_instrument, Metric.startData_of_none hdata,
        Data.merge_headerFields data hlength, Option.map_some]
      rw [Metric.setInstrument, hdata] at hafter
      exact hafter

theorem grows_addPoint (point : DataPoint)
    (hlength : (encodeAll point.fields).length ≤ maxPayloadSize) :
    Grows Data.field fields (fields ++ [RequestEncoder.pointField point])
      (·.addPoint? point) := by
  apply grows_append hfields (allNumbered_singleton (numbered_of_check rfl))
  intro before after hafter
  rw [absorb_singleton]
  exact DataPoint.field_pointField before hlength hafter

end

/-! ## Changes lifted to the request -/

section

variable {content grown fields : List WrittenField} (hfields : AllNumbered fields)
  (hlength : (encodeAll grown).length ≤ maxPayloadSize)
include hfields hlength

theorem Grows.inResource {change : ResourceMetrics → Option ResourceMetrics}
    (hgrows : Grows ResourceMetrics.field content grown change) :
    Grows Request.field
      (fields ++ [.message Schema.Request.resourceMetrics (encodeAll content)])
      (fields ++ [.message Schema.Request.resourceMetrics (encodeAll grown)])
      (Request.changeResource change) := by
  refine hgrows.nested Request.field_resource ?_ (by decide) hfields hlength
  intro message nested
  rw [Request.changeResource, changeLast_concat]
  cases change nested <;> rfl

theorem Grows.inScope {change : ScopeMetrics → Option ScopeMetrics}
    (hgrows : Grows ScopeMetrics.field content grown change) :
    Grows ResourceMetrics.field
      (fields ++ [.message Schema.ResourceMetrics.scopeMetrics (encodeAll content)])
      (fields ++ [.message Schema.ResourceMetrics.scopeMetrics (encodeAll grown)])
      (ResourceMetrics.changeScope change) := by
  refine hgrows.nested ResourceMetrics.field_scope ?_ (by decide) hfields hlength
  intro message nested
  rw [ResourceMetrics.changeScope, changeLast_concat]
  cases change nested <;> rfl

theorem Grows.inMetric {change : Metric → Option Metric}
    (hgrows : Grows Metric.field content grown change) :
    Grows ScopeMetrics.field
      (fields ++ [.message Schema.ScopeMetrics.metrics (encodeAll content)])
      (fields ++ [.message Schema.ScopeMetrics.metrics (encodeAll grown)])
      (ScopeMetrics.changeMetric change) := by
  refine hgrows.nested ScopeMetrics.field_metric ?_ (by decide) hfields hlength
  intro message nested
  rw [ScopeMetrics.changeMetric, changeLast_concat]
  cases change nested <;> rfl

theorem Grows.inInstrument (instrument : Instrument) {change : Data → Option Data}
    (hgrows : Grows Data.field content grown change) :
    Grows Metric.field
      (fields ++ [.message (Schema.Metric.instrument instrument) (encodeAll content)])
      (fields ++ [.message (Schema.Metric.instrument instrument) (encodeAll grown)])
      (Metric.changeData change) := by
  refine hgrows.nested (Metric.field_instrument instrument) ?_ (numbered_instrument instrument)
    hfields hlength
  intro message nested
  rfl

end

end Message

end TelemetryExport
