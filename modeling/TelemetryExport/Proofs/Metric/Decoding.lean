import TelemetryExport.Proofs.Metric.Fields
import TelemetryExport.Proofs.Metric.Message
import TelemetryExport.Proofs.Number.Zigzag
import TelemetryExport.Proofs.Protobuf.Merge

/-! # Reading metrics back

What a receiver makes of the fields that are written for each part of a request.
Attributes, exemplars, points and the headers of scopes, metrics and instruments
arrive as the messages that should arrive, whatever values they carry.
-/

namespace TelemetryExport

open WrittenField Wire

namespace WireValue

/-! ## Scalars -/

theorem text?_toUTF8 (text : String) :
    (WireValue.bytes text.toUTF8.data.toList).text? = some text :=
  Bytes.fromUTF8?_toUTF8 text

theorem bool?_toNat (value : Bool) :
    (WireValue.varint (if value then 1 else 0)).bool? = some value := by
  cases value <;> rfl

/-! ## Folded integers -/

theorem toNat_toUInt32_of_lt {word : UInt64} (hword : word.toNat < 4294967296) :
    word.toUInt32.toNat = word.toNat := by
  rw [UInt64.toNat_toUInt32]
  omega

theorem toInt_half (word : UInt32) : ((word / 2).toInt32.toInt : Int) = word.toNat / 2 := by
  have hsigned := BitVec.toInt_eq_toNat_cond (word / 2).toBitVec
  have hbound := word.toNat_lt
  have hnat : (word / 2).toBitVec.toNat = word.toNat / 2 := rfl
  change (word / 2).toBitVec.toInt = _
  rw [hsigned, hnat]
  split <;> omega

theorem mod_two_eq_zero_iff (word : UInt32) : word % 2 = 0 ↔ word.toNat % 2 = 0 := by
  rw [← UInt32.toNat_inj]
  rfl

/-- Unfolding a folded integer gives it back, whatever its sign. -/
theorem foldedInt32?_zigzag (value : Int32) :
    (WireValue.varint (Varint.zigzag value.toInt64)).foldedInt32? = some value := by
  have hge := value.le_toInt
  have hlt := value.toInt_lt
  have hwide : value.toInt64.toInt = value.toInt := value.toInt_toInt64
  have hhalf := toInt_half (Varint.zigzag value.toInt64).toUInt32
  have hnarrow := toNat_toUInt32_of_lt (Varint.toNat_zigzag_toInt64_lt value)
  simp only [foldedInt32?, varint?, Option.map_some, mod_two_eq_zero_iff]
  by_cases hsign : 0 ≤ value.toInt
  · have hzigzag := Varint.toNat_zigzag_of_nonneg (hwide ▸ hsign)
    rw [if_pos (by omega), Option.some_inj, ← Int32.toInt_inj, hhalf]
    omega
  · have hzigzag := Varint.toNat_zigzag_of_neg (hwide ▸ Int.lt_of_not_ge hsign)
    -- Half of what a negative value is folded to is one less than its magnitude.
    have hneg : (-(((Varint.zigzag value.toInt64).toUInt32.toNat : Int) / 2)).bmod (2 ^ 32) =
        value.toInt + 1 := by
      rw [Int.bmod_eq_of_le (by omega) (by omega)]
      omega
    rw [if_neg (by omega), Option.some_inj, ← Int32.toInt_inj, Int32.toInt_sub, Int32.toInt_neg,
      hhalf, hneg]
    change (value.toInt + 1 - 1).bmod _ = _
    rw [Int.bmod_eq_of_le (by omega) (by omega)]
    omega

/-! ## Packed numbers -/

theorem packedFixed64?_digits (values : List UInt64) :
    packedFixed64? (values.flatMap fun value => Bytes.digits 8 value.toNat) = some values := by
  induction values with
  | nil => rfl
  | cons value rest ih =>
      have hvalue := value_digits_of_uint64 value
      simp only [Bytes.digits] at hvalue ih
      simp only [List.flatMap_cons, Bytes.digits, List.cons_append, List.nil_append,
        packedFixed64?, ih, Option.map_some, hvalue]

theorem packedVarints?_groups (values : List UInt64) (fuel : Nat)
    (hfuel : values.length ≤ fuel) :
    packedVarints? fuel (values.flatMap fun value => Varint.groups value.toNat) = some values := by
  induction values generalizing fuel with
  | nil => rw [List.flatMap_nil, packedVarints?]
  | cons value rest ih =>
      rw [List.length_cons] at hfuel
      rw [List.flatMap_cons]
      have hread := varint?_groups value (rest.flatMap fun value => Varint.groups value.toNat)
      cases fuel with
      | zero => omega
      | succ fuel =>
          cases hbytes : Varint.groups value.toNat ++
              rest.flatMap fun value => Varint.groups value.toNat with
          | nil =>
              have hpos := Varint.length_groups_pos value.toNat
              rw [(List.append_eq_nil_iff.mp hbytes).1] at hpos
              exact absurd hpos (Nat.lt_irrefl _)
          | cons byte tail =>
              rw [hbytes] at hread
              simp only [packedVarints?, hread, Option.bind_eq_bind, Option.bind_some,
                ih fuel (by omega), UInt64.ofNat_toNat, Option.pure_def]

theorem length_le_length_flatMap_groups (values : List UInt64) :
    values.length ≤ (values.flatMap fun value => Varint.groups value.toNat).length := by
  induction values with
  | nil => exact Nat.le_refl _
  | cons value rest ih =>
      have hpos := Varint.length_groups_pos value.toNat
      rw [List.flatMap_cons, List.length_append, List.length_cons]
      omega

end WireValue

/-! ## Attributes -/

theorem Scalar.absorb_fields {value : Scalar} (hvalue : value.isNull = false) :
    absorb Message.anyValueField .null value.fields = some value := by
  cases value with
  | text value =>
      simp only [Scalar.fields, absorb_singleton, toWire, Schema.AnyValue.text,
        Message.anyValueField, WireValue.text?_toUTF8, Option.map_some]
  | bool value =>
      simp only [Scalar.fields, absorb_singleton, toWire, Schema.AnyValue.bool,
        Message.anyValueField, WireValue.bool?_toNat, Option.map_some]
  | int value => rfl
  | double value => rfl
  | null => cases hvalue

theorem Scalar.allNumbered_fields (value : Scalar) : AllNumbered value.fields := by
  cases value with
  | null => exact allNumbered_nil
  | text value => exact allNumbered_singleton (numbered_of_check rfl)
  | bool value => exact allNumbered_singleton (numbered_of_check rfl)
  | int value => exact allNumbered_singleton (numbered_of_check rfl)
  | double value => exact allNumbered_singleton (numbered_of_check rfl)

namespace Attribute

theorem allNumbered_fields (property : Attribute) : AllNumbered property.fields :=
  (allNumbered_singleton (numbered_of_check rfl)).cons (numbered_of_check rfl)

theorem merge_fields {property : Attribute} (hvalue : property.value.isNull = false)
    (hlength : (encodeAll property.fields).length ≤ maxPayloadSize) :
    merge Message.KeyValue.field {} (encodeAll property.fields) =
      some ⟨property.key, some property.value⟩ := by
  have hmem : WrittenField.message Schema.KeyValue.value (encodeAll property.value.fields) ∈
      property.fields :=
    List.mem_cons_of_mem _ List.mem_cons_self
  have hcontent := Nat.le_trans (length_content_le_of_mem hmem) hlength
  have hmerge : merge Message.anyValueField .null (encodeAll property.value.fields) =
      some property.value := by
    rw [merge_eq_absorb _ property.value.allNumbered_fields hcontent]
    exact Scalar.absorb_fields hvalue
  rw [merge_eq_absorb _ property.allNumbered_fields hlength]
  simp only [fields, absorb_cons, absorb_nil, toWire, Schema.KeyValue.key, Schema.KeyValue.value,
    Message.KeyValue.field, WireValue.text?_toUTF8, WireValue.bytes?, Option.bind_eq_bind,
    Option.bind_some, Option.pure_def, Option.getD_none, hmerge]

end Attribute

/-- Attributes are collected in order, those without a value left out. -/
theorem absorb_propertyFields {α : Type} {step : α → Nat → WireValue → Option α} {number : Nat}
    (list : ListField α Message.KeyValue)
    (hstep : ∀ message content, step message number (.bytes content) =
      (Message.keyValue? (.bytes content)).map fun keyValue => list.extend message [keyValue])
    {properties : List Attribute}
    (hlength : (encodeAll (propertyFields number properties)).length ≤ maxPayloadSize)
    (message : α) :
    absorb step message (propertyFields number properties) =
      some (list.extend message (Message.keyValues properties)) := by
  rw [Message.keyValues, Attribute.filter_ne_null]
  apply absorb_messages list
  intro property hproperty message
  have hvalue : property.value.isNull = false := by
    have hpresent := (List.mem_filter.mp hproperty).2
    rw [Bool.not_eq_true'] at hpresent
    exact hpresent
  have hmem : WrittenField.message number (encodeAll property.fields) ∈
      propertyFields number properties :=
    List.mem_map.mpr ⟨property, hproperty, rfl⟩
  have hread : Message.keyValue? (.bytes (encodeAll property.fields)) = _ :=
    property.merge_fields hvalue (Nat.le_trans (length_content_le_of_mem hmem) hlength)
  rw [hstep, hread, Option.map_some]

theorem allNumbered_propertyFields {number : Nat} (properties : List Attribute)
    (hpos : 0 < number) (hnumber : number < 16) : AllNumbered (propertyFields number properties) :=
  allNumbered_messages _ _ hpos hnumber

/-! ## Exemplars -/

theorem allNumbered_bytesFields {number : Nat} (value : Option (List UInt8)) (hpos : 0 < number)
    (hnumber : number < 16) : AllNumbered (bytesFields number value) := by
  cases value with
  | none => exact allNumbered_nil
  | some bytes => exact allNumbered_singleton ⟨hpos, hnumber⟩

theorem allNumbered_doubleFields {number : Nat} (value : Option Binary64) (hpos : 0 < number)
    (hnumber : number < 16) : AllNumbered (doubleFields number value) := by
  cases value with
  | none => exact allNumbered_nil
  | some value => exact allNumbered_singleton ⟨hpos, hnumber⟩

theorem Number.allNumbered_field {doubleField intField : Nat} (number : Number)
    (hdouble : 0 < doubleField ∧ doubleField < 16) (hint : 0 < intField ∧ intField < 16) :
    AllNumbered [number.field doubleField intField] := by
  cases number with
  | int value => exact allNumbered_singleton hint
  | double value => exact allNumbered_singleton hdouble

namespace Exemplar

theorem allNumbered_fields (exemplar : Exemplar) : AllNumbered exemplar.fields :=
  (allNumbered_singleton (numbered_of_check rfl)).append <|
    (exemplar.value.allNumbered_field (by decide) (by decide)).append <|
    (allNumbered_bytesFields _ (by decide) (by decide)).append <|
    (allNumbered_bytesFields _ (by decide) (by decide)).append <|
    allNumbered_propertyFields _ (by decide) (by decide)

theorem absorb_value (value : Number) (message : Message.Exemplar) :
    absorb Message.Exemplar.field message
        [value.field Schema.Exemplar.double Schema.Exemplar.int] =
      some { message with value := some value } := by
  cases value <;> rfl

theorem absorb_spanId (id : Option SpanId) (message : Message.Exemplar) :
    absorb Message.Exemplar.field message
        (bytesFields Schema.Exemplar.spanId (id.map (·.bytes.toList))) =
      some { message with spanId := id.elim message.spanId (·.bytes.toList) } := by
  cases id <;> rfl

theorem absorb_traceId (id : Option TraceId) (message : Message.Exemplar) :
    absorb Message.Exemplar.field message
        (bytesFields Schema.Exemplar.traceId (id.map (·.bytes.toList))) =
      some { message with traceId := id.elim message.traceId (·.bytes.toList) } := by
  cases id <;> rfl

def attributeList : ListField Message.Exemplar Message.KeyValue where
  get := (·.attributes)
  set := fun message attributes => { message with attributes }

theorem absorb_properties (properties : List Attribute)
    (hlength : (encodeAll (propertyFields Schema.Exemplar.properties properties)).length ≤
      maxPayloadSize) (message : Message.Exemplar) :
    absorb Message.Exemplar.field message
        (propertyFields Schema.Exemplar.properties properties) =
      some { message with
        attributes := message.attributes ++ Message.keyValues properties } :=
  absorb_propertyFields attributeList (fun _ _ => Option.map_eq_bind.symm) hlength message

theorem merge_fields (exemplar : Exemplar)
    (hlength : (encodeAll exemplar.fields).length ≤ maxPayloadSize) :
    merge Message.Exemplar.field {} (encodeAll exemplar.fields) = some exemplar.message := by
  rw [merge_eq_absorb _ exemplar.allNumbered_fields hlength]
  simp only [fields, encodeAll_append, List.length_append] at hlength
  have htime : ∀ message : Message.Exemplar, absorb Message.Exemplar.field message
      [.fixed64 Schema.Exemplar.time exemplar.time.unixNanos] =
        some { message with time := exemplar.time.unixNanos } := fun _ => rfl
  have hproperties := absorb_properties exemplar.properties (by omega)
  simp only [fields, absorb_append, htime, absorb_value, absorb_spanId, absorb_traceId,
    hproperties, Option.bind_some, List.nil_append]
  rfl

/-- Exemplars are collected in order. -/
theorem absorb_fieldsAll {α : Type} {step : α → Nat → WireValue → Option α} {number : Nat}
    (list : ListField α Message.Exemplar)
    (hstep : ∀ message content, step message number (.bytes content) =
      (Message.exemplar? (.bytes content)).map fun exemplar => list.extend message [exemplar])
    {exemplars : List Exemplar}
    (hlength : (encodeAll (fieldsAll number exemplars)).length ≤ maxPayloadSize) (message : α) :
    absorb step message (fieldsAll number exemplars) =
      some (list.extend message (exemplars.map Exemplar.message)) := by
  apply absorb_messages list
  intro exemplar hexemplar message
  have hmem : WrittenField.message number (encodeAll exemplar.fields) ∈
      fieldsAll number exemplars :=
    List.mem_map.mpr ⟨exemplar, hexemplar, rfl⟩
  have hread : Message.exemplar? (.bytes (encodeAll exemplar.fields)) = _ :=
    exemplar.merge_fields (Nat.le_trans (length_content_le_of_mem hmem) hlength)
  rw [hstep, hread, Option.map_some]

theorem allNumbered_fieldsAll {number : Nat} (exemplars : List Exemplar) (hpos : 0 < number)
    (hnumber : number < 16) : AllNumbered (fieldsAll number exemplars) :=
  allNumbered_messages _ _ hpos hnumber

end Exemplar

/-! ## Points of numbers -/

namespace NumberPoint

theorem allNumbered_fields (point : NumberPoint) : AllNumbered point.fields :=
  (allNumbered_singleton (numbered_of_check rfl)).append <|
    (allNumbered_singleton (numbered_of_check rfl)).append <|
    (point.value.allNumbered_field (by decide) (by decide)).append <|
    (Exemplar.allNumbered_fieldsAll _ (by decide) (by decide)).append <|
    allNumbered_propertyFields _ (by decide) (by decide)

theorem absorb_value (value : Number) (message : Message.NumberPoint) :
    absorb Message.NumberPoint.field message
        [value.field Schema.NumberPoint.double Schema.NumberPoint.int] =
      some { message with value := some value } := by
  cases value <;> rfl

def exemplarList : ListField Message.NumberPoint Message.Exemplar where
  get := (·.exemplars)
  set := fun message exemplars => { message with exemplars }

theorem absorb_exemplars (exemplars : List Exemplar)
    (hlength : (encodeAll (Exemplar.fieldsAll Schema.NumberPoint.exemplars exemplars)).length ≤
      maxPayloadSize) (message : Message.NumberPoint) :
    absorb Message.NumberPoint.field message
        (Exemplar.fieldsAll Schema.NumberPoint.exemplars exemplars) =
      some { message with
        exemplars := message.exemplars ++ exemplars.map Exemplar.message } :=
  Exemplar.absorb_fieldsAll exemplarList (fun _ _ => Option.map_eq_bind.symm) hlength message

def attributeList : ListField Message.NumberPoint Message.KeyValue where
  get := (·.attributes)
  set := fun message attributes => { message with attributes }

theorem absorb_properties (properties : List Attribute)
    (hlength : (encodeAll (propertyFields Schema.NumberPoint.properties properties)).length ≤
      maxPayloadSize) (message : Message.NumberPoint) :
    absorb Message.NumberPoint.field message
        (propertyFields Schema.NumberPoint.properties properties) =
      some { message with
        attributes := message.attributes ++ Message.keyValues properties } :=
  absorb_propertyFields attributeList (fun _ _ => Option.map_eq_bind.symm) hlength message

theorem merge_fields (point : NumberPoint)
    (hlength : (encodeAll point.fields).length ≤ maxPayloadSize) :
    merge Message.NumberPoint.field {} (encodeAll point.fields) = some point.message := by
  rw [merge_eq_absorb _ point.allNumbered_fields hlength]
  simp only [fields, encodeAll_append, List.length_append] at hlength
  have hstart : ∀ message : Message.NumberPoint, absorb Message.NumberPoint.field message
      [.fixed64 Schema.NumberPoint.startTime point.startTime.unixNanos] =
        some { message with startTime := point.startTime.unixNanos } := fun _ => rfl
  have htime : ∀ message : Message.NumberPoint, absorb Message.NumberPoint.field message
      [.fixed64 Schema.NumberPoint.time point.time.unixNanos] =
        some { message with time := point.time.unixNanos } := fun _ => rfl
  have hexemplars := absorb_exemplars point.exemplars (by omega)
  have hproperties := absorb_properties point.properties (by omega)
  simp only [fields, absorb_append, hstart, htime, absorb_value, hexemplars, hproperties,
    Option.bind_some, List.nil_append]
  rfl

end NumberPoint

/-! ## Histograms -/

theorem allNumbered_packedFixed64Fields {number : Nat} (values : List UInt64) (hpos : 0 < number)
    (hnumber : number < 16) : AllNumbered (packedFixed64Fields number values) :=
  AllNumbered.ite allNumbered_nil (allNumbered_singleton ⟨hpos, hnumber⟩)

theorem allNumbered_packedVarintFields {number : Nat} (values : List UInt64) (hpos : 0 < number)
    (hnumber : number < 16) : AllNumbered (packedVarintFields number values) :=
  AllNumbered.ite allNumbered_nil (allNumbered_singleton ⟨hpos, hnumber⟩)

namespace HistogramPoint

theorem allNumbered_fields (point : HistogramPoint) : AllNumbered point.fields :=
  (allNumbered_singleton (numbered_of_check rfl)).append <|
    (allNumbered_singleton (numbered_of_check rfl)).append <|
    (allNumbered_singleton (numbered_of_check rfl)).append <|
    (allNumbered_doubleFields _ (by decide) (by decide)).append <|
    (allNumbered_packedFixed64Fields _ (by decide) (by decide)).append <|
    (allNumbered_packedFixed64Fields _ (by decide) (by decide)).append <|
    (Exemplar.allNumbered_fieldsAll _ (by decide) (by decide)).append <|
    (allNumbered_doubleFields _ (by decide) (by decide)).append <|
    (allNumbered_doubleFields _ (by decide) (by decide)).append <|
    allNumbered_propertyFields _ (by decide) (by decide)

theorem absorb_sum (value : Option Binary64) (message : Message.HistogramPoint) :
    absorb Message.HistogramPoint.field message
        (doubleFields Schema.HistogramPoint.sum value) =
      some { message with sum := value.or message.sum } := by
  cases value <;> rfl

theorem absorb_min (value : Option Binary64) (message : Message.HistogramPoint) :
    absorb Message.HistogramPoint.field message
        (doubleFields Schema.HistogramPoint.min value) =
      some { message with min := value.or message.min } := by
  cases value <;> rfl

theorem absorb_max (value : Option Binary64) (message : Message.HistogramPoint) :
    absorb Message.HistogramPoint.field message
        (doubleFields Schema.HistogramPoint.max value) =
      some { message with max := value.or message.max } := by
  cases value <;> rfl

theorem absorb_counts (values : List UInt64) (message : Message.HistogramPoint) :
    absorb Message.HistogramPoint.field message
        (packedFixed64Fields Schema.HistogramPoint.counts values) =
      some { message with counts := message.counts ++ values } := by
  cases values with
  | nil => simp only [packedFixed64Fields, List.isEmpty_nil, if_true, absorb_nil, List.append_nil]
  | cons value rest =>
      have hpacked := WireValue.packedFixed64?_digits (value :: rest)
      simp only [packedFixed64Fields, List.isEmpty_cons, Bool.false_eq_true, if_false,
        absorb_singleton, toWire, Schema.HistogramPoint.counts, Message.HistogramPoint.field,
        WireValue.repeatedFixed64?, hpacked, Option.bind_eq_bind, Option.bind_some,
        Option.pure_def]

theorem map_mk_map_bits (values : List Binary64) :
    (values.map (·.bits)).map Binary64.mk = values := by
  rw [List.map_map]
  exact List.map_id _

theorem absorb_bounds (values : List Binary64) (message : Message.HistogramPoint) :
    absorb Message.HistogramPoint.field message
        (packedFixed64Fields Schema.HistogramPoint.bounds (values.map (·.bits))) =
      some { message with bounds := message.bounds ++ values } := by
  cases values with
  | nil => simp only [packedFixed64Fields, List.map_nil, List.isEmpty_nil, if_true, absorb_nil,
      List.append_nil]
  | cons value rest =>
      have hpacked := WireValue.packedFixed64?_digits ((value :: rest).map (·.bits))
      have hbits := map_mk_map_bits (value :: rest)
      rw [List.map_cons] at hpacked hbits
      simp only [packedFixed64Fields, List.map_cons, List.isEmpty_cons, Bool.false_eq_true,
        if_false, absorb_singleton, toWire, Schema.HistogramPoint.bounds,
        Message.HistogramPoint.field, WireValue.repeatedFixed64?, hpacked, Option.bind_eq_bind,
        Option.bind_some, Option.pure_def, hbits]

def exemplarList : ListField Message.HistogramPoint Message.Exemplar where
  get := (·.exemplars)
  set := fun message exemplars => { message with exemplars }

theorem absorb_exemplars (exemplars : List Exemplar)
    (hlength : (encodeAll (Exemplar.fieldsAll Schema.HistogramPoint.exemplars exemplars)).length ≤
      maxPayloadSize) (message : Message.HistogramPoint) :
    absorb Message.HistogramPoint.field message
        (Exemplar.fieldsAll Schema.HistogramPoint.exemplars exemplars) =
      some { message with
        exemplars := message.exemplars ++ exemplars.map Exemplar.message } :=
  Exemplar.absorb_fieldsAll exemplarList (fun _ _ => Option.map_eq_bind.symm) hlength message

def attributeList : ListField Message.HistogramPoint Message.KeyValue where
  get := (·.attributes)
  set := fun message attributes => { message with attributes }

theorem absorb_properties (properties : List Attribute)
    (hlength : (encodeAll (propertyFields Schema.HistogramPoint.properties properties)).length ≤
      maxPayloadSize) (message : Message.HistogramPoint) :
    absorb Message.HistogramPoint.field message
        (propertyFields Schema.HistogramPoint.properties properties) =
      some { message with
        attributes := message.attributes ++ Message.keyValues properties } :=
  absorb_propertyFields attributeList (fun _ _ => Option.map_eq_bind.symm) hlength message

theorem merge_fields (point : HistogramPoint)
    (hlength : (encodeAll point.fields).length ≤ maxPayloadSize) :
    merge Message.HistogramPoint.field {} (encodeAll point.fields) = some point.message := by
  rw [merge_eq_absorb _ point.allNumbered_fields hlength]
  simp only [fields, encodeAll_append, List.length_append] at hlength
  have hstart : ∀ message : Message.HistogramPoint, absorb Message.HistogramPoint.field message
      [.fixed64 Schema.HistogramPoint.startTime point.startTime.unixNanos] =
        some { message with startTime := point.startTime.unixNanos } := fun _ => rfl
  have htime : ∀ message : Message.HistogramPoint, absorb Message.HistogramPoint.field message
      [.fixed64 Schema.HistogramPoint.time point.time.unixNanos] =
        some { message with time := point.time.unixNanos } := fun _ => rfl
  have hcount : ∀ message : Message.HistogramPoint, absorb Message.HistogramPoint.field message
      [.fixed64 Schema.HistogramPoint.count point.count] =
        some { message with count := point.count } := fun _ => rfl
  have hexemplars := absorb_exemplars point.exemplars (by omega)
  have hproperties := absorb_properties point.properties (by omega)
  simp only [fields, absorb_append, hstart, htime, hcount, absorb_sum, absorb_counts,
    absorb_bounds, hexemplars, absorb_min, absorb_max, hproperties, Option.bind_some,
    List.nil_append, Option.or_none]
  rfl

end HistogramPoint

/-! ## Exponential histograms -/

namespace ExponentialBuckets

theorem allNumbered_fields (buckets : ExponentialBuckets) : AllNumbered buckets.fields :=
  (AllNumbered.ite allNumbered_nil (allNumbered_singleton (numbered_of_check rfl))).append <|
    allNumbered_packedVarintFields _ (by decide) (by decide)

theorem absorb_offset (offset : Int32) (message : Message.Buckets) (hzero : message.offset = 0) :
    absorb Message.Buckets.field message
        (if offset == 0 then []
          else [.varint Schema.Buckets.offset (Varint.zigzag offset.toInt64)]) =
      some { message with offset := offset } := by
  by_cases hoffset : (offset == 0) = true
  · obtain ⟨earlier, counts⟩ := message
    change earlier = 0 at hzero
    rw [if_pos hoffset, absorb_nil, hzero, eq_of_beq hoffset]
  · rw [if_neg hoffset]
    simp only [absorb_singleton, toWire, Schema.Buckets.offset, Message.Buckets.field,
      WireValue.foldedInt32?_zigzag, Option.bind_eq_bind, Option.bind_some, Option.pure_def]

theorem absorb_counts (values : List UInt64) (message : Message.Buckets) :
    absorb Message.Buckets.field message (packedVarintFields Schema.Buckets.counts values) =
      some { message with counts := message.counts ++ values } := by
  cases values with
  | nil => simp only [packedVarintFields, List.isEmpty_nil, if_true, absorb_nil, List.append_nil]
  | cons value rest =>
      have hpacked := WireValue.packedVarints?_groups (value :: rest) _
        (WireValue.length_le_length_flatMap_groups (value :: rest))
      simp only [packedVarintFields, List.isEmpty_cons, Bool.false_eq_true, if_false,
        absorb_singleton, toWire, Schema.Buckets.counts, Message.Buckets.field,
        WireValue.repeatedVarint?, hpacked, Option.bind_eq_bind, Option.bind_some,
        Option.pure_def]

theorem merge_fields (buckets : ExponentialBuckets)
    (hlength : (encodeAll buckets.fields).length ≤ maxPayloadSize) :
    merge Message.Buckets.field {} (encodeAll buckets.fields) =
      some ⟨buckets.offset, buckets.counts⟩ := by
  rw [merge_eq_absorb _ buckets.allNumbered_fields hlength, fields,
    absorb_append_of (absorb_offset buckets.offset {} rfl), absorb_counts]
  rfl

theorem allNumbered_sideFields {number : Nat} (buckets : ExponentialBuckets) (hpos : 0 < number)
    (hnumber : number < 16) : AllNumbered (sideFields number buckets) :=
  AllNumbered.ite allNumbered_nil (allNumbered_singleton ⟨hpos, hnumber⟩)

theorem isDefault_iff (buckets : ExponentialBuckets) :
    buckets.isDefault = true ↔ buckets.offset = 0 ∧ buckets.counts = [] := by
  rw [isDefault, Bool.and_eq_true, List.isEmpty_iff, beq_iff_eq, and_comm]

theorem message?_eq (buckets : ExponentialBuckets) : buckets.message? =
    if buckets.isDefault then none else some ⟨buckets.offset, buckets.counts⟩ := by
  simp only [message?, isDefault_iff]

/-- Buckets that were not there before arrive as they are. -/
theorem mergeBuckets_fields {number : Nat} {buckets : ExponentialBuckets}
    (hpresent : buckets.isDefault = false)
    (hlength : (encodeAll (sideFields number buckets)).length ≤ maxPayloadSize) :
    Message.mergeBuckets none (.bytes (encodeAll buckets.fields)) = buckets.message? := by
  have hfields : sideFields number buckets = [.message number (encodeAll buckets.fields)] := by
    simp only [sideFields, hpresent, Bool.false_eq_true, if_false]
  rw [hfields] at hlength
  have hcontent := Nat.le_trans (length_content_le_of_mem List.mem_cons_self) hlength
  have hmerge := merge_fields buckets hcontent
  simp only [Message.mergeBuckets, WireValue.message?, WireValue.bytes?, Option.bind_eq_bind,
    Option.bind_some, Option.getD_none, hmerge, message?_eq, hpresent, Bool.false_eq_true,
    if_false]

/-- Either side of a point arrives where it is stored, if nothing was stored there before. -/
theorem absorb_sideFields {α : Type} {step : α → Nat → WireValue → Option α} {number : Nat}
    {buckets : ExponentialBuckets} {message : α} (store : Option Message.Buckets → α)
    (hnone : store none = message)
    (hstep : ∀ content, step message number (.bytes content) =
      (Message.mergeBuckets none (.bytes content)).map (store ∘ some))
    (hlength : (encodeAll (sideFields number buckets)).length ≤ maxPayloadSize) :
    absorb step message (sideFields number buckets) = some (store buckets.message?) := by
  cases hdefault : buckets.isDefault with
  | true => simp only [sideFields, message?_eq, hdefault, if_true, absorb_nil, hnone]
  | false =>
      have hmerge := mergeBuckets_fields hdefault hlength
      simp only [sideFields, message?_eq, hdefault, Bool.false_eq_true, if_false,
        absorb_singleton, toWire, hstep, hmerge, Option.map_some, Function.comp_apply]

end ExponentialBuckets

theorem Binary64.isZero_iff (value : Binary64) :
    value.isZero = true ↔ value.bits = 0 ∨ value.bits = 0x8000000000000000 := by
  have hlt := value.bits.toNat_lt
  have hpositive : (0 : UInt64).toNat = 0 := rfl
  have hnegative : (0x8000000000000000 : UInt64).toNat = 0x8000000000000000 := rfl
  rw [isZero, beq_iff_eq, ← UInt64.toNat_inj, ← UInt64.toNat_inj, hpositive, hnegative]
  omega

namespace ExponentialPoint

open ExponentialBuckets

theorem allNumbered_fields (point : ExponentialPoint) : AllNumbered point.fields :=
  (allNumbered_propertyFields _ (by decide) (by decide)).append <|
    (allNumbered_singleton (numbered_of_check rfl)).append <|
    (allNumbered_singleton (numbered_of_check rfl)).append <|
    (allNumbered_singleton (numbered_of_check rfl)).append <|
    (allNumbered_doubleFields _ (by decide) (by decide)).append <|
    (allNumbered_singleton (numbered_of_check rfl)).append <|
    (allNumbered_singleton (numbered_of_check rfl)).append <|
    (allNumbered_sideFields _ (by decide) (by decide)).append <|
    (allNumbered_sideFields _ (by decide) (by decide)).append <|
    (allNumbered_doubleFields _ (by decide) (by decide)).append <|
    (allNumbered_doubleFields _ (by decide) (by decide)).append <|
    AllNumbered.ite allNumbered_nil (allNumbered_singleton (numbered_of_check rfl))

def attributeList : ListField Message.ExponentialPoint Message.KeyValue where
  get := (·.attributes)
  set := fun message attributes => { message with attributes }

theorem absorb_properties (properties : List Attribute)
    (hlength : (encodeAll (propertyFields Schema.ExponentialPoint.properties properties)).length ≤
      maxPayloadSize) (message : Message.ExponentialPoint) :
    absorb Message.ExponentialPoint.field message
        (propertyFields Schema.ExponentialPoint.properties properties) =
      some { message with
        attributes := message.attributes ++ Message.keyValues properties } :=
  absorb_propertyFields attributeList (fun _ _ => Option.map_eq_bind.symm) hlength message

theorem absorb_sum (value : Option Binary64) (message : Message.ExponentialPoint) :
    absorb Message.ExponentialPoint.field message
        (doubleFields Schema.ExponentialPoint.sum value) =
      some { message with sum := value.or message.sum } := by
  cases value <;> rfl

theorem absorb_min (value : Option Binary64) (message : Message.ExponentialPoint) :
    absorb Message.ExponentialPoint.field message
        (doubleFields Schema.ExponentialPoint.min value) =
      some { message with min := value.or message.min } := by
  cases value <;> rfl

theorem absorb_max (value : Option Binary64) (message : Message.ExponentialPoint) :
    absorb Message.ExponentialPoint.field message
        (doubleFields Schema.ExponentialPoint.max value) =
      some { message with max := value.or message.max } := by
  cases value <;> rfl

theorem absorb_scale (scale : Int32) (message : Message.ExponentialPoint) :
    absorb Message.ExponentialPoint.field message
        [.varint Schema.ExponentialPoint.scale (Varint.zigzag scale.toInt64)] =
      some { message with scale := scale } := by
  simp only [absorb_singleton, toWire, Schema.ExponentialPoint.scale,
    Message.ExponentialPoint.field, WireValue.foldedInt32?_zigzag, Option.bind_eq_bind,
    Option.bind_some, Option.pure_def]

theorem absorb_positive (buckets : ExponentialBuckets)
    (hlength : (encodeAll (sideFields Schema.ExponentialPoint.positive buckets)).length ≤
      maxPayloadSize) (message : Message.ExponentialPoint) (hnone : message.positive = none) :
    absorb Message.ExponentialPoint.field message
        (sideFields Schema.ExponentialPoint.positive buckets) =
      some { message with positive := buckets.message? } := by
  refine absorb_sideFields (fun positive => { message with positive }) ?_ ?_ hlength
  · rw [← hnone]
  · intro content
    simp only [Schema.ExponentialPoint.positive, Message.ExponentialPoint.field, hnone]
    cases Message.mergeBuckets none (.bytes content) <;> rfl

theorem absorb_negative (buckets : ExponentialBuckets)
    (hlength : (encodeAll (sideFields Schema.ExponentialPoint.negative buckets)).length ≤
      maxPayloadSize) (message : Message.ExponentialPoint) (hnone : message.negative = none) :
    absorb Message.ExponentialPoint.field message
        (sideFields Schema.ExponentialPoint.negative buckets) =
      some { message with negative := buckets.message? } := by
  refine absorb_sideFields (fun negative => { message with negative }) ?_ ?_ hlength
  · rw [← hnone]
  · intro content
    simp only [Schema.ExponentialPoint.negative, Message.ExponentialPoint.field, hnone]
    cases Message.mergeBuckets none (.bytes content) <;> rfl

theorem absorb_zeroThreshold (threshold : Binary64) (message : Message.ExponentialPoint)
    (hzero : message.zeroThreshold = .zero) :
    absorb Message.ExponentialPoint.field message
        (if threshold.isZero then []
          else [.fixed64 Schema.ExponentialPoint.zeroThreshold threshold.bits]) =
      some { message with
        zeroThreshold :=
          if threshold.bits = 0 ∨ threshold.bits = 0x8000000000000000 then .zero
          else threshold } := by
  simp only [← Binary64.isZero_iff]
  cases threshold.isZero with
  | true =>
      simp only [if_true, absorb_nil]
      rw [← hzero]
  | false => rfl

theorem merge_fields (point : ExponentialPoint)
    (hlength : (encodeAll point.fields).length ≤ maxPayloadSize) :
    merge Message.ExponentialPoint.field {} (encodeAll point.fields) = some point.message := by
  rw [merge_eq_absorb _ point.allNumbered_fields hlength]
  simp only [fields, encodeAll_append, List.length_append] at hlength
  have hproperties := absorb_properties point.properties (by omega)
  have hstart : ∀ message : Message.ExponentialPoint,
      absorb Message.ExponentialPoint.field message
        [.fixed64 Schema.ExponentialPoint.startTime point.startTime.unixNanos] =
          some { message with startTime := point.startTime.unixNanos } := fun _ => rfl
  have htime : ∀ message : Message.ExponentialPoint,
      absorb Message.ExponentialPoint.field message
        [.fixed64 Schema.ExponentialPoint.time point.time.unixNanos] =
          some { message with time := point.time.unixNanos } := fun _ => rfl
  have hcount : ∀ message : Message.ExponentialPoint,
      absorb Message.ExponentialPoint.field message
        [.fixed64 Schema.ExponentialPoint.count point.count] =
          some { message with count := point.count } := fun _ => rfl
  have hzeroCount : ∀ message : Message.ExponentialPoint,
      absorb Message.ExponentialPoint.field message
        [.fixed64 Schema.ExponentialPoint.zeroCount point.zeroCount] =
          some { message with zeroCount := point.zeroCount } := fun _ => rfl
  have hpositive := absorb_positive point.positive (by omega)
  have hnegative := absorb_negative point.negative (by omega)
  simp only [fields, absorb_append, hproperties, hstart, htime, hcount, absorb_sum, absorb_scale,
    hzeroCount, hpositive, hnegative, absorb_min, absorb_max, absorb_zeroThreshold,
    Option.bind_some, List.nil_append, Option.or_none]
  rfl

end ExponentialPoint

end TelemetryExport
