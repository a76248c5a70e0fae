import TelemetryExport.Proofs.Protobuf.Wire

/-! # Taking fields into messages

Reading the content of a message and taking its fields one by one into it is, for
content that encodes a list of fields, to absorb that list. Absorbing follows the
list: what comes first is absorbed first, and a repeated field is collected.

A content that grows, and the messages that grow with it, are related by `Grows`:
whatever the shorter list makes of a message, the longer one makes of it what a
given change makes of that. A change of a nested message lifts to the messages
around it.
-/

namespace TelemetryExport

namespace WrittenField

/-- Every key is a single byte. -/
def AllNumbered (fields : List WrittenField) : Prop := ∀ field ∈ fields, field.Numbered

theorem allNumbered_nil : AllNumbered [] := fun _ hmem => absurd hmem List.not_mem_nil

theorem AllNumbered.cons {field : WrittenField} {fields : List WrittenField}
    (hfield : field.Numbered) (hfields : AllNumbered fields) : AllNumbered (field :: fields) := by
  intro other hother
  rcases List.mem_cons.mp hother with rfl | hmem
  · exact hfield
  · exact hfields other hmem

/-- For a field whose number is a literal the check is closed, whatever its value. -/
theorem numbered_of_check {field : WrittenField}
    (hcheck : (decide (0 < field.number) && decide (field.number < 16)) = true) :
    field.Numbered := by
  rw [Bool.and_eq_true, decide_eq_true_iff, decide_eq_true_iff] at hcheck
  exact hcheck

theorem allNumbered_singleton {field : WrittenField} (hfield : field.Numbered) :
    AllNumbered [field] :=
  allNumbered_nil.cons hfield

theorem AllNumbered.append {fields others : List WrittenField} (hfields : AllNumbered fields)
    (hothers : AllNumbered others) : AllNumbered (fields ++ others) := by
  intro field hfield
  rcases List.mem_append.mp hfield with hmem | hmem
  · exact hfields field hmem
  · exact hothers field hmem

/-- Repeated messages are numbered like each of them. -/
theorem allNumbered_messages {ι : Type} {number : Nat} (content : ι → List UInt8)
    (items : List ι) (hpos : 0 < number) (hnumber : number < 16) :
    AllNumbered (items.map fun item => .message number (content item)) := by
  intro field hfield
  obtain ⟨item, -, rfl⟩ := List.mem_map.mp hfield
  exact ⟨hpos, hnumber⟩

theorem AllNumbered.ite {fields others : List WrittenField} {condition : Prop}
    [Decidable condition] (hfields : AllNumbered fields) (hothers : AllNumbered others) :
    AllNumbered (if condition then fields else others) := by
  split
  · exact hfields
  · exact hothers

end WrittenField

namespace Wire

open WrittenField

variable {α β ι : Type}

/-- Takes fields one by one into a message. -/
def absorb (step : α → Nat → WireValue → Option α) (message : α) (fields : List WrittenField) :
    Option α :=
  fields.foldlM (fun message field => step message field.toWire.1 field.toWire.2) message

variable {step : α → Nat → WireValue → Option α}

theorem merge_eq_absorb {fields : List WrittenField} (message : α)
    (hnumbered : AllNumbered fields) (hlength : (encodeAll fields).length ≤ maxPayloadSize) :
    merge step message (encodeAll fields) = absorb step message fields :=
  merge_encodeAll step message hnumbered hlength

@[simp] theorem absorb_nil (message : α) : absorb step message [] = some message := rfl

theorem absorb_cons (message : α) (field : WrittenField) (fields : List WrittenField) :
    absorb step message (field :: fields) =
      (step message field.toWire.1 field.toWire.2).bind fun next => absorb step next fields :=
  List.foldlM_cons

theorem absorb_singleton (message : α) (field : WrittenField) :
    absorb step message [field] = step message field.toWire.1 field.toWire.2 := by
  rw [absorb_cons]
  exact Option.bind_fun_some _

theorem absorb_append (message : α) (fields others : List WrittenField) :
    absorb step message (fields ++ others) =
      (absorb step message fields).bind fun next => absorb step next others :=
  List.foldlM_append

/-- Absorbing in two parts, the first of which is known. -/
theorem absorb_append_of {message next : α} {fields : List WrittenField}
    (hfields : absorb step message fields = some next) (others : List WrittenField) :
    absorb step message (fields ++ others) = absorb step next others := by
  rw [absorb_append, hfields, Option.bind_some]

/-! ### Lists in messages -/

/-- A list that is part of a message. -/
structure ListField (α β : Type) where
  get : α → List β
  set : α → List β → α
  set_get : ∀ message, set message (get message) = message := by intros; rfl
  get_set : ∀ message items, get (set message items) = items := by intros; rfl
  set_set : ∀ message first second,
    set (set message first) second = set message second := by intros; rfl

namespace ListField

/-- The message with more items at the end of its list. -/
def extend (list : ListField α β) (message : α) (more : List β) : α :=
  list.set message (list.get message ++ more)

variable (list : ListField α β) (message : α)

theorem extend_nil : list.extend message [] = message := by
  rw [extend, List.append_nil, list.set_get]

theorem extend_extend (first second : List β) :
    list.extend (list.extend message first) second = list.extend message (first ++ second) := by
  rw [extend, extend, extend, list.get_set, list.set_set, List.append_assoc]

end ListField

/-- A repeated message is collected in order. -/
theorem absorb_messages (list : ListField α β) {number : Nat} {content : ι → List UInt8}
    {value : ι → β} {items : List ι}
    (hstep : ∀ item ∈ items, ∀ message,
      step message number (.bytes (content item)) = some (list.extend message [value item]))
    (message : α) :
    absorb step message (items.map fun item => .message number (content item)) =
      some (list.extend message (items.map value)) := by
  induction items generalizing message with
  | nil => rw [List.map_nil, List.map_nil, absorb_nil, list.extend_nil]
  | cons item rest ih =>
      rw [List.map_cons, absorb_cons]
      simp only [toWire]
      rw [hstep item List.mem_cons_self, Option.bind_some,
        ih fun other hother => hstep other (List.mem_cons_of_mem _ hother), list.extend_extend,
        List.singleton_append, List.map_cons]

/-- Fields that end in a nested message were absorbed before it, and it was read. -/
theorem absorb_concat_message {inner : β → Nat → WireValue → Option β} {number : Nat}
    {start : α → β} {attach : α → β → α}
    (hstep : ∀ message bytes, step message number (.bytes bytes) =
      (merge inner (start message) bytes).map (attach message))
    {fields : List WrittenField} {bytes : List UInt8} {first result : α}
    (habsorb : absorb step first (fields ++ [.message number bytes]) = some result) :
    ∃ message nested, absorb step first fields = some message ∧
      merge inner (start message) bytes = some nested ∧ attach message nested = result := by
  rw [absorb_append] at habsorb
  obtain ⟨message, hmessage, hfield⟩ := Option.bind_eq_some_iff.mp habsorb
  rw [absorb_singleton] at hfield
  simp only [toWire, hstep] at hfield
  obtain ⟨nested, hnested, hattach⟩ := Option.map_eq_some_iff.mp hfield
  exact ⟨message, nested, hmessage, hnested, hattach⟩

/-! ## Growing messages -/

/-- Whatever `fields` make of a message, the longer `grown` make of it what `change`
makes of that. -/
structure Grows (step : α → Nat → WireValue → Option α) (fields grown : List WrittenField)
    (change : α → Option α) : Prop where
  numbered : AllNumbered fields
  numbered_grown : AllNumbered grown
  length_le : (encodeAll fields).length ≤ (encodeAll grown).length
  absorbs : ∀ start before after, absorb step start fields = some before →
    change before = some after → absorb step start grown = some after

/-- More fields at the end. -/
theorem grows_append {fields others : List WrittenField} {change : α → Option α}
    (hfields : AllNumbered fields) (hothers : AllNumbered others)
    (hchange : ∀ before after, change before = some after →
      absorb step before others = some after) :
    Grows step fields (fields ++ others) change where
  numbered := hfields
  numbered_grown := hfields.append hothers
  length_le := by
    rw [encodeAll_append, List.length_append]
    exact Nat.le_add_right _ _
  absorbs := by
    intro start before after hbefore hafter
    rw [absorb_append_of hbefore]
    exact hchange before after hafter

/-- A change of the nested message at the end is one of the message around it. -/
theorem Grows.nested {inner : β → Nat → WireValue → Option β} {number : Nat} {start : α → β}
    {attach : α → β → α} {change : α → Option α} {innerChange : β → Option β}
    {content grown : List WrittenField} (hgrows : Grows inner content grown innerChange)
    (hstep : ∀ message bytes, step message number (.bytes bytes) =
      (merge inner (start message) bytes).map (attach message))
    (hchange : ∀ message nested,
      change (attach message nested) = (innerChange nested).map (attach message))
    (hnumber : 0 < number ∧ number < 16) {fields : List WrittenField}
    (hfields : AllNumbered fields) (hlength : (encodeAll grown).length ≤ maxPayloadSize) :
    Grows step (fields ++ [.message number (encodeAll content)])
      (fields ++ [.message number (encodeAll grown)]) change where
  numbered := hfields.append (allNumbered_singleton hnumber)
  numbered_grown := hfields.append (allNumbered_singleton hnumber)
  length_le := by
    have hle := hgrows.length_le
    simp only [encodeAll_append, encodeAll_singleton, encode, List.length_append,
      length_messageHeader]
    omega
  absorbs := by
    intro first before after hbefore hafter
    have hshort := Nat.le_trans hgrows.length_le hlength
    -- The message before was read with the nested one as it was, and so is the one after.
    obtain ⟨message, nested, hmessage, hnested, rfl⟩ := absorb_concat_message hstep hbefore
    rw [merge_eq_absorb _ hgrows.numbered hshort] at hnested
    rw [hchange] at hafter
    obtain ⟨changed, hchanged, rfl⟩ := Option.map_eq_some_iff.mp hafter
    rw [absorb_append_of hmessage, absorb_singleton]
    simp only [toWire, hstep]
    rw [merge_eq_absorb _ hgrows.numbered_grown hlength,
      hgrows.absorbs _ _ _ hnested hchanged, Option.map_some]

end Wire

end TelemetryExport
