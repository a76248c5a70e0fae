import TelemetryExport.Proofs.Protobuf.Merge
import TelemetryExport.Buffer.SlotStack

/-! # Open messages

While messages are open, each of them stands at the end of the one around it. Its
header has its place, but holds whatever was there before or what was right some
writes ago. `content` is what the bytes stand for once every header is right, and
`Laid` says that bytes hold the fields written so far, with anything in the places
of the headers.

Writing goes into the innermost message. Opening one more puts a message field at
the end of the innermost, and closing changes nothing of what the bytes stand for.
-/

namespace TelemetryExport

/-- An open message: which field of its parent it is, and its fields so far. -/
structure OpenMessage where
  number : Nat
  fields : List WrittenField

namespace OpenMessage

open WrittenField

/-- Fields followed by the open message at their end, with the messages open in it. -/
def content : List WrittenField → List OpenMessage → List WrittenField
  | fields, [] => fields
  | fields, inner :: deeper =>
      fields ++ [.message inner.number (encodeAll (content inner.fields deeper))]

/-- More fields at the end of the innermost message. -/
def grow (more : List WrittenField) :
    List WrittenField → List OpenMessage → List WrittenField × List OpenMessage
  | fields, [] => (fields ++ more, [])
  | fields, inner :: deeper =>
      let grown := grow more inner.fields deeper
      (fields, { inner with fields := grown.1 } :: grown.2)

/-- The first `depth` messages stay open, the others become fields. -/
def close : Nat → List WrittenField → List OpenMessage → List WrittenField × List OpenMessage
  | 0, fields, opens => (content fields opens, [])
  | _ + 1, fields, [] => (fields, [])
  | depth + 1, fields, inner :: deeper =>
      let closed := close depth inner.fields deeper
      (fields, { inner with fields := closed.1 } :: closed.2)

/-- The bytes hold the fields and the messages open at their end. -/
inductive Laid : List WrittenField → List OpenMessage → List UInt8 → Prop
  | innermost (fields : List WrittenField) : Laid fields [] (encodeAll fields)
  | nested (fields : List WrittenField) {inner : OpenMessage} {deeper : List OpenMessage}
      {header bytes : List UInt8} (hheader : header.length = Slot.messageWidth)
      (hbytes : Laid inner.fields deeper bytes) :
      Laid fields (inner :: deeper) (encodeAll fields ++ (header ++ bytes))

/-- Where the headers of the open messages are, if the fields start at `start`. -/
def slotsFrom : Nat → List WrittenField → List OpenMessage → List Slot
  | _, _, [] => []
  | start, fields, inner :: deeper =>
      let header := start + (encodeAll fields).length
      ⟨header, header + Slot.messageWidth⟩
        :: slotsFrom (header + Slot.messageWidth) inner.fields deeper

/-- Every key is a single byte. -/
def AllNumberedIn (fields : List WrittenField) (opens : List OpenMessage) : Prop :=
  AllNumbered fields ∧
    ∀ inner ∈ opens, AllNumbered inner.fields ∧ 0 < inner.number ∧ inner.number < 16

/-! ## What the bytes stand for -/

@[simp] theorem content_cons (fields : List WrittenField) (inner : OpenMessage)
    (deeper : List OpenMessage) :
    content fields (inner :: deeper) =
      fields ++ [.message inner.number (encodeAll (content inner.fields deeper))] := rfl

/-- A message that is opened is a field at the end of the innermost one. -/
theorem content_grow_message (number : Nat) (fields : List WrittenField) (outer : List WrittenField)
    (opens : List OpenMessage) :
    content (grow [.message number (encodeAll fields)] outer opens).1
        (grow [.message number (encodeAll fields)] outer opens).2 =
      content outer (opens ++ [⟨number, fields⟩]) := by
  induction opens generalizing outer with
  | nil => rfl
  | cons inner deeper ih =>
      rw [grow, List.cons_append, content_cons, content_cons, ← ih inner.fields]

/-- Closing messages whose headers are right changes nothing. -/
theorem content_close (depth : Nat) (fields : List WrittenField) (opens : List OpenMessage) :
    content (close depth fields opens).1 (close depth fields opens).2 = content fields opens := by
  induction depth generalizing fields opens with
  | zero => rfl
  | succ depth ih =>
      cases opens with
      | nil => rfl
      | cons inner deeper =>
          rw [close, content_cons, content_cons, ih inner.fields deeper]

/-- Closing messages that are not open changes nothing. -/
theorem close_of_le {depth : Nat} (fields : List WrittenField) {opens : List OpenMessage}
    (hdepth : opens.length ≤ depth) : close depth fields opens = (fields, opens) := by
  induction opens generalizing depth fields with
  | nil => cases depth <;> rfl
  | cons inner deeper ih =>
      cases depth with
      | zero => exact absurd hdepth (Nat.not_succ_le_zero _)
      | succ depth => rw [close, ih inner.fields (Nat.le_of_succ_le_succ hdepth)]

theorem length_grow (more fields : List WrittenField) (opens : List OpenMessage) :
    (grow more fields opens).2.length = opens.length := by
  induction opens generalizing fields with
  | nil => rfl
  | cons inner deeper ih => rw [grow, List.length_cons, List.length_cons, ih inner.fields]

theorem length_close (depth : Nat) (fields : List WrittenField) (opens : List OpenMessage) :
    (close depth fields opens).2.length = min depth opens.length := by
  induction depth generalizing fields opens with
  | zero => rw [close, List.length_nil, Nat.zero_min]
  | succ depth ih =>
      cases opens with
      | nil => rfl
      | cons inner deeper =>
          rw [close, List.length_cons, List.length_cons, ih inner.fields deeper]
          omega

theorem allNumbered_content {fields : List WrittenField} {opens : List OpenMessage}
    (hnumbered : AllNumberedIn fields opens) : AllNumbered (content fields opens) := by
  cases opens with
  | nil => exact hnumbered.1
  | cons inner deeper =>
      exact hnumbered.1.append
        (allNumbered_singleton (hnumbered.2 inner List.mem_cons_self).2)

theorem allNumberedIn_nil {fields : List WrittenField} (hfields : AllNumbered fields) :
    AllNumberedIn fields [] :=
  ⟨hfields, fun _ hinner => absurd hinner List.not_mem_nil⟩

theorem AllNumberedIn.cons {fields : List WrittenField} {inner : OpenMessage}
    {deeper : List OpenMessage} (hdeeper : AllNumberedIn inner.fields deeper)
    (hfields : AllNumbered fields) (hnumber : 0 < inner.number ∧ inner.number < 16) :
    AllNumberedIn fields (inner :: deeper) := by
  refine ⟨hfields, fun other hother => ?_⟩
  rcases List.mem_cons.mp hother with rfl | hmem
  · exact ⟨hdeeper.1, hnumber⟩
  · exact hdeeper.2 other hmem

theorem AllNumberedIn.tail {fields : List WrittenField} {inner : OpenMessage}
    {deeper : List OpenMessage} (hnumbered : AllNumberedIn fields (inner :: deeper)) :
    AllNumberedIn inner.fields deeper :=
  ⟨(hnumbered.2 inner List.mem_cons_self).1,
    fun other hother => hnumbered.2 other (List.mem_cons_of_mem _ hother)⟩

theorem AllNumberedIn.opened {fields more : List WrittenField} {opens : List OpenMessage}
    {number : Nat} (hnumbered : AllNumberedIn fields opens) (hmore : AllNumbered more)
    (hnumber : 0 < number ∧ number < 16) :
    AllNumberedIn fields (opens ++ [⟨number, more⟩]) := by
  refine ⟨hnumbered.1, fun inner hinner => ?_⟩
  rcases List.mem_append.mp hinner with hmem | hmem
  · exact hnumbered.2 inner hmem
  · rw [List.mem_singleton.mp hmem]
    exact ⟨hmore, hnumber⟩

theorem AllNumberedIn.grow {more : List WrittenField} (hmore : AllNumbered more)
    {fields : List WrittenField} {opens : List OpenMessage}
    (hnumbered : AllNumberedIn fields opens) :
    AllNumberedIn (grow more fields opens).1 (grow more fields opens).2 := by
  induction opens generalizing fields with
  | nil => exact allNumberedIn_nil (hnumbered.1.append hmore)
  | cons inner deeper ih =>
      exact .cons (ih hnumbered.tail) hnumbered.1 (hnumbered.2 inner List.mem_cons_self).2

theorem AllNumberedIn.close (depth : Nat) {fields : List WrittenField}
    {opens : List OpenMessage} (hnumbered : AllNumberedIn fields opens) :
    AllNumberedIn (close depth fields opens).1 (close depth fields opens).2 := by
  induction depth generalizing fields opens with
  | zero => exact allNumberedIn_nil (allNumbered_content hnumbered)
  | succ depth ih =>
      cases opens with
      | nil => exact hnumbered
      | cons inner deeper =>
          exact .cons (ih hnumbered.tail) hnumbered.1 (hnumbered.2 inner List.mem_cons_self).2

/-- A nested message is no longer than what it is nested in. -/
theorem length_content_tail_le (fields : List WrittenField) (inner : OpenMessage)
    (deeper : List OpenMessage) :
    (encodeAll (content inner.fields deeper)).length ≤
      (encodeAll (content fields (inner :: deeper))).length := by
  have hmem : WrittenField.message inner.number (encodeAll (content inner.fields deeper)) ∈
      content fields (inner :: deeper) :=
    List.mem_append_right _ List.mem_cons_self
  exact length_content_le_of_mem hmem

/-! ## How the bytes lie -/

theorem length_encodeAll_append_message (fields : List WrittenField) (number : Nat)
    (bytes : List UInt8) :
    (encodeAll (fields ++ [.message number bytes])).length =
      (encodeAll fields).length + (Slot.messageWidth + bytes.length) := by
  simp [encode]

/-- Stale headers are as long as right ones. -/
theorem Laid.length_eq {fields : List WrittenField} {opens : List OpenMessage}
    {bytes : List UInt8} (hlaid : Laid fields opens bytes) :
    bytes.length = (encodeAll (content fields opens)).length := by
  induction hlaid with
  | innermost fields => rfl
  | nested fields hheader _ ih =>
      rw [content_cons, length_encodeAll_append_message, List.length_append, List.length_append,
        hheader, ih]

theorem laid_content (fields : List WrittenField) (opens : List OpenMessage) :
    Laid fields opens (encodeAll (content fields opens)) := by
  induction opens generalizing fields with
  | nil => exact Laid.innermost fields
  | cons inner deeper ih =>
      rw [content_cons, encodeAll_append, encodeAll_singleton, encode]
      exact Laid.nested fields rfl (ih inner.fields)

/-- Bytes written at the end go into the innermost message. -/
theorem Laid.grow (more : List WrittenField) {fields : List WrittenField}
    {opens : List OpenMessage} {bytes : List UInt8} (hlaid : Laid fields opens bytes) :
    Laid (grow more fields opens).1 (grow more fields opens).2 (bytes ++ encodeAll more) := by
  induction hlaid with
  | innermost fields =>
      rw [← encodeAll_append]
      exact Laid.innermost _
  | nested fields hheader _ ih =>
      rw [List.append_assoc, List.append_assoc]
      exact Laid.nested fields hheader ih

theorem slotsFrom_grow (more : List WrittenField) (start : Nat) (fields : List WrittenField)
    (opens : List OpenMessage) :
    slotsFrom start (OpenMessage.grow more fields opens).1 (OpenMessage.grow more fields opens).2 =
      slotsFrom start fields opens := by
  induction opens generalizing start fields with
  | nil => rfl
  | cons inner deeper ih =>
      rw [OpenMessage.grow, slotsFrom, slotsFrom, ih]

/-- A header and fields written at the end are a message opened in the innermost one. -/
theorem Laid.opened {number : Nat} {header : List UInt8} (more : List WrittenField)
    (hheader : header.length = Slot.messageWidth) {fields : List WrittenField}
    {opens : List OpenMessage} {bytes : List UInt8} (hlaid : Laid fields opens bytes) :
    Laid fields (opens ++ [⟨number, more⟩]) (bytes ++ (header ++ encodeAll more)) := by
  induction hlaid with
  | innermost fields => exact Laid.nested fields hheader (Laid.innermost more)
  | nested fields hinner _ ih =>
      rw [List.append_assoc, List.append_assoc]
      exact Laid.nested fields hinner ih

theorem slotsFrom_opened (opened : OpenMessage) (start : Nat) (fields : List WrittenField)
    (opens : List OpenMessage) :
    slotsFrom start fields (opens ++ [opened]) =
      slotsFrom start fields opens ++
        [⟨start + (encodeAll (content fields opens)).length,
          start + (encodeAll (content fields opens)).length + Slot.messageWidth⟩] := by
  induction opens generalizing start fields with
  | nil => rfl
  | cons inner deeper ih =>
      rw [List.cons_append, slotsFrom, slotsFrom, ih, content_cons,
        length_encodeAll_append_message]
      simp only [List.cons_append, Nat.add_assoc]

theorem length_slotsFrom (start : Nat) (fields : List WrittenField) (opens : List OpenMessage) :
    (slotsFrom start fields opens).length = opens.length := by
  induction opens generalizing start fields with
  | nil => rfl
  | cons inner deeper ih => rw [slotsFrom, List.length_cons, List.length_cons, ih]

theorem slotsFrom_close (depth start : Nat) (fields : List WrittenField)
    (opens : List OpenMessage) :
    slotsFrom start (OpenMessage.close depth fields opens).1
        (OpenMessage.close depth fields opens).2 =
      (slotsFrom start fields opens).take depth := by
  induction depth generalizing start fields opens with
  | zero =>
      rw [List.take_zero]
      rfl
  | succ depth ih =>
      cases opens with
      | nil => rfl
      | cons inner deeper =>
          rw [OpenMessage.close, slotsFrom, slotsFrom, List.take_succ_cons, ih]

end OpenMessage

end TelemetryExport
