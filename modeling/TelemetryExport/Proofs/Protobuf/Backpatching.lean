import TelemetryExport.Proofs.Protobuf.MessageTree
import TelemetryExport.Proofs.Protobuf.Writers

/-! # Encoding in one pass

A tree of messages can be written in one pass: the header of a message is reserved when
the message is entered, and filled in when it is left. Meanwhile the headers of the
messages that are open may be filled in with anything, at any time and any number of
times. Whatever they held, the bytes are in the end those of the encoding in two passes.

What lies in a buffer on the way is described by layers: the bytes outside of all open
messages, and for each open message the bytes of its content so far. The layers say
nothing of the headers, so that filling one in does not change them.
-/

namespace TelemetryExport

open Encode

/-! ## Writing step by step -/

/-- A step of writing a tree of messages. -/
inductive WriteStep where
  /-- Appends the bytes of a leaf. -/
  | leaf (bytes : List UInt8)
  /-- Reserves the header of a message with this field number. -/
  | enter (number : Nat)
  /-- Fills in the header of the open message that has so many open messages inside it, as
  that of a field with any number. -/
  | patch (depth number : Nat)
  /-- Fills in the header of the innermost open message, which is complete. -/
  | leave
  deriving DecidableEq, Repr

namespace WriteStep

def isPatch : WriteStep → Bool
  | patch .. => true
  | _ => false

/-- How many bytes the step adds. -/
def cost : WriteStep → Nat
  | leaf bytes => bytes.length
  | enter _ => Slot.messageWidth
  | patch .. => 0
  | leave => 0

/-- Takes the step, given the headers and the field numbers of the open messages, the
innermost first. -/
def run (opens : List (Slot × Nat)) : WriteStep → Encode (List (Slot × Nat))
  | leaf bytes => do
      Encode.writeList bytes
      return opens
  | enter number => do
      let slot ← Encode.reserveMessage
      return (slot, number) :: opens
  | patch depth number =>
      match opens[depth]? with
      | some (slot, _) => do
          Encode.patchMessage slot number
          return opens
      | none => return opens
  | leave =>
      match opens with
      | (slot, number) :: outer => do
          Encode.patchMessage slot number
          return outer
      | [] => return []

/-- How many bytes the steps add. -/
def totalCost (steps : List WriteStep) : Nat :=
  steps.foldr (fun step total => step.cost + total) 0

end WriteStep

/-- The steps that write the tree, without any patch on the way. -/
def MessageTree.steps : MessageTree Nat (List UInt8) → List WriteStep
  | nil => []
  | leaf bytes rest => .leaf bytes :: rest.steps
  | node number content rest => .enter number :: (content.steps ++ .leave :: rest.steps)

namespace WriteStep

theorem totalCost_cons (step : WriteStep) (steps : List WriteStep) :
    totalCost (step :: steps) = step.cost + totalCost steps := rfl

theorem totalCost_append (steps others : List WriteStep) :
    totalCost (steps ++ others) = totalCost steps + totalCost others := by
  induction steps with
  | nil => exact (Nat.zero_add _).symm
  | cons step rest ih => rw [List.cons_append, totalCost_cons, ih, totalCost_cons, Nat.add_assoc]

theorem totalCost_filter (steps : List WriteStep) :
    totalCost (steps.filter (!·.isPatch)) = totalCost steps := by
  induction steps with
  | nil => rfl
  | cons step rest ih =>
      cases step with
      | patch depth number =>
          rw [List.filter_cons_of_neg (by simp [isPatch]), ih, totalCost_cons, cost, Nat.zero_add]
      | leaf bytes => rw [List.filter_cons_of_pos rfl, totalCost_cons, ih, totalCost_cons]
      | enter number => rw [List.filter_cons_of_pos rfl, totalCost_cons, ih, totalCost_cons]
      | leave => rw [List.filter_cons_of_pos rfl, totalCost_cons, ih, totalCost_cons]

theorem totalCost_steps (tree : MessageTree Nat (List UInt8)) :
    totalCost tree.steps = tree.encodedLength := by
  induction tree with
  | nil => rfl
  | leaf bytes rest ih =>
      rw [MessageTree.steps, totalCost_cons, ih, cost, MessageTree.encodedLength]
  | node number content rest ihContent ihRest =>
      rw [MessageTree.steps, totalCost_cons, totalCost_append, totalCost_cons, ihContent, ihRest,
        cost, cost, MessageTree.encodedLength, Slot.messageWidth]
      omega

end WriteStep

/-! ## Layers -/

/-- What is written while messages are open. -/
structure Layers where
  /-- The bytes outside of all open messages. -/
  written : List UInt8
  /-- The field numbers of the open messages and the bytes of their contents so far, the
  innermost first. -/
  opens : List (Nat × List UInt8)

namespace Layers

/-- More bytes at the end. -/
def put (bytes : List UInt8) : Layers → Layers
  | ⟨written, []⟩ => ⟨written ++ bytes, []⟩
  | ⟨written, (number, content) :: outer⟩ => ⟨written, (number, content ++ bytes) :: outer⟩

/-- What a step makes of the layers. A message that is left becomes content of the one
around it. -/
def after : Layers → WriteStep → Layers
  | layers, .leaf bytes => layers.put bytes
  | ⟨written, opens⟩, .enter number => ⟨written, (number, []) :: opens⟩
  | layers, .patch .. => layers
  | ⟨written, (number, content) :: outer⟩, .leave =>
      put (WrittenField.message number content).encode ⟨written, outer⟩
  | ⟨written, []⟩, .leave => ⟨written, []⟩

theorem put_nil (layers : Layers) : layers.put [] = layers := by
  obtain ⟨written, opens⟩ := layers
  cases opens with
  | nil => rw [put, List.append_nil]
  | cons inner outer => rw [put, List.append_nil]

theorem put_put (first second : List UInt8) (layers : Layers) :
    (layers.put first).put second = layers.put (first ++ second) := by
  obtain ⟨written, opens⟩ := layers
  cases opens with
  | nil => rw [put, put, put, List.append_assoc]
  | cons inner outer => rw [put, put, put, List.append_assoc]

theorem prefix_put (bytes : List UInt8) (layers : Layers) :
    layers.written <+: (layers.put bytes).written := by
  obtain ⟨written, opens⟩ := layers
  cases opens with
  | nil => exact List.prefix_append _ _
  | cons inner outer => exact List.prefix_rfl

/-- Nothing outside of the open messages is taken back. -/
theorem prefix_after (layers : Layers) (step : WriteStep) :
    layers.written <+: (layers.after step).written := by
  cases step with
  | leaf bytes => exact prefix_put bytes layers
  | enter number => exact List.prefix_rfl
  | patch depth number => exact List.prefix_rfl
  | leave =>
      obtain ⟨written, opens⟩ := layers
      cases opens with
      | nil => exact List.prefix_rfl
      | cons inner outer => exact prefix_put _ ⟨written, outer⟩

theorem foldl_filter (steps : List WriteStep) (layers : Layers) :
    (steps.filter (!·.isPatch)).foldl after layers = steps.foldl after layers := by
  induction steps generalizing layers with
  | nil => rfl
  | cons step rest ih =>
      cases step with
      | patch depth number =>
          rw [List.filter_cons_of_neg (by simp [WriteStep.isPatch]), ih]
          rfl
      | leaf bytes => exact ih _
      | enter number => exact ih _
      | leave => exact ih _

/-- The steps of a tree put its encoding at the end. -/
theorem foldl_steps (tree : MessageTree Nat (List UInt8)) (layers : Layers) :
    tree.steps.foldl after layers = layers.put tree.encode := by
  induction tree generalizing layers with
  | nil => exact layers.put_nil.symm
  | leaf bytes rest ih =>
      rw [MessageTree.steps, List.foldl_cons, ih, after, put_put, MessageTree.encode]
  | node number content rest ihContent ihRest =>
      obtain ⟨written, opens⟩ := layers
      rw [MessageTree.steps, List.foldl_cons, List.foldl_append, after, ihContent,
        List.foldl_cons, ihRest, put, after, put_put, List.nil_append, MessageTree.encode_node]

end Layers

/-! ## What lies in a buffer -/

/-- The bytes hold the layers, with anything in the places of the headers. Beside the layers
stand the headers of the open messages, as the writer knows them. -/
inductive Stacked : Layers → List (Slot × Nat) → List UInt8 → Prop
  | outside (written : List UInt8) : Stacked ⟨written, []⟩ [] written
  | inside {written : List UInt8} {opens : List (Nat × List UInt8)} {slots : List (Slot × Nat)}
      {before header : List UInt8} (number : Nat) (content : List UInt8)
      (hbefore : Stacked ⟨written, opens⟩ slots before)
      (hheader : header.length = Slot.messageWidth) :
      Stacked ⟨written, (number, content) :: opens⟩
        ((⟨before.length, before.length + Slot.messageWidth⟩, number) :: slots)
        (before ++ (header ++ content))

namespace Stacked

variable {layers : Layers} {slots : List (Slot × Nat)} {bytes : List UInt8}

theorem prefix_bytes (hstacked : Stacked layers slots bytes) : layers.written <+: bytes := by
  induction hstacked with
  | outside written => exact List.prefix_rfl
  | inside number content hbefore hheader ih => exact ih.trans (List.prefix_append _ _)

theorem put (hstacked : Stacked layers slots bytes) (more : List UInt8) :
    Stacked (layers.put more) slots (bytes ++ more) := by
  cases hstacked with
  | outside written => exact .outside _
  | inside number content hbefore hheader =>
      rw [List.append_assoc, List.append_assoc]
      exact .inside number (content ++ more) hbefore hheader

/-- The place of an open message's header. Whatever is put there, the layers are the same. -/
structure HeaderAt (layers : Layers) (slots : List (Slot × Nat)) (bytes : List UInt8)
    (slot : Slot) (before header inside : List UInt8) : Prop where
  bytes_eq : bytes = before ++ (header ++ inside)
  length_header : header.length = Slot.messageWidth
  slot_eq : slot = ⟨before.length, before.length + Slot.messageWidth⟩
  replaced : ∀ other : List UInt8, other.length = Slot.messageWidth →
    Stacked layers slots (before ++ (other ++ inside))

theorem exists_headerAt (hstacked : Stacked layers slots bytes) {depth : Nat} {slot : Slot}
    {number : Nat} (hslot : slots[depth]? = some (slot, number)) :
    ∃ before header inside, HeaderAt layers slots bytes slot before header inside := by
  induction hstacked generalizing depth with
  | outside written => cases hslot
  | @inside written opens slots before header number content hbefore hheader ih =>
      cases depth with
      | zero =>
          cases hslot
          exact ⟨before, header, content, rfl, hheader, rfl,
            fun other hother => .inside number content hbefore hother⟩
      | succ depth =>
          obtain ⟨first, found, inside, rfl, hfound, rfl, hreplaced⟩ := ih hslot
          -- The place lies before the header of the innermost message, whose own place stays.
          refine ⟨first, found, inside ++ (header ++ content), ?_, hfound, rfl, ?_⟩
          · simp only [List.append_assoc]
          · intro other hother
            have hinner := Stacked.inside number content (hreplaced other hother) hheader
            have hlength : (first ++ (other ++ inside)).length =
                (first ++ (found ++ inside)).length := by
              simp only [List.length_append, hother, hfound]
            rw [hlength] at hinner
            simp only [List.append_assoc] at hinner ⊢
            exact hinner

end Stacked

namespace Buffer

/-- Filling in a header does not touch what is behind it. -/
theorem drop_cells_patch {buffer : Buffer} {start position : Nat} {header : List UInt8}
    (hroom : start + header.length ≤ position) (hposition : position ≤ buffer.capacity) :
    (buffer.patch start header.toByteArray).cells.drop position = buffer.cells.drop position := by
  have hcells := length_cells buffer
  have hlength : (buffer.cells.take start ++ header).length = start + header.length := by
    rw [List.length_append, List.length_take]
    omega
  rw [cells_patch, ← Nat.add_sub_of_le hroom, ← hlength, ← List.drop_drop, List.drop_left,
    List.drop_drop, hlength]

end Buffer

/-- The buffer holds the layers, which begin with what it held at the start. Behind its
cursor nothing has changed since then. -/
structure Layered (start : Buffer) (layers : Layers) (slots : List (Slot × Nat))
    (buffer : Buffer) : Prop where
  valid : buffer.Valid
  stacked : Stacked layers slots buffer.bytes
  prefix_written : start.bytes <+: layers.written
  capacity_eq : buffer.capacity = start.capacity
  unused_eq : buffer.cells.drop buffer.cursor = start.cells.drop buffer.cursor

namespace Layered

variable {start buffer : Buffer} {layers : Layers} {slots : List (Slot × Nat)}

theorem refl (hvalid : start.Valid) : Layered start ⟨start.bytes, []⟩ [] start :=
  ⟨hvalid, .outside _, List.prefix_rfl, rfl, rfl⟩

theorem extends_start (hlayered : Layered start layers slots buffer) (hstart : start.Valid) :
    start.Extends buffer := by
  have hprefix := hlayered.prefix_written.trans hlayered.stacked.prefix_bytes
  have hlength := hprefix.length_le
  rw [Buffer.length_bytes hstart, Buffer.length_bytes hlayered.valid] at hlength
  refine ⟨hlayered.capacity_eq, hlength, hlayered.valid.cursor_le, ?_⟩
  -- What was there before the cursor of the start is a prefix of what is there now.
  have htake := List.prefix_iff_eq_take.mp hprefix
  rw [Buffer.length_bytes hstart] at htake
  rw [htake, Buffer.bytes, List.take_take, Nat.min_eq_left hlength]

/-- When no message is open any more, the layers are what was appended. -/
theorem eq_append {more : List UInt8} (hlayered : Layered start ⟨start.bytes ++ more, []⟩ slots
      buffer) (hstart : start.Valid) : slots = [] ∧ buffer = start.append more := by
  obtain ⟨hvalid, hstacked, -, -, hunused⟩ := hlayered
  have hbytes : slots = [] ∧ buffer.bytes = start.bytes ++ more := by
    generalize buffer.bytes = bytes at hstacked
    cases hstacked with
    | outside written => exact ⟨rfl, rfl⟩
  have hcursor : buffer.cursor = start.cursor + more.length := by
    rw [← Buffer.length_bytes hvalid, hbytes.2, List.length_append, Buffer.length_bytes hstart]
  refine ⟨hbytes.1, Buffer.ext_cells ?_ ?_⟩
  · rw [Buffer.cells_append, ← hbytes.2, ← hcursor, ← hunused]
    exact (List.take_append_drop _ _).symm
  · rw [Buffer.cursor_append]
    exact hcursor

/-- A header that is filled in leaves the layers as they are. -/
theorem patch (hlayered : Layered start layers slots buffer) {slot : Slot}
    {before header inside : List UInt8}
    (hheader : Stacked.HeaderAt layers slots buffer.bytes slot before header inside)
    (number : Nat) :
    ∃ after, patchMessage slot number buffer = .ok () after ∧
      after.bytes = before ++ ((WrittenField.message number inside).encode) ∧
      after.cursor = buffer.cursor ∧ Layered start layers slots after := by
  obtain ⟨hbytes, hwidth, rfl, hreplaced⟩ := hheader
  have hvalid := hlayered.valid
  have hcursor : buffer.cursor = before.length + Slot.messageWidth + inside.length := by
    rw [← Buffer.length_bytes hvalid, hbytes, List.length_append, List.length_append, hwidth]
    omega
  have hnew := WrittenField.length_messageHeader number inside.length
  have hroom : before.length + (Slot.messageHeader number inside.length).length ≤
      buffer.cursor := by omega
  have hpatched := Buffer.bytes_patch hvalid hbytes (hnew.trans hwidth.symm)
  have hcapacity := Buffer.capacity_patch (Nat.le_trans hroom hvalid.cursor_le)
  refine ⟨_, patchMessage_eq hvalid hcursor, hpatched, rfl, ?_⟩
  refine ⟨Buffer.patch_valid hvalid hroom, ?_, hlayered.prefix_written,
    hcapacity.trans hlayered.capacity_eq, ?_⟩
  · rw [hpatched]
    exact hreplaced _ hnew
  · exact (Buffer.drop_cells_patch hroom hvalid.cursor_le).trans hlayered.unused_eq

/-! ## Steps and runs -/

/-- A leaf that fits is put at the end. -/
theorem leaf (hlayered : Layered start layers slots buffer) {bytes : List UInt8}
    (hroom : buffer.cursor + bytes.length ≤ buffer.capacity) :
    Layered start (layers.put bytes) slots (buffer.append bytes) where
  valid := Buffer.append_valid hlayered.valid hroom
  stacked := by
    rw [Buffer.bytes_append hroom]
    exact hlayered.stacked.put bytes
  prefix_written := hlayered.prefix_written.trans (layers.prefix_put bytes)
  capacity_eq := (Buffer.capacity_append hroom).trans hlayered.capacity_eq
  unused_eq := by
    have hlength : (buffer.bytes ++ bytes).length = buffer.cursor + bytes.length := by
      rw [List.length_append, Buffer.length_bytes hlayered.valid]
    have hunused := congrArg (List.drop bytes.length) hlayered.unused_eq
    rw [List.drop_drop, List.drop_drop] at hunused
    rw [Buffer.cursor_append, Buffer.cells_append, List.drop_left' hlength]
    exact hunused

/-- A message whose header fits is opened. -/
theorem enter (hlayered : Layered start layers slots buffer) (number : Nat)
    (hroom : buffer.cursor + Slot.messageWidth ≤ buffer.capacity) :
    Layered start (layers.after (.enter number))
      ((⟨buffer.cursor, buffer.cursor + Slot.messageWidth⟩, number) :: slots)
      (buffer.skip Slot.messageWidth) where
  valid := (Buffer.skip_extends hroom).valid hlayered.valid
  stacked := by
    have hcells := Buffer.length_cells buffer
    have hheader : ((buffer.cells.drop buffer.cursor).take Slot.messageWidth).length =
        Slot.messageWidth := by
      rw [List.length_take, List.length_drop]
      omega
    have hinside := Stacked.inside number [] hlayered.stacked hheader
    rw [Buffer.length_bytes hlayered.valid, List.append_nil, ← Buffer.bytes_skip] at hinside
    exact hinside
  prefix_written := hlayered.prefix_written
  capacity_eq := hlayered.capacity_eq
  unused_eq := by
    have hunused := congrArg (List.drop Slot.messageWidth) hlayered.unused_eq
    rw [List.drop_drop, List.drop_drop] at hunused
    exact hunused

/-- The innermost message is complete when its header is filled in. -/
theorem leave {slot : Slot} {number : Nat} {outer : List (Slot × Nat)}
    (hlayered : Layered start layers ((slot, number) :: outer) buffer) :
    ∃ after, patchMessage slot number buffer = .ok () after ∧ after.cursor = buffer.cursor ∧
      Layered start (layers.after .leave) outer after := by
  have hstacked := hlayered.stacked
  generalize hbytes : buffer.bytes = bytes at hstacked
  cases hstacked with
  | @inside written opens _ before header _ content hbefore hheader =>
      have hplace : Stacked.HeaderAt ⟨written, (number, content) :: opens⟩
          ((⟨before.length, before.length + Slot.messageWidth⟩, number) :: outer) buffer.bytes
          ⟨before.length, before.length + Slot.messageWidth⟩ before header content :=
        ⟨hbytes, hheader, rfl, fun other hother => .inside number content hbefore hother⟩
      obtain ⟨after, hpatch, hafter, hcursor, hvalid, -, hprefix, hcapacity, hunused⟩ :=
        hlayered.patch hplace number
      refine ⟨after, hpatch, hcursor, hvalid, ?_, ?_, hcapacity, hunused⟩
      · rw [hafter]
        exact hbefore.put _
      · exact hprefix.trans (Layers.prefix_after _ .leave)

/-- A step whose bytes fit is taken. -/
theorem step_of_le (hlayered : Layered start layers slots buffer) (step : WriteStep)
    (hroom : buffer.cursor + step.cost ≤ buffer.capacity) :
    ∃ next after, step.run slots buffer = .ok next after ∧
      after.cursor = buffer.cursor + step.cost ∧
      Layered start (layers.after step) next after := by
  cases step with
  | leaf bytes =>
      have hwrite := (writes_writeList bytes).appends buffer hlayered.valid hroom
      exact ⟨slots, _, bind_of_ok hwrite, Buffer.cursor_append _ _, hlayered.leaf hroom⟩
  | enter number =>
      exact ⟨_, _, bind_of_ok (reserve_of_le hroom), rfl, hlayered.enter number hroom⟩
  | patch depth number =>
      rw [WriteStep.run]
      cases hslot : slots[depth]? with
      | none => exact ⟨slots, buffer, rfl, rfl, hlayered⟩
      | some found =>
          obtain ⟨before, header, inside, hheader⟩ := hlayered.stacked.exists_headerAt hslot
          obtain ⟨after, hpatch, -, hcursor, hafter⟩ := hlayered.patch hheader number
          exact ⟨slots, after, bind_of_ok hpatch, hcursor, hafter⟩
  | leave =>
      cases slots with
      | nil =>
          have hstacked := hlayered.stacked
          have hsame : layers.after .leave = layers := by cases hstacked; rfl
          rw [hsame]
          exact ⟨[], buffer, rfl, rfl, hlayered⟩
      | cons inner outer =>
          obtain ⟨after, hpatch, hcursor, hafter⟩ := hlayered.leave
          exact ⟨outer, after, bind_of_ok hpatch, hcursor, hafter⟩

/-- A step whose bytes do not fit overflows, and it is the only kind that does. -/
theorem step_of_lt (hlayered : Layered start layers slots buffer) (step : WriteStep)
    (hroom : buffer.capacity < buffer.cursor + step.cost) :
    ∃ left, step.run slots buffer =
        .error (.bufferOverflow buffer.cursor step.cost buffer.capacity) left ∧
      buffer.Extends left := by
  have hcursor := hlayered.valid.cursor_le
  cases step with
  | leaf bytes =>
      have hwrite : writeList bytes buffer =
          .error (.bufferOverflow buffer.cursor bytes.length buffer.capacity) buffer := by
        rw [WriteStep.cost, ← List.size_toByteArray] at hroom
        rw [writeList, write, checkRoom_of_lt hroom, List.size_toByteArray]
      exact ⟨buffer, bind_of_error hwrite, hlayered.valid.extends_self⟩
  | enter number =>
      exact ⟨buffer, bind_of_error (reserve_of_lt hroom), hlayered.valid.extends_self⟩
  | patch depth number => exact absurd hcursor (Nat.not_le_of_lt hroom)
  | leave => exact absurd hcursor (Nat.not_le_of_lt hroom)

/-- Steps whose bytes fit are taken one after the other. -/
theorem run_of_le (hlayered : Layered start layers slots buffer) {steps : List WriteStep}
    (hroom : buffer.cursor + WriteStep.totalCost steps ≤ buffer.capacity) :
    ∃ next after, steps.foldlM WriteStep.run slots buffer = .ok next after ∧
      Layered start (steps.foldl Layers.after layers) next after := by
  induction steps generalizing layers slots buffer with
  | nil => exact ⟨slots, buffer, rfl, hlayered⟩
  | cons step rest ih =>
      rw [WriteStep.totalCost_cons] at hroom
      obtain ⟨next, after, hstep, hcursor, hafter⟩ := hlayered.step_of_le step (by omega)
      have hsame := hafter.capacity_eq.trans hlayered.capacity_eq.symm
      obtain ⟨last, final, hrest, hfinal⟩ := ih hafter (by omega)
      refine ⟨last, final, ?_, hfinal⟩
      rw [List.foldlM_cons, bind_of_ok hstep]
      exact hrest

/-- Steps whose bytes do not fit overflow where the first of them does not. -/
theorem run_of_lt (hlayered : Layered start layers slots buffer) {steps : List WriteStep}
    (hroom : buffer.capacity < buffer.cursor + WriteStep.totalCost steps) :
    ∃ offset requested left, steps.foldlM WriteStep.run slots buffer =
        .error (.bufferOverflow offset requested buffer.capacity) left ∧
      (start.Valid → start.Extends left) ∧ buffer.cursor ≤ offset ∧ offset ≤ buffer.capacity ∧
      buffer.capacity < offset + requested ∧
      offset + requested ≤ buffer.cursor + WriteStep.totalCost steps := by
  induction steps generalizing layers slots buffer with
  | nil => exact absurd hlayered.valid.cursor_le (Nat.not_le_of_lt hroom)
  | cons step rest ih =>
      rw [WriteStep.totalCost_cons] at hroom ⊢
      rw [List.foldlM_cons]
      by_cases hfits : buffer.cursor + step.cost ≤ buffer.capacity
      · obtain ⟨next, after, hstep, hcursor, hafter⟩ := hlayered.step_of_le step hfits
        have hsame := hafter.capacity_eq.trans hlayered.capacity_eq.symm
        obtain ⟨offset, requested, left, hrest, hextends, hlow, hhigh, hshort, hlong⟩ :=
          ih hafter (by omega)
        rw [hsame] at hrest hhigh hshort
        refine ⟨offset, requested, left, ?_, hextends, by omega, hhigh, hshort, by omega⟩
        rw [bind_of_ok hstep]
        exact hrest
      · have hshort := Nat.lt_of_not_le hfits
        obtain ⟨left, hstep, hleft⟩ := hlayered.step_of_lt step hshort
        exact ⟨buffer.cursor, step.cost, left, bind_of_error hstep,
          fun hstart => (hlayered.extends_start hstart).trans hleft, Nat.le_refl _,
          hlayered.valid.cursor_le, hshort, by omega⟩

end Layered

namespace MessageTree

/-- However often headers are filled in on the way, the steps of a tree write its encoding
and leave no message open. -/
theorem writes_of_filter_eq (tree : MessageTree Nat (List UInt8)) {steps : List WriteStep}
    (hsteps : steps.filter (!·.isPatch) = tree.steps) :
    Writes (steps.foldlM WriteStep.run []) tree.encode [] := by
  have hcost : WriteStep.totalCost steps = tree.encode.length := by
    rw [← WriteStep.totalCost_filter, hsteps, WriteStep.totalCost_steps, length_encode]
  constructor
  · intro buffer hvalid hroom
    rw [← hcost] at hroom
    obtain ⟨next, after, hrun, hafter⟩ := (Layered.refl hvalid).run_of_le hroom
    rw [← Layers.foldl_filter, hsteps, Layers.foldl_steps] at hafter
    obtain ⟨rfl, rfl⟩ := Layered.eq_append hafter hvalid
    exact hrun
  · intro buffer hvalid hroom
    rw [← hcost] at hroom ⊢
    obtain ⟨offset, requested, left, hrun, hextends, hwhere⟩ :=
      (Layered.refl hvalid).run_of_lt hroom
    exact ⟨offset, requested, left, hrun, hextends hvalid, hwhere⟩

/-- The steps write the tree as the encoding in two passes has it, and the tree is read back. -/
structure IsWrittenBy (tree : MessageTree Nat (List UInt8)) (steps : List WriteStep) : Prop where
  /-- The steps append the encoding wherever it fits, and overflow elsewhere. -/
  writes : Writes (steps.foldlM WriteStep.run []) tree.encode []
  /-- A reader that knows the layout takes exactly the encoding, whatever follows. -/
  readLaid_eq : tree.encode.length ≤ maxPayloadSize → ∀ following : List UInt8,
    tree.layout.readLaid (tree.encode ++ following) = some (tree, following)
  /-- If the leaves are fields, a reader that knows their schema finds each of them. -/
  readFields_eq : tree.encode.length ≤ maxPayloadSize →
    ∀ (fields : MessageTree Nat WrittenField) (isMessage : List Nat → Bool),
      tree = fields.ofFields → fields.conforms isMessage [] = true →
      readFields isMessage tree.encode.length [] tree.encode =
        some (fields.map id WrittenField.toWire)

/-- One pass with any patches of open headers on the way does what two passes do. -/
theorem isWrittenBy_of_filter_eq {tree : MessageTree Nat (List UInt8)}
    (hnumbered : tree.isNumbered = true) {steps : List WriteStep}
    (hsteps : steps.filter (!·.isPatch) = tree.steps) : tree.IsWrittenBy steps where
  writes := tree.writes_of_filter_eq hsteps
  readLaid_eq := fun hlength following => readLaid_encode hnumbered hlength following
  readFields_eq := by
    rintro hlength fields isMessage rfl hconforms
    exact readFields_encode hconforms hlength (Nat.le_refl _)

/-! ### A message in a message, with patches on the way -/

/-- A message that holds a number, a message with a number, and a number. -/
def sampleFields : MessageTree Nat WrittenField :=
  .node 1 (.leaf (.varint 3 7) (.node 2 (.leaf (.varint 1 8) .nil) (.leaf (.varint 4 9) .nil)))
    .nil

/-- The steps of the sample. The outer header is filled in while the inner message is open,
and once as that of another field. -/
def sampleSteps : List WriteStep :=
  [.enter 1, .patch 0 1, .leaf [24, 7], .patch 0 15, .enter 2, .patch 1 1, .leaf [8, 8],
    .patch 0 2, .patch 1 1, .leave, .patch 0 1, .leaf [32, 9], .leave]

theorem isWrittenBy_sampleSteps :
    sampleFields.ofFields.encode =
        [10, 138, 128, 0, 24, 7, 18, 130, 128, 0, 8, 8, 32, 9] ∧
      sampleFields.conforms (fun path => path = [1] ∨ path = [1, 2]) [] = true ∧
      sampleFields.ofFields.IsWrittenBy sampleSteps := by
  refine ⟨?_, by decide, isWrittenBy_of_filter_eq (by decide) ?_⟩
  · decide +kernel
  · decide +kernel

end MessageTree

end TelemetryExport
