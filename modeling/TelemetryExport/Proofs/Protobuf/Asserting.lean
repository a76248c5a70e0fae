import TelemetryExport.Proofs.Protobuf.Writers

/-! # Writing with assertions

What a writer takes for granted can be checked while it runs. A check that fails stops
everything, other than a fault, from which an attempt recovers.

`Upholds` compares a computation with checks to the one without: from a given state they
do the same, so that no check fails. It composes along a computation, and says on the way
which states are reached and that every fault is a foreseen one. Two forms of it are for
computations that only move a cursor forward, from every buffer or from a given state.
A message is written with three checks: its header has the width of one, belongs to a
field whose tag is a single byte, and lies before the cursor when it is filled in.
-/

namespace TelemetryExport

open Encode

/-- Whether the fault is for want of room or for a point that has no form. -/
def EncodeError.isForeseen : EncodeError → Bool
  | .bufferOverflow .. => true
  | .invalidDataPoint _ => true
  | _ => false

theorem EncodeError.isForeseen_of_isOverflow {fault : EncodeError}
    (hoverflow : fault.isOverflow = true) : fault.isForeseen = true := by
  cases fault with
  | bufferOverflow offset requested capacity => rfl
  | _ => cases hoverflow

/-- An assertion that does not hold. -/
inductive Violation where
  /-- A header that is filled in is not as wide as that of a message. -/
  | headerWidth
  /-- The tag of a message is more than one byte. -/
  | fieldNumber
  /-- Bytes are replaced that do not lie before the cursor. -/
  | unwritten
  /-- A message is opened at another depth than its own. -/
  | depth
  /-- Going back takes the cursor forward. -/
  | forward
  deriving DecidableEq, Repr

/-- A computation that stops where an assertion does not hold. -/
abbrev Asserting (σ α : Type) := ExceptT Violation (EStateM EncodeError σ) α

namespace Asserting

def assert {σ : Type} (condition : Prop) [Decidable condition] (violation : Violation) :
    Asserting σ Unit :=
  if condition then pure () else throwThe Violation violation

end Asserting

/-! ## Comparing a computation with checks to the one without -/

/-- From the state, no assertion fails: the computation does what it does without them.
Where it succeeds, it reaches such a state. Where it fails, the fault is a foreseen one
and such a state is left. -/
structure Upholds {σ α : Type} (asserting : Asserting σ α) (plain : EStateM EncodeError σ α)
    (state : σ) (reached : α → σ → Prop) (left : σ → Prop) : Prop where
  run_eq : asserting.run state = (Except.ok <$> plain) state
  of_ok : ∀ result after, plain state = .ok result after → reached result after
  of_error : ∀ fault after, plain state = .error fault after →
    fault.isForeseen = true ∧ left after

namespace Upholds

variable {σ α β : Type} {asserting : Asserting σ α} {plain : EStateM EncodeError σ α}
  {state : σ} {reached final : α → σ → Prop} {left abandoned : σ → Prop}

theorem imp (hupholds : Upholds asserting plain state reached left)
    (hreached : ∀ result after, reached result after → final result after)
    (hleft : ∀ after, left after → abandoned after) :
    Upholds asserting plain state final abandoned where
  run_eq := hupholds.run_eq
  of_ok := fun result after hok => hreached result after (hupholds.of_ok result after hok)
  of_error := fun fault after herror =>
    (hupholds.of_error fault after herror).imp id (hleft after)

theorem run_of_ok (hupholds : Upholds asserting plain state reached left) {result : α} {after : σ}
    (hok : plain state = .ok result after) : asserting.run state = .ok (.ok result) after := by
  rw [hupholds.run_eq]
  simp only [Functor.map, EStateM.map, hok]

theorem run_of_error (hupholds : Upholds asserting plain state reached left)
    {fault : EncodeError} {after : σ} (herror : plain state = .error fault after) :
    asserting.run state = .error fault after := by
  rw [hupholds.run_eq]
  simp only [Functor.map, EStateM.map, herror]

/-- A computation that has nothing to check. -/
theorem of_plain (hok : ∀ result after, plain state = .ok result after → reached result after)
    (herror : ∀ fault after, plain state = .error fault after →
      fault.isForeseen = true ∧ left after) :
    Upholds (liftM plain) plain state reached left where
  run_eq := rfl
  of_ok := hok
  of_error := herror

theorem pure {result : α} (hreached : reached result state) :
    Upholds (pure result) (pure result) state reached left where
  run_eq := rfl
  of_ok := by
    rintro _ _ ⟨⟩
    exact hreached
  of_error := by rintro _ _ ⟨⟩

theorem bind {next : α → Asserting σ β} {plainNext : α → EStateM EncodeError σ β}
    {last : β → σ → Prop} (hfirst : Upholds asserting plain state reached left)
    (hnext : ∀ result after, reached result after →
      Upholds (next result) (plainNext result) after last left) :
    Upholds (asserting >>= next) (plain >>= plainNext) state last left := by
  cases hplain : plain state with
  | ok result after =>
      have hrest := hnext result after (hfirst.of_ok result after hplain)
      have hrun : (plain >>= plainNext) state = plainNext result after := bind_of_ok hplain
      refine ⟨?_, ?_, ?_⟩
      · have hbind : (asserting >>= next).run state = (next result).run after :=
          bind_of_ok (hfirst.run_of_ok hplain)
        rw [hbind, hrest.run_eq]
        simp only [Functor.map, EStateM.map, hrun]
      · rw [hrun]
        exact hrest.of_ok
      · rw [hrun]
        exact hrest.of_error
  | error fault after =>
      have hrun : (plain >>= plainNext) state = .error fault after := bind_of_error hplain
      refine ⟨?_, ?_, ?_⟩
      · have hbind : (asserting >>= next).run state = .error fault after :=
          bind_of_error (hfirst.run_of_error hplain)
        rw [hbind]
        simp only [Functor.map, EStateM.map, hrun]
      · rw [hrun]
        rintro _ _ ⟨⟩
      · rw [hrun]
        rintro _ _ ⟨⟩
        exact hfirst.of_error fault after hplain

/-- An assertion that holds. -/
theorem assert {condition : Prop} [Decidable condition] {violation : Violation}
    {next : Asserting σ β} {plainNext : EStateM EncodeError σ β} {last : β → σ → Prop}
    (hcondition : condition) (hnext : Upholds next plainNext state last left) :
    Upholds (Asserting.assert condition violation >>= fun _ => next) plainNext state last left := by
  rw [Asserting.assert, if_pos hcondition]
  exact hnext

/-- An assertion may look at the state. -/
theorem examine {next : σ → Asserting σ β} {plainNext : EStateM EncodeError σ β}
    {last : β → σ → Prop} (hnext : Upholds (next state) plainNext state last left) :
    Upholds (MonadState.get >>= next) plainNext state last left :=
  ⟨hnext.run_eq, hnext.of_ok, hnext.of_error⟩

theorem get {next : σ → Asserting σ β} {plainNext : σ → EStateM EncodeError σ β}
    {last : β → σ → Prop} (hnext : Upholds (next state) (plainNext state) state last left) :
    Upholds (MonadState.get >>= next) (MonadState.get >>= plainNext) state last left :=
  ⟨hnext.run_eq, hnext.of_ok, hnext.of_error⟩

theorem modify {change : σ → σ} {next : Asserting σ β} {plainNext : EStateM EncodeError σ β}
    {last : β → σ → Prop} (hnext : Upholds next plainNext (change state) last left) :
    Upholds (do modify change; next) (do modify change; plainNext) state last left :=
  ⟨hnext.run_eq, hnext.of_ok, hnext.of_error⟩

/-- A computation on a part of the state, while the rest stays as it is. -/
theorem zoom {τ : Type} {part : τ} {put : τ → σ} {inner : Asserting τ α}
    {plainInner : EStateM EncodeError τ α} {reached : α → τ → Prop} {left : τ → Prop}
    (focus : {ι : Type} → EStateM EncodeError τ ι → EStateM EncodeError σ ι)
    (hok : ∀ {ι : Type} {action : EStateM EncodeError τ ι} {result : ι} {after : τ},
      action part = .ok result after → focus action state = .ok result (put after))
    (herror : ∀ {ι : Type} {action : EStateM EncodeError τ ι} {fault : EncodeError} {after : τ},
      action part = .error fault after → focus action state = .error fault (put after))
    (hinner : Upholds inner plainInner part reached left) :
    Upholds (focus inner.run) (focus plainInner) state
      (fun result after => ∃ changed, after = put changed ∧ reached result changed)
      (fun after => ∃ changed, after = put changed ∧ left changed) := by
  cases hplain : plainInner part with
  | ok result after =>
      have hrun := hok hplain
      refine ⟨?_, ?_, ?_⟩
      · change focus inner.run state = _
        rw [hok (hinner.run_of_ok hplain)]
        simp only [Functor.map, EStateM.map, hrun]
      · rw [hrun]
        rintro _ _ ⟨⟩
        exact ⟨after, rfl, hinner.of_ok result after hplain⟩
      · rw [hrun]
        rintro _ _ ⟨⟩
  | error fault after =>
      have hrun := herror hplain
      have hleft := hinner.of_error fault after hplain
      refine ⟨?_, ?_, ?_⟩
      · change focus inner.run state = _
        rw [herror (hinner.run_of_error hplain)]
        simp only [Functor.map, EStateM.map, hrun]
      · rw [hrun]
        rintro _ _ ⟨⟩
      · rw [hrun]
        rintro _ _ ⟨⟩
        exact ⟨hleft.1, after, rfl, hleft.2⟩

end Upholds

/-! ## Appending to a buffer -/

/-- The later buffer is what some writing makes of the earlier one. -/
structure Buffer.Precedes (earlier later : Buffer) : Prop where
  valid : later.Valid
  cursor_le : earlier.cursor ≤ later.cursor

namespace Buffer

variable {buffer earlier later : Buffer}

theorem Valid.precedes_self (hvalid : buffer.Valid) : buffer.Precedes buffer :=
  ⟨hvalid, Nat.le_refl _⟩

theorem Precedes.trans {first second third : Buffer} (hfirst : first.Precedes second)
    (hsecond : second.Precedes third) : first.Precedes third :=
  ⟨hsecond.valid, Nat.le_trans hfirst.cursor_le hsecond.cursor_le⟩

theorem Extends.precedes (hextends : earlier.Extends later) (hvalid : earlier.Valid) :
    earlier.Precedes later :=
  ⟨hextends.valid hvalid, hextends.cursor_le⟩

end Buffer

/-- From every buffer no assertion fails, and the cursor only moves forward. -/
def AppendsSafely {α : Type} (asserting : Asserting Buffer α) (plain : Encode α) : Prop :=
  ∀ buffer : Buffer, buffer.Valid →
    Upholds asserting plain buffer (fun _ after => buffer.Precedes after) buffer.Precedes

section

variable {α β : Type} {asserting : Asserting Buffer α} {plain : Encode α}

theorem appendsSafely_of_writes {bytes : List UInt8} {result : α}
    (hwrites : Writes plain bytes result) : AppendsSafely (liftM plain) plain := by
  intro buffer hvalid
  refine Upholds.of_plain (fun value after hok => ?_) fun fault left herror => ?_
  · obtain ⟨hroom, -, rfl⟩ := hwrites.of_ok hvalid hok
    exact (Buffer.extends_append hroom).precedes hvalid
  · obtain ⟨-, hoverflow, hextends⟩ := hwrites.of_error hvalid herror
    exact ⟨EncodeError.isForeseen_of_isOverflow hoverflow, hextends.precedes hvalid⟩

theorem AppendsSafely.bind {next : α → Asserting Buffer β} {plainNext : α → Encode β}
    (hfirst : AppendsSafely asserting plain)
    (hnext : ∀ result, AppendsSafely (next result) (plainNext result)) :
    AppendsSafely (asserting >>= next) (plain >>= plainNext) := by
  intro buffer hvalid
  refine (hfirst buffer hvalid).bind fun result after hafter => ?_
  exact (hnext result after hafter.valid).imp (fun _ _ => hafter.trans) fun _ => hafter.trans

theorem AppendsSafely.seq {first : Asserting Buffer Unit} {plainFirst : Encode Unit}
    (hfirst : AppendsSafely first plainFirst) (hnext : AppendsSafely asserting plain) :
    AppendsSafely (do first; asserting) (do plainFirst; plain) :=
  hfirst.bind fun _ => hnext

theorem appendsSafely_pure (result : α) : AppendsSafely (pure result) (pure result) :=
  fun _ hvalid => Upholds.pure hvalid.precedes_self

theorem appendsSafely_throw {fault : EncodeError} (hforeseen : fault.isForeseen = true) :
    AppendsSafely (throwThe EncodeError fault : Asserting Buffer α) (throw fault) := by
  intro buffer hvalid
  refine ⟨rfl, ?_, ?_⟩
  · rintro _ _ ⟨⟩
  · rintro _ _ ⟨⟩
    exact ⟨hforeseen, hvalid.precedes_self⟩

theorem AppendsSafely.ite {condition : Prop} [Decidable condition] {other : Asserting Buffer α}
    {plainOther : Encode α} (haction : AppendsSafely asserting plain)
    (hother : AppendsSafely other plainOther) :
    AppendsSafely (if condition then asserting else other)
      (if condition then plain else plainOther) := by
  by_cases hcondition : condition
  · rw [if_pos hcondition, if_pos hcondition]
    exact haction
  · rw [if_neg hcondition, if_neg hcondition]
    exact hother

theorem AppendsSafely.forM {ι : Type} {write : ι → Asserting Buffer Unit}
    {plainWrite : ι → Encode Unit} (items : List ι)
    (hwrite : ∀ item, AppendsSafely (write item) (plainWrite item)) :
    AppendsSafely (items.forM write) (items.forM plainWrite) := by
  induction items with
  | nil => exact appendsSafely_pure ()
  | cons item rest ih => exact (hwrite item).seq ih

end

/-! ## Headers -/

/-- The cursor of a state's buffer only moves forward, and such a state is reached. -/
def LeadsTo {σ α : Type} (buffer : σ → Buffer) (asserting : Asserting σ α)
    (plain : EStateM EncodeError σ α) (state : σ) (reached : σ → Prop) : Prop :=
  Upholds asserting plain state
    (fun _ after => (buffer state).Precedes (buffer after) ∧ reached after)
    fun left => (buffer state).Precedes (buffer left)

namespace LeadsTo

variable {σ α β : Type} {buffer : σ → Buffer} {asserting : Asserting σ α}
  {plain : EStateM EncodeError σ α} {state : σ} {reached final : σ → Prop}

theorem imp (hleads : LeadsTo buffer asserting plain state reached)
    (hreached : ∀ after, reached after → final after) :
    LeadsTo buffer asserting plain state final :=
  Upholds.imp hleads (fun _ after => And.imp_right (hreached after)) fun _ => id

theorem bind {next : α → Asserting σ β} {plainNext : α → EStateM EncodeError σ β}
    (hfirst : LeadsTo buffer asserting plain state reached)
    (hnext : ∀ result after, reached after →
      LeadsTo buffer (next result) (plainNext result) after final) :
    LeadsTo buffer (asserting >>= next) (plain >>= plainNext) state final := by
  refine Upholds.bind hfirst fun result after hafter => ?_
  exact Upholds.imp (hnext result after hafter.2) (fun _ _ => And.imp_left hafter.1.trans)
    fun _ => hafter.1.trans

end LeadsTo

/-- The place of a reserved header that is as wide as that of a message and lies before the
cursor. -/
structure Slot.Within (slot : Slot) (buffer : Buffer) : Prop where
  width_eq : slot.valueStart = slot.headerStart + Slot.messageWidth
  valueStart_le : slot.valueStart ≤ buffer.cursor

theorem Slot.Within.of_precedes {slot : Slot} {earlier later : Buffer}
    (hwithin : slot.Within earlier) (hprecedes : earlier.Precedes later) : slot.Within later :=
  ⟨hwithin.width_eq, Nat.le_trans hwithin.valueStart_le hprecedes.cursor_le⟩

namespace Asserting

/-- Fills in the header of a message. The header must lie before the cursor also where the
length turns out to be too great. -/
def patchMessage (slot : Slot) (field : Nat) : Asserting Buffer Unit := do
  assert (slot.valueStart - slot.headerStart = Slot.messageWidth) .headerWidth
  assert (0 < field ∧ field < 16) .fieldNumber
  assert (slot.headerStart ≤ slot.valueStart ∧ slot.valueStart ≤ (← get).cursor) .unwritten
  Encode.patchMessage slot field

def message (field : Nat) (content : Asserting Buffer Unit) : Asserting Buffer Unit := do
  let slot ← Encode.reserveMessage
  content
  patchMessage slot field

/-- A header in its place is filled in. -/
theorem upholds_patchMessage {slot : Slot} {buffer : Buffer} (hvalid : buffer.Valid)
    (hwithin : slot.Within buffer) {field : Nat} (hfield : 0 < field ∧ field < 16) :
    Upholds (patchMessage slot field) (Encode.patchMessage slot field) buffer
      (fun _ after => buffer.Precedes after) buffer.Precedes := by
  have hwidth := hwithin.width_eq
  have hroom := hwithin.valueStart_le
  have hpatch : Encode.patchMessage slot field buffer = .ok () _ :=
    patchMessage_eq hvalid (Nat.add_sub_of_le hroom).symm
  refine Upholds.assert (by omega) <| Upholds.assert hfield <| Upholds.examine <|
    Upholds.assert (by omega) <| Upholds.of_plain (fun value after hok => ?_) ?_
  · rw [hpatch] at hok
    cases hok
    exact ⟨Buffer.patch_valid hvalid (by rw [hwidth] at hroom; exact hroom), Nat.le_refl _⟩
  · rw [hpatch]
    rintro _ _ ⟨⟩

/-- What is reserved for a header lies before the cursor. -/
theorem upholds_reserveMessage {buffer : Buffer} (hvalid : buffer.Valid) :
    Upholds (liftM reserveMessage) reserveMessage buffer
      (fun slot after => buffer.Precedes after ∧ slot.Within after) buffer.Precedes := by
  by_cases hroom : buffer.cursor + Slot.messageWidth ≤ buffer.capacity
  · have hreserve : reserveMessage buffer = .ok _ _ := reserve_of_le hroom
    refine Upholds.of_plain ?_ ?_ <;> rw [hreserve]
    · rintro _ _ ⟨⟩
      exact ⟨(Buffer.skip_extends hroom).precedes hvalid, rfl, Nat.le_refl _⟩
    · rintro _ _ ⟨⟩
  · have hreserve : reserveMessage buffer = .error _ _ := reserve_of_lt (Nat.lt_of_not_le hroom)
    refine Upholds.of_plain ?_ ?_ <;> rw [hreserve]
    · rintro _ _ ⟨⟩
    · rintro _ _ ⟨⟩
      exact ⟨rfl, hvalid.precedes_self⟩

theorem appendsSafely_message {content : Asserting Buffer Unit} {plain : Encode Unit} {field : Nat}
    (hfield : 0 < field ∧ field < 16) (hcontent : AppendsSafely content plain) :
    AppendsSafely (message field content) (Encode.message field plain) := by
  intro buffer hvalid
  refine (upholds_reserveMessage hvalid).bind fun slot reserved hreserved => ?_
  -- The header stays before the cursor while the content is written.
  have hinside : Upholds content plain reserved
      (fun _ after => buffer.Precedes after ∧ slot.Within after) buffer.Precedes :=
    (hcontent reserved hreserved.1.valid).imp
      (fun _ _ hafter => ⟨hreserved.1.trans hafter, hreserved.2.of_precedes hafter⟩)
      fun _ => hreserved.1.trans
  refine hinside.bind fun _ after hafter => ?_
  exact (upholds_patchMessage hafter.1.valid hafter.2 hfield).imp (fun _ _ => hafter.1.trans)
    fun _ => hafter.1.trans

end Asserting

end TelemetryExport
