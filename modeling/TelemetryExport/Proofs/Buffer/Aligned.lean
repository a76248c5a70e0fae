import TelemetryExport.Proofs.Buffer.Writes
import TelemetryExport.Proofs.Varint

/-! # Computations that do not look into the storage

Behind its cursor a buffer holds whatever earlier uses left there, and a reserved
header shows it until it is filled in. No computation reads any of it. `Respects`
says this for a relation between states: started in related states, a computation
ends in related states, and with the same result or the same fault. For buffers
the relation is that the cursor is at the same place of storages of the same size.
-/

namespace TelemetryExport

variable {ε σ α β : Type} {relation : σ → σ → Prop}

/-- Two outcomes with the same result or the same fault, in related states. -/
inductive Related (relation : σ → σ → Prop) :
    EStateM.Result ε σ α → EStateM.Result ε σ α → Prop
  | ok (result : α) {state other : σ} (hstates : relation state other) :
      Related relation (.ok result state) (.ok result other)
  | error (fault : ε) {state other : σ} (hstates : relation state other) :
      Related relation (.error fault state) (.error fault other)

/-- Started in related states, the computation has related outcomes. -/
def Respects (relation : σ → σ → Prop) (action : EStateM ε σ α) : Prop :=
  ∀ state other, relation state other → Related relation (action state) (action other)

theorem Related.exists_of_ok {result : α} {state : σ} {outcome : EStateM.Result ε σ α}
    (hrelated : Related relation (.ok result state) outcome) :
    ∃ other, outcome = .ok result other ∧ relation state other := by
  cases hrelated with
  | ok _ hstates => exact ⟨_, rfl, hstates⟩

theorem Related.exists_of_error {fault : ε} {state : σ} {outcome : EStateM.Result ε σ α}
    (hrelated : Related relation (.error fault state) outcome) :
    ∃ other, outcome = .error fault other ∧ relation state other := by
  cases hrelated with
  | error _ hstates => exact ⟨_, rfl, hstates⟩

/-! ## Composition -/

theorem Related.bind {first second : EStateM ε σ α} {next : α → EStateM ε σ β}
    {state other : σ} (hfirst : Related relation (first state) (second other))
    (hnext : ∀ result, Respects relation (next result)) :
    Related relation ((first >>= next) state) ((second >>= next) other) := by
  simp only [Bind.bind, EStateM.bind]
  cases hstate : first state with
  | ok result after =>
      rw [hstate] at hfirst
      obtain ⟨left, hother, hstates⟩ := hfirst.exists_of_ok
      rw [hother]
      exact hnext result _ _ hstates
  | error fault after =>
      rw [hstate] at hfirst
      obtain ⟨left, hother, hstates⟩ := hfirst.exists_of_error
      rw [hother]
      exact .error fault hstates

theorem Respects.bind {action : EStateM ε σ α} {next : α → EStateM ε σ β}
    (haction : Respects relation action) (hnext : ∀ result, Respects relation (next result)) :
    Respects relation (action >>= next) :=
  fun _ _ hstates => (haction _ _ hstates).bind hnext

theorem Respects.seq {action : EStateM ε σ Unit} {next : EStateM ε σ β}
    (haction : Respects relation action) (hnext : Respects relation next) :
    Respects relation (do action; next) :=
  haction.bind fun _ => hnext

theorem respects_pure (result : α) : Respects relation (pure result : EStateM ε σ α) :=
  fun _ _ hstates => .ok result hstates

theorem respects_throw (fault : ε) : Respects relation (throw fault : EStateM ε σ α) :=
  fun _ _ hstates => .error fault hstates

theorem respects_modify {change : σ → σ}
    (hchange : ∀ state other, relation state other → relation (change state) (change other)) :
    Respects relation (modify change : EStateM ε σ Unit) :=
  fun state other hstates => .ok () (hchange state other hstates)

theorem Respects.ite {condition : Prop} [Decidable condition] {action other : EStateM ε σ α}
    (haction : Respects relation action) (hother : Respects relation other) :
    Respects relation (if condition then action else other) := by
  by_cases hcondition : condition
  · rw [if_pos hcondition]
    exact haction
  · rw [if_neg hcondition]
    exact hother

theorem Respects.forM {ι : Type} {write : ι → EStateM ε σ Unit} (items : List ι)
    (hwrite : ∀ item, Respects relation (write item)) : Respects relation (items.forM write) := by
  induction items with
  | nil => exact respects_pure ()
  | cons item rest ih => exact (hwrite item).bind fun _ => ih

theorem Respects.foldlM {ι : Type} {step : α → ι → EStateM ε σ α} (items : List ι)
    (hstep : ∀ result item, Respects relation (step result item)) (start : α) :
    Respects relation (items.foldlM step start) := by
  induction items generalizing start with
  | nil => exact respects_pure start
  | cons item rest ih => exact (hstep start item).bind ih

/-! ## Buffers -/

namespace Buffer

/-- The cursors are at the same place of storages of the same size. -/
structure Aligned (buffer other : Buffer) : Prop where
  cursor_eq : other.cursor = buffer.cursor
  capacity_eq : other.capacity = buffer.capacity

variable {buffer other : Buffer}

theorem size_overwrite_congr {storage replaced : ByteArray} (hsize : replaced.size = storage.size)
    (start : Nat) (bytes : ByteArray) :
    (Bytes.overwrite replaced start bytes).size = (Bytes.overwrite storage start bytes).size := by
  simp only [← Bytes.length_toList, Bytes.toList_overwrite, List.length_append, List.length_take,
    List.length_drop] at hsize ⊢
  rw [hsize]

theorem Aligned.skip (haligned : buffer.Aligned other) (count : Nat) :
    (buffer.skip count).Aligned (other.skip count) where
  cursor_eq := congrArg (· + count) haligned.cursor_eq
  capacity_eq := haligned.capacity_eq

theorem Aligned.place (haligned : buffer.Aligned other) (bytes : ByteArray) :
    (buffer.place bytes).Aligned (other.place bytes) where
  cursor_eq := congrArg (· + bytes.size) haligned.cursor_eq
  capacity_eq := by
    rw [capacity, capacity, Buffer.place, Buffer.place, haligned.cursor_eq]
    exact size_overwrite_congr haligned.capacity_eq _ _

theorem Aligned.patch (haligned : buffer.Aligned other) (start : Nat) (bytes : ByteArray) :
    (buffer.patch start bytes).Aligned (other.patch start bytes) where
  cursor_eq := haligned.cursor_eq
  capacity_eq := size_overwrite_congr haligned.capacity_eq _ _

end Buffer

/-! ## Single writes -/

namespace Encode

open Buffer

/-- A computation that checks for room does the same wherever there is some. -/
theorem Checked.respects {action : Encode α} {count : Nat} {result : Buffer → α}
    {change : Buffer → Buffer} (hchecked : Checked action count result change)
    (hresult : ∀ buffer other : Buffer, buffer.Aligned other → result other = result buffer)
    (hchange : ∀ buffer other : Buffer, buffer.Aligned other →
      (change buffer).Aligned (change other)) :
    Respects Aligned action := by
  intro buffer other haligned
  have hcursor := haligned.cursor_eq
  have hcapacity := haligned.capacity_eq
  by_cases hroom : buffer.cursor + count ≤ buffer.capacity
  · rw [hchecked.ok buffer hroom, hchecked.ok other (by omega), hresult buffer other haligned]
    exact .ok _ (hchange buffer other haligned)
  · rw [hchecked.error buffer (by omega), hchecked.error other (by omega), hcursor, hcapacity]
    exact .error _ haligned

theorem respects_write (bytes : ByteArray) : Respects Aligned (write bytes) :=
  (checked_write bytes).respects (fun _ _ _ => rfl) fun _ _ haligned => haligned.place _

theorem respects_writeByte (byte : UInt8) : Respects Aligned (writeByte byte) :=
  respects_write _

theorem respects_writeBigEndian (width n : Nat) : Respects Aligned (writeBigEndian width n) :=
  respects_write _

theorem respects_writeLittleEndian (width n : Nat) : Respects Aligned (writeLittleEndian width n) :=
  respects_write _

theorem respects_writeVarint (value : UInt64) : Respects Aligned (writeVarint value) :=
  (checked_writeVarint value).respects (fun _ _ _ => rfl) fun _ _ haligned => haligned.place _

theorem respects_reserve (width : Nat) : Respects Aligned (Encode.reserve width) := by
  refine (checked_reserve width).respects ?_ fun _ _ haligned => haligned.skip width
  intro buffer other haligned
  rw [haligned.cursor_eq]

theorem respects_patchMessage (slot : Slot) (field : Nat) :
    Respects Aligned (patchMessage slot field) := by
  intro buffer other haligned
  -- The length that is filled in comes from the cursor.
  have hcontent : slot.contentLength other = slot.contentLength buffer := by
    rw [Slot.contentLength, Slot.contentLength, haligned.cursor_eq]
  simp only [patchMessage, hcontent]
  by_cases hlength : Varint.paddedMax < slot.contentLength buffer
  · rw [if_pos hlength, if_pos hlength]
    exact .error _ haligned
  · rw [if_neg hlength, if_neg hlength]
    exact .ok () (haligned.patch _ _)

theorem respects_patchCounted (slot : Slot) (marker : UInt8) (count : Nat) :
    Respects Aligned (patchCounted slot marker count) := by
  intro buffer other haligned
  simp only [patchCounted]
  by_cases hcount : 65535 < count
  · rw [if_pos hcount, if_pos hcount]
    exact .error _ haligned
  · rw [if_neg hcount, if_neg hcount]
    exact .ok () (haligned.patch _ _)

theorem respects_message (field : Nat) {content : Encode Unit}
    (hcontent : Respects Aligned content) : Respects Aligned (message field content) :=
  (respects_reserve _).bind fun slot => hcontent.seq (respects_patchMessage slot field)

end Encode

end TelemetryExport
