import TelemetryExport.Proofs.Export.Delivery

/-! # Refused points leave no mark

An attempt to write a point either succeeds or leaves the packer as it was, up to bytes
behind the cursor that nobody reads. Whatever is written afterwards, and whatever the
transport answers, the same payloads are handed over as if the point had never been
tried. This holds for every packer that an export can come to, and for every point.
-/

namespace TelemetryExport

open WrittenField RequestEncoder

namespace Packer

/-- The packer of an export for the resource with the given attributes, between two
points. -/
structure Rested (properties : List Attribute) (packer : Packer) : Prop where
  resource_eq : packer.encoder.resource.data.toList =
    encodeAll [RequestFormat.resourceField properties]
  exists_draft : ∃ draft, Rests packer draft ∧ draft.IsSettled

/-- Two such packers that cannot be told apart. -/
structure Twins (properties : List Attribute) (packer other : Packer) : Prop where
  rested : Rested properties packer
  alike : Alike packer other

variable {properties : List Attribute} {packer other left : Packer}

/-! ## What keeps a packer between points -/

theorem Rested.buffer_valid (hrested : Rested properties packer) :
    packer.encoder.buffer.Valid := by
  obtain ⟨draft, hrests, -⟩ := hrested.exists_draft
  exact hrests.buffer_valid

theorem Rested.of_alike (hrested : Rested properties packer) (halike : Alike packer other) :
    Rested properties other where
  resource_eq := by
    rw [halike.resource_eq]
    exact hrested.resource_eq
  exists_draft := by
    obtain ⟨draft, hrests, hsettled⟩ := hrested.exists_draft
    exact ⟨draft, hrests.of_alike halike, hsettled⟩

theorem Rested.counted (hrested : Rested properties packer) (tally : Tally) :
    Rested properties { packer with tally } where
  resource_eq := hrested.resource_eq
  exists_draft := by
    obtain ⟨draft, hrests, hsettled⟩ := hrested.exists_draft
    exact ⟨draft, hrests.counted _ tally, hsettled⟩

theorem Rested.restart (hrested : Rested properties packer) : Rested properties packer.restart where
  resource_eq := hrested.resource_eq
  exists_draft := ⟨_, rests_restart hrested.buffer_valid.capacity_le, Draft.isSettled_empty⟩

theorem rested_start {format : RequestFormat}
    (hformat : RequestFormat.make properties = .ok format) {buffer : Buffer}
    (hcapacity : buffer.capacity ≤ maxPayloadSize) (total : Nat) :
    Rested properties (start format buffer total) where
  resource_eq := RequestFormat.toList_resource_of_make hformat
  exists_draft := ⟨_, rests_start format hcapacity total, Draft.isSettled_empty⟩

/-- Twins write a point or refuse it together. Where they refuse it, nothing tells that it
was tried. -/
theorem Twins.tryWrite (htwins : Twins properties packer other) (item : PlacedPoint) :
    (∃ next after, Packer.tryWrite item packer = .ok () next ∧
      Packer.tryWrite item other = .ok () after ∧ Twins properties next after) ∨
    ∃ fault left kept, Packer.tryWrite item packer = .error fault left ∧
      Packer.tryWrite item other = .error fault kept ∧ Alike packer left ∧
      Twins properties left kept := by
  obtain ⟨hrested, halike⟩ := htwins
  obtain ⟨draft, hrests, hsettled⟩ := hrested.exists_draft
  have hresource := hrested.resource_eq
  have hother := hrests.of_alike halike
  have hotherResource := (hrested.of_alike halike).resource_eq
  have hcursor := halike.cursor_eq
  have hcapacity := halike.capacity_eq
  -- The way through the write is the same for both, and so is the fault at its end.
  have hrelated := respects_tryWrite item packer other halike.aligned
  by_cases hroom : item.point.isValid = true ∧ packer.encoder.buffer.cursor +
      draft.cost properties item ≤ packer.encoder.buffer.capacity
  · obtain ⟨next, hrun, hnext, hsame, -⟩ :=
      tryWrite_of_le hresource hrests hsettled item hroom.1 hroom.2
    obtain ⟨after, hotherRun, hafter, -⟩ :=
      tryWrite_of_le hotherResource hother hsettled item hroom.1 (by omega)
    rw [hrun, hotherRun] at hrelated
    rw [← hsame] at hresource
    cases hrelated with
    | ok _ haligned =>
        refine .inl ⟨next, after, hrun, hotherRun,
          ⟨hresource, _, hnext, hsettled.append item⟩, haligned.alike ?_⟩
        rw [hafter.bytes_eq, hnext.bytes_eq]
  · have hunfit : item.point.isValid = true → packer.encoder.buffer.capacity <
        packer.encoder.buffer.cursor + draft.cost properties item :=
      fun hvalid => Nat.lt_of_not_le fun hle => hroom ⟨hvalid, hle⟩
    obtain ⟨fault, left, hrun, hleft, -⟩ := tryWrite_of_lt hresource hrests hsettled item hunfit
    obtain ⟨cause, kept, hotherRun, hkept, -⟩ :=
      tryWrite_of_lt hotherResource hother hsettled item (by
        rw [hcursor, hcapacity]
        exact hunfit)
    rw [hrun, hotherRun] at hrelated
    cases hrelated with
    | error _ haligned =>
        exact .inr ⟨fault, left, kept, hrun, hotherRun, hleft, hrested.of_alike hleft,
          hleft.symm.trans (halike.trans hkept)⟩

/-- A point that is written leaves the packer between two points. -/
theorem Rested.written (hrested : Rested properties packer) {item : PlacedPoint} {next : Packer}
    (hrun : Packer.tryWrite item packer = .ok () next) : Rested properties next := by
  rcases (Twins.mk hrested (Alike.refl packer)).tryWrite item with
    ⟨_, _, hok, -, hnext⟩ | ⟨_, _, _, herror, -⟩
  · rw [hrun] at hok
    cases hok
    exact hnext.rested
  · rw [hrun] at herror
    cases herror

/-- A point that is refused leaves the packer as it was. -/
theorem Rested.refused (hrested : Rested properties packer) {item : PlacedPoint}
    {fault : EncodeError} (hrun : Packer.tryWrite item packer = .error fault left) :
    Alike packer left := by
  rcases (Twins.mk hrested (Alike.refl packer)).tryWrite item with
    ⟨_, _, hok, -⟩ | ⟨_, _, _, herror, -, hleft, -⟩
  · rw [hrun] at hok
    cases hok
  · rw [hrun] at herror
    cases herror
    exact hleft

theorem Twins.counted (htwins : Twins properties packer other) (tally : Tally) :
    Twins properties { packer with tally } { other with tally } where
  rested := htwins.rested.counted tally
  alike := { htwins.alike with tally_eq := rfl }

theorem Twins.restart (htwins : Twins properties packer other) :
    Twins properties packer.restart other.restart where
  rested := htwins.rested.restart
  alike := by
    have halike := htwins.alike
    have haligned : Aligned packer.restart other.restart :=
      ⟨⟨⟨rfl, halike.capacity_eq⟩, halike.resource_eq,
        congrArg SlotStack.clear halike.headers_eq, rfl⟩, rfl, rfl, halike.tally_eq⟩
    exact haligned.alike rfl

/-! ## What a transport sees -/

section

variable {σ α : Type} {relation final : Packer → Packer → Prop}

/-- From every state of the transport, both leave the transport in the same state, with
related packers. -/
def Mirrors (relation : Packer → Packer → Prop) (first second : StateM σ Packer) : Prop :=
  ∀ state, (second state).2 = (first state).2 ∧ relation (first state).1 (second state).1

theorem mirrors_pure (hpackers : relation packer other) :
    Mirrors relation (pure packer : StateM σ Packer) (pure other) :=
  fun _ => ⟨rfl, hpackers⟩

theorem Mirrors.bind {first second : StateM σ Packer} {next after : Packer → StateM σ Packer}
    (hfirst : Mirrors relation first second)
    (hnext : ∀ packer other, relation packer other → Mirrors final (next packer) (after other)) :
    Mirrors final (first >>= next) (second >>= after) := by
  intro state
  obtain ⟨hstate, hpackers⟩ := hfirst state
  change (after (second state).1 (second state).2).2 = (next (first state).1 (first state).2).2 ∧
    final (next (first state).1 (first state).2).1 (after (second state).1 (second state).2).1
  rw [hstate]
  exact hnext _ _ hpackers _

/-- Both do the same first. -/
theorem Mirrors.after {action : StateM σ α} {next after : α → StateM σ Packer}
    (hnext : ∀ value, Mirrors relation (next value) (after value)) :
    Mirrors relation (action >>= next) (action >>= after) :=
  fun state => hnext (action state).1 (action state).2

variable (transport : Transport (StateM σ))

theorem Twins.flush (htwins : Twins properties packer other) :
    Mirrors (Twins properties) (packer.flush transport) (other.flush transport) := by
  have halike := htwins.alike
  unfold Packer.flush
  rw [halike.points_eq, halike.payload_eq, halike.tally_eq]
  by_cases hzero : packer.points = 0
  · rw [if_pos hzero, if_pos hzero]
    exact mirrors_pure htwins
  · rw [if_neg hzero, if_neg hzero]
    exact Mirrors.after fun _ => Mirrors.after fun tally =>
      mirrors_pure (htwins.counted tally).restart

theorem Twins.drop (htwins : Twins properties packer other) (cause : EncodeError) :
    Mirrors (Twins properties) (packer.drop transport cause) (other.drop transport cause) := by
  unfold Packer.drop
  rw [htwins.alike.tally_eq]
  exact Mirrors.after fun tally => mirrors_pure (htwins.counted tally)

theorem Twins.write (htwins : Twins properties packer other) (item : PlacedPoint) :
    Mirrors (Twins properties) (packer.write transport item) (other.write transport item) := by
  unfold Packer.write
  rcases htwins.tryWrite item with
    ⟨next, after, hrun, hother, hnext⟩ | ⟨cause, left, kept, hrun, hother, -, hleft⟩
  · simp only [hrun, hother]
    exact mirrors_pure hnext
  · simp only [hrun, hother, hleft.alike.points_eq]
    by_cases hfull : (cause.isOverflow && decide (0 < left.points)) = true
    · rw [if_pos hfull, if_pos hfull]
      refine (hleft.flush transport).bind fun flushed sent hflushed => ?_
      rcases hflushed.tryWrite item with
        ⟨next, after, hrun, hother, hnext⟩ | ⟨cause, left, kept, hrun, hother, -, hleft⟩
      · simp only [hrun, hother]
        exact mirrors_pure hnext
      · simp only [hrun, hother]
        exact hleft.drop transport cause
    · rw [if_neg hfull, if_neg hfull]
      exact hleft.drop transport cause

/-- Whatever points come, twins hand the same payloads over and remain twins. -/
theorem Twins.foldlM (htwins : Twins properties packer other) (items : List PlacedPoint) :
    Mirrors (Twins properties) (items.foldlM (Packer.write transport) packer)
      (items.foldlM (Packer.write transport) other) := by
  induction items generalizing packer other with
  | nil => exact mirrors_pure htwins
  | cons item rest ih =>
      rw [List.foldlM_cons, List.foldlM_cons]
      exact (htwins.write transport item).bind fun _ _ hnext => ih hnext

theorem Twins.writeAll (htwins : Twins properties packer other) (items : List PlacedPoint) :
    Mirrors (Twins properties) (packer.writeAll transport items)
      (other.writeAll transport items) :=
  (htwins.foldlM transport items).bind fun _ _ hlast => hlast.flush transport

end

/-! ## Every packer of an export -/

/-- The packers that an export over a buffer can come to between two attempts to write a
point. A request is started over when its payload was handed over, and the tally counts what
was lost. -/
inductive Reachable (format : RequestFormat) (buffer : Buffer) : Packer → Prop
  | start (total : Nat) : Reachable format buffer (Packer.start format buffer total)
  | written {packer next : Packer} {item : PlacedPoint} (hpacker : Reachable format buffer packer)
      (hrun : tryWrite item packer = .ok () next) : Reachable format buffer next
  | refused {packer left : Packer} {item : PlacedPoint} {fault : EncodeError}
      (hpacker : Reachable format buffer packer)
      (hrun : tryWrite item packer = .error fault left) : Reachable format buffer left
  | restarted {packer : Packer} (hpacker : Reachable format buffer packer) :
      Reachable format buffer packer.restart
  | counted {packer : Packer} (hpacker : Reachable format buffer packer) (tally : Tally) :
      Reachable format buffer { packer with tally }

section

variable {format : RequestFormat} {buffer : Buffer} {σ : Type}

/-- From every state of the transport, the computation ends in such a packer. -/
def Leads (reached : Packer → Prop) (action : StateM σ Packer) : Prop :=
  ∀ state, reached (action state).1

theorem Leads.bind {reached final : Packer → Prop} {first : StateM σ Packer}
    {next : Packer → StateM σ Packer} (hfirst : Leads reached first)
    (hnext : ∀ packer, reached packer → Leads final (next packer)) :
    Leads final (first >>= next) :=
  fun state => hnext _ (hfirst state) _

variable (transport : Transport (StateM σ))

theorem Reachable.drop (hpacker : Reachable format buffer packer) (cause : EncodeError) :
    Leads (Reachable format buffer) (packer.drop transport cause) :=
  fun _ => hpacker.counted _

theorem Reachable.flush (hpacker : Reachable format buffer packer) :
    Leads (Reachable format buffer) (packer.flush transport) := by
  intro state
  unfold Packer.flush
  by_cases hzero : packer.points = 0
  · rw [if_pos hzero]
    exact hpacker
  · rw [if_neg hzero]
    exact (hpacker.counted _).restarted

/-- One write leads from one such packer to the next. -/
theorem Reachable.write (hpacker : Reachable format buffer packer) (item : PlacedPoint) :
    Leads (Reachable format buffer) (packer.write transport item) := by
  unfold Packer.write
  cases hrun : tryWrite item packer with
  | ok result next => exact fun _ => hpacker.written hrun
  | error cause left =>
      have hleft := hpacker.refused hrun
      by_cases hfull : (cause.isOverflow && decide (0 < left.points)) = true
      · simp only [hfull, if_true]
        -- The point is tried again in the packer that the sending left.
        refine (hleft.flush transport).bind fun flushed hflushed => ?_
        cases hretry : tryWrite item flushed with
        | ok result next => exact fun _ => hflushed.written hretry
        | error cause last => exact (hflushed.refused hretry).drop transport cause
      · simp only [hfull, if_false, Bool.false_eq_true]
        exact hleft.drop transport cause

/-- Every packer between two points of an export is reachable. -/
theorem Reachable.foldlM (hpacker : Reachable format buffer packer) (items : List PlacedPoint) :
    Leads (Reachable format buffer) (items.foldlM (Packer.write transport) packer) := by
  induction items generalizing packer with
  | nil => exact fun _ => hpacker
  | cons item rest ih =>
      rw [List.foldlM_cons]
      exact (hpacker.write transport item).bind fun _ hnext => ih hnext

theorem Reachable.rested (hformat : RequestFormat.make properties = .ok format)
    (hcapacity : buffer.capacity ≤ maxPayloadSize) (hpacker : Reachable format buffer packer) :
    Rested properties packer := by
  induction hpacker with
  | start total => exact rested_start hformat hcapacity total
  | written _ hrun ih => exact ih.written hrun
  | refused _ hrun ih => exact ih.of_alike (ih.refused hrun)
  | restarted _ ih => exact ih.restart
  | counted _ tally ih => exact ih.counted tally

/-- A point that is refused is as if it had never been tried: the packer is left as it
was, and whatever points come next and whatever transport takes the payloads, the
transport sees the same and the packers remain alike, pending bytes included. -/
theorem Reachable.alike_of_refused (hformat : RequestFormat.make properties = .ok format)
    (hcapacity : buffer.capacity ≤ maxPayloadSize) (hpacker : Reachable format buffer packer)
    {item : PlacedPoint} {fault : EncodeError}
    (hrefused : tryWrite item packer = .error fault left) :
    Alike packer left ∧ ∀ (σ : Type) (transport : Transport (StateM σ)) (items : List PlacedPoint),
      Mirrors Alike (items.foldlM (Packer.write transport) packer)
        (items.foldlM (Packer.write transport) left) ∧
      Mirrors Alike (packer.writeAll transport items) (left.writeAll transport items) := by
  have hrested := hpacker.rested hformat hcapacity
  have halike := hrested.refused hrefused
  have htwins : Twins properties packer left := ⟨hrested, halike⟩
  refine ⟨halike, fun σ transport items => ⟨fun state => ?_, fun state => ?_⟩⟩
  · obtain ⟨hstate, hpackers⟩ := htwins.foldlM transport items state
    exact ⟨hstate, hpackers.alike⟩
  · obtain ⟨hstate, hpackers⟩ := htwins.writeAll transport items state
    exact ⟨hstate, hpackers.alike⟩

end

/-! ### A point that is refused behind another -/

/-- A plain point with a value. -/
def plainItem (value : Int64) : PlacedPoint :=
  ⟨0, Session.plainScope, 0, Session.plainMetric, .number ⟨[], .epoch, .epoch, .int value, []⟩⟩

/-- Whether the first point is written and the second is refused behind it. -/
def refusesBehind (first second : PlacedPoint) (packer : Packer) : Bool :=
  match tryWrite first packer with
  | .ok _ next =>
      match tryWrite second next with
      | .ok .. => false
      | .error .. => true
  | .error .. => false

theorem alike_of_refused_plainItem :
    ∃ packer fault left, Reachable Session.plainFormat (Buffer.withCapacity 80) packer ∧
      tryWrite (plainItem 8) packer = .error fault left ∧ Alike packer left ∧
      ∀ (σ : Type) (transport : Transport (StateM σ)) (items : List PlacedPoint),
        Mirrors Alike (items.foldlM (Packer.write transport) packer)
          (items.foldlM (Packer.write transport) left) ∧
        Mirrors Alike (packer.writeAll transport items) (left.writeAll transport items) := by
  have hstart : Reachable Session.plainFormat (Buffer.withCapacity 80)
      (Packer.start Session.plainFormat (Buffer.withCapacity 80) 2) := .start 2
  have hcapacity : (Buffer.withCapacity 80).capacity ≤ maxPayloadSize := by
    rw [Buffer.capacity_withCapacity]
    decide
  have hrefuses : refusesBehind (plainItem 7) (plainItem 8)
      (Packer.start Session.plainFormat (Buffer.withCapacity 80) 2) = true := by
    decide +kernel
  unfold refusesBehind at hrefuses
  cases hfirst : tryWrite (plainItem 7)
      (Packer.start Session.plainFormat (Buffer.withCapacity 80) 2) with
  | error fault left =>
      rw [hfirst] at hrefuses
      cases hrefuses
  | ok result packer =>
      rw [hfirst] at hrefuses
      have hpacker := hstart.written hfirst
      cases hsecond : tryWrite (plainItem 8) packer with
      | ok result next =>
          simp only [hsecond] at hrefuses
          cases hrefuses
      | error fault left =>
          exact ⟨packer, fault, left, hpacker, hsecond,
            hpacker.alike_of_refused Session.make_plain hcapacity hsecond⟩

end Packer

end TelemetryExport
