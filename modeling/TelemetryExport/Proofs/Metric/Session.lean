import TelemetryExport.Proofs.Metric.Holds

/-! # Sessions with an encoder

Everything that may be done to one encoder: messages are opened in the order of the
schema, points of the open instrument's kind are written, messages that hold a point
are closed, and whatever failed is taken back, together with what was opened and
closed since the last point. The tree of a session is what was written and not taken
back. After every point the whole payload is read as that tree.
-/

namespace TelemetryExport

open WrittenField OpenMessage RequestEncoder

/-- An encoder in use. -/
structure Session where
  encoder : RequestEncoder
  /-- What was written and not taken back. -/
  tree : Message.Request
  /-- How many of the innermost open messages hold no point yet. -/
  unfilled : Nat
  /-- Whether no operation failed that was not taken back. -/
  intact : Bool
  /-- The checkpoint taken after the last point, or at the start. -/
  saved : RequestCheckpoint
  /-- The tree at that checkpoint. -/
  savedTree : Message.Request

namespace Session

/-- The state after a point was written: everything is saved. -/
def savedAt (encoder : RequestEncoder) (tree : Message.Request) : Session where
  encoder
  tree
  unfilled := 0
  intact := true
  saved := encoder.checkpoint
  savedTree := tree

/-- A session with nothing written, over a buffer with any content. -/
def start (format : RequestFormat) (buffer : Buffer) : Session :=
  savedAt (format.start buffer) {}

/-- What may be done next. -/
inductive Action where
  /-- Opens a message. -/
  | opened (opening : Opening)
  /-- Fails to open a message. -/
  | unopened (opening : Opening)
  /-- Writes a point. -/
  | emitted (point : DataPoint)
  /-- Fails to write a point. -/
  | unemitted (point : DataPoint)
  /-- Closes the messages at a depth and deeper. -/
  | closed (depth : Nat)
  /-- Goes back to the checkpoint. -/
  | rewound
  /-- Drops the request and starts an empty one. -/
  | reset

/-- What each action requires and leads to. -/
inductive Step (properties : List Attribute) (session : Session) : Action → Session → Prop where
  | opened {opening : Opening} {encoder : RequestEncoder} {tree : Message.Request}
      (hintact : session.intact = true) (hdepth : session.encoder.depth = opening.depth)
      (hrun : opening.run session.encoder = .ok () encoder)
      (htree : opening.change properties session.tree = some tree) :
      Step properties session (.opened opening)
        { session with encoder, tree, unfilled := session.unfilled + 1 }
  | unopened {opening : Opening} {fault : EncodeError} {encoder : RequestEncoder}
      (hintact : session.intact = true) (hdepth : session.encoder.depth = opening.depth)
      (hrun : opening.run session.encoder = .error fault encoder) :
      Step properties session (.unopened opening) { session with encoder, intact := false }
  | emitted {point : DataPoint} {encoder : RequestEncoder} {tree : Message.Request}
      (hintact : session.intact = true) (hdepth : session.encoder.depth = Level.dataPoint)
      (hrun : emit point session.encoder = .ok () encoder)
      (htree : Message.Request.addPoint point session.tree = some tree) :
      Step properties session (.emitted point) (savedAt encoder tree)
  | unemitted {point : DataPoint} {fault : EncodeError} {encoder : RequestEncoder}
      (hintact : session.intact = true) (hdepth : session.encoder.depth = Level.dataPoint)
      (hrun : emit point session.encoder = .error fault encoder) :
      Step properties session (.unemitted point) { session with encoder, intact := false }
  | closed {depth : Nat} (hintact : session.intact = true)
      (hfilled : session.unfilled = 0 ∨ session.encoder.depth ≤ depth) :
      Step properties session (.closed depth)
        { session with encoder := session.encoder.closeTo depth }
  | rewound :
      Step properties session .rewound
        (savedAt (session.encoder.rewind session.saved) session.savedTree)
  | reset : Step properties session .reset (savedAt session.encoder.reset {})

/-- The sessions that any order of actions may lead to. -/
inductive Reachable (properties : List Attribute) (first : Session) : Session → Prop where
  | start : Reachable properties first first
  | step {session next : Session} {action : Action}
      (hreachable : Reachable properties first session)
      (hstep : Step properties session action next) : Reachable properties first next

variable {properties : List Attribute} {session next : Session}

/-! ### Closing -/

theorem depth_closeTo (encoder : RequestEncoder) (depth : Nat) :
    (encoder.closeTo depth).depth = min encoder.depth depth := rfl

/-- Closing leaves the messages around the given depth open and no others. -/
theorem Step.depth_of_closed {depth : Nat} (hstep : Step properties session (.closed depth) next) :
    next.encoder.depth = min session.encoder.depth depth := by
  cases hstep with
  | closed hintact hfilled => exact depth_closeTo session.encoder depth

/-- Once the messages at its depth are closed, an opening is at its place, next to them. -/
theorem Step.depth_of_closed_opening {opening : Opening}
    (hstep : Step properties session (.closed opening.depth) next)
    (hdepth : opening.depth ≤ session.encoder.depth) : next.encoder.depth = opening.depth := by
  rw [hstep.depth_of_closed, Nat.min_eq_right hdepth]

/-! ### Running actions -/

/-- The session after an action, unless something that the action requires is missing. -/
def perform (properties : List Attribute) (session : Session) : Action → Option Session
  | .opened opening =>
      match session.intact && session.encoder.depth == opening.depth,
        opening.run session.encoder, opening.change properties session.tree with
      | true, .ok _ encoder, some tree =>
          some { session with encoder, tree, unfilled := session.unfilled + 1 }
      | _, _, _ => none
  | .unopened opening =>
      match session.intact && session.encoder.depth == opening.depth,
        opening.run session.encoder with
      | true, .error _ encoder => some { session with encoder, intact := false }
      | _, _ => none
  | .emitted point =>
      match session.intact && session.encoder.depth == Level.dataPoint,
        emit point session.encoder, Message.Request.addPoint point session.tree with
      | true, .ok _ encoder, some tree => some (savedAt encoder tree)
      | _, _, _ => none
  | .unemitted point =>
      match session.intact && session.encoder.depth == Level.dataPoint,
        emit point session.encoder with
      | true, .error _ encoder => some { session with encoder, intact := false }
      | _, _ => none
  | .closed depth =>
      if session.intact = true ∧ (session.unfilled = 0 ∨ session.encoder.depth ≤ depth) then
        some { session with encoder := session.encoder.closeTo depth }
      else none
  | .rewound => some (savedAt (session.encoder.rewind session.saved) session.savedTree)
  | .reset => some (savedAt session.encoder.reset {})

theorem step_of_perform {action : Action} (hperform : session.perform properties action = some next) :
    Step properties session action next := by
  cases action with
  | opened opening =>
      simp only [perform] at hperform
      split at hperform
      next hready hrun htree =>
        rw [Bool.and_eq_true, beq_iff_eq] at hready
        cases hperform
        exact .opened hready.1 hready.2 hrun htree
      next => cases hperform
  | unopened opening =>
      simp only [perform] at hperform
      split at hperform
      next hready hrun =>
        rw [Bool.and_eq_true, beq_iff_eq] at hready
        cases hperform
        exact .unopened hready.1 hready.2 hrun
      next => cases hperform
  | emitted point =>
      simp only [perform] at hperform
      split at hperform
      next hready hrun htree =>
        rw [Bool.and_eq_true, beq_iff_eq] at hready
        cases hperform
        exact .emitted hready.1 hready.2 hrun htree
      next => cases hperform
  | unemitted point =>
      simp only [perform] at hperform
      split at hperform
      next hready hrun =>
        rw [Bool.and_eq_true, beq_iff_eq] at hready
        cases hperform
        exact .unemitted hready.1 hready.2 hrun
      next => cases hperform
  | closed depth =>
      simp only [perform] at hperform
      split at hperform
      next hready =>
        cases hperform
        exact .closed hready.1 hready.2
      next => cases hperform
  | rewound =>
      cases hperform
      exact .rewound
  | reset =>
      cases hperform
      exact .reset

theorem Step.perform_eq {action : Action} (hstep : Step properties session action next) :
    session.perform properties action = some next := by
  cases hstep with
  | opened hintact hdepth hrun htree => simp [perform, hintact, hdepth, hrun, htree]
  | unopened hintact hdepth hrun => simp [perform, hintact, hdepth, hrun]
  | emitted hintact hdepth hrun htree => simp [perform, hintact, hdepth, hrun, htree]
  | unemitted hintact hdepth hrun => simp [perform, hintact, hdepth, hrun]
  | closed hintact hfilled => exact if_pos ⟨hintact, hfilled⟩
  | rewound => rfl
  | reset => rfl

/-- What an action leads to can be computed. -/
theorem perform_eq_some_iff {action : Action} :
    session.perform properties action = some next ↔ Step properties session action next :=
  ⟨step_of_perform, Step.perform_eq⟩

/-- The session after actions in a row. -/
def performAll (properties : List Attribute) : List Action → Session → Option Session
  | [], session => some session
  | action :: rest, session =>
      match session.perform properties action with
      | some next => performAll properties rest next
      | none => none

theorem Reachable.performAll {first : Session} (hreachable : Reachable properties first session)
    {actions : List Action} (hall : Session.performAll properties actions session = some next) :
    Reachable properties first next := by
  induction actions generalizing session with
  | nil =>
      cases hall
      exact hreachable
  | cons action rest ih =>
      rw [Session.performAll] at hall
      split at hall
      next middle hmiddle => exact ih (hreachable.step (perform_eq_some_iff.mp hmiddle)) hall
      next => cases hall

/-! ## The invariant -/

/-- The instrument whose message is open is known. -/
def InstrumentOpen (encoder : RequestEncoder) (opens : List OpenMessage) : Prop :=
  Level.instrument < opens.length → ∃ kind, encoder.instrument = some kind

/-- The encoder holds the tree; with every message filled, the bytes are the tree's. -/
def Current (session : Session) : Prop :=
  ∃ fields opens, Holds session.encoder session.tree fields opens ∧
    InstrumentOpen session.encoder opens ∧
    (session.unfilled = 0 → Completes session.encoder fields opens)

/-- The checkpoint is that of an encoder that presents the saved tree and of which
everything is still there. -/
def Saved (session : Session) : Prop :=
  ∃ base fields opens, base.checkpoint = session.saved ∧ Keeps base session.encoder ∧
    Holds base session.savedTree fields opens ∧ InstrumentOpen base opens ∧
    Completes base fields opens

/-- What holds of every reachable session. -/
structure Sound (properties : List Attribute) (session : Session) : Prop where
  resource_eq : session.encoder.resource.data.toList =
    encodeAll [RequestFormat.resourceField properties]
  current : session.intact = true → Current session
  saved : Saved session

theorem sound_savedAt {encoder : RequestEncoder} {tree : Message.Request}
    {fields : List WrittenField} {opens : List OpenMessage}
    (hresource : encoder.resource.data.toList =
      encodeAll [RequestFormat.resourceField properties])
    (hholds : Holds encoder tree fields opens) (hinstrument : InstrumentOpen encoder opens)
    (hcompletes : Completes encoder fields opens) : Sound properties (savedAt encoder tree) where
  resource_eq := hresource
  current := fun _ => ⟨fields, opens, hholds, hinstrument, fun _ => hcompletes⟩
  saved := ⟨encoder, fields, opens, rfl, ⟨rfl, hcompletes.valid.extends_self⟩, hholds,
    hinstrument, hcompletes⟩

/-- What is left after a failure or an opening still has everything that was saved. -/
theorem Saved.of_keeps (hsaved : Saved session) {encoder : RequestEncoder}
    (hkeeps : Keeps session.encoder encoder) {tree : Message.Request} {unfilled : Nat}
    {intact : Bool} : Saved { session with encoder, tree, unfilled, intact } := by
  obtain ⟨base, fields, opens, hcheckpoint, hbase, hrest⟩ := hsaved
  exact ⟨base, fields, opens, hcheckpoint,
    ⟨hkeeps.resource_eq.trans hbase.resource_eq,
      hbase.extends_buffer.trans hkeeps.extends_buffer⟩, hrest⟩

theorem instrumentOpen_opened {encoder after : RequestEncoder} {opens : List OpenMessage}
    {opening : Opening} (hdepth : opens.length = opening.depth)
    (hafter : after.instrument = opening.instrumentAfter encoder.instrument)
    (opened : OpenMessage) : InstrumentOpen after (opens ++ [opened]) := by
  intro hlength
  rw [List.length_append, hdepth] at hlength
  cases opening with
  | instrument data => exact ⟨_, hafter⟩
  | resource => exact absurd hlength (Nat.not_lt_of_le (Nat.le_of_ble_eq_true rfl))
  | scope opened => exact absurd hlength (Nat.not_lt_of_le (Nat.le_of_ble_eq_true rfl))
  | metric opened => exact absurd hlength (Nat.not_lt_of_le (Nat.le_of_ble_eq_true rfl))

theorem instrumentOpen_closeTo {encoder : RequestEncoder} {opens closed : List OpenMessage}
    {depth : Nat} (hinstrument : InstrumentOpen encoder opens)
    (hlength : closed.length = min depth opens.length) :
    InstrumentOpen (encoder.closeTo depth) closed := by
  intro hclosed
  rw [hlength, Nat.lt_min] at hclosed
  obtain ⟨kind, hkind⟩ := hinstrument hclosed.2
  refine ⟨kind, ?_⟩
  rw [← hkind]
  exact if_neg (Nat.not_le_of_lt hclosed.1)

theorem Sound.opened (hsound : Sound properties session) {opening : Opening}
    {encoder : RequestEncoder} {tree : Message.Request} (hintact : session.intact = true)
    (hdepth : session.encoder.depth = opening.depth)
    (hrun : opening.run session.encoder = .ok () encoder)
    (htree : opening.change properties session.tree = some tree) :
    Sound properties { session with encoder, tree, unfilled := session.unfilled + 1 } := by
  obtain ⟨fields, opens, hholds, -, -⟩ := hsound.current hintact
  rw [hholds.depth_eq] at hdepth
  obtain ⟨hkeeps, hinstrument, hopened⟩ := hholds.open_of_ok hsound.resource_eq hdepth hrun htree
  refine ⟨?_, fun _ => ?_, hsound.saved.of_keeps hkeeps⟩
  · change encoder.resource.data.toList = _
    rw [hkeeps.resource_eq, hsound.resource_eq]
  · exact ⟨fields, _, hopened, instrumentOpen_opened hdepth hinstrument _,
      fun hunfilled => absurd hunfilled (Nat.succ_ne_zero _)⟩

theorem Sound.failed (hsound : Sound properties session) {encoder : RequestEncoder}
    (hkeeps : Keeps session.encoder encoder) :
    Sound properties { session with encoder, intact := false } := by
  refine ⟨?_, fun hintact => absurd hintact Bool.false_ne_true, hsound.saved.of_keeps hkeeps⟩
  change encoder.resource.data.toList = _
  rw [hkeeps.resource_eq, hsound.resource_eq]

theorem Sound.emitted (hsound : Sound properties session) {point : DataPoint}
    {encoder : RequestEncoder} {tree : Message.Request} (hintact : session.intact = true)
    (hdepth : session.encoder.depth = Level.dataPoint)
    (hrun : emit point session.encoder = .ok () encoder)
    (htree : Message.Request.addPoint point session.tree = some tree) :
    Sound properties (savedAt encoder tree) := by
  obtain ⟨fields, opens, hholds, hopen, -⟩ := hsound.current hintact
  rw [hholds.depth_eq] at hdepth
  obtain ⟨kind, hkind⟩ := hopen (by rw [hdepth]; decide)
  obtain ⟨hemitted, hcompletes, hresource, hinstrument⟩ :=
    hholds.emit_of_ok hkind hdepth hrun htree
  apply sound_savedAt _ hemitted _ hcompletes
  · rw [hresource, hsound.resource_eq]
  · intro _
    exact ⟨kind, hinstrument.trans hkind⟩

theorem Sound.closed (hsound : Sound properties session) {depth : Nat}
    (hintact : session.intact = true)
    (hfilled : session.unfilled = 0 ∨ session.encoder.depth ≤ depth) :
    Sound properties { session with encoder := session.encoder.closeTo depth } := by
  obtain ⟨fields, opens, hholds, hopen, hcomplete⟩ := hsound.current hintact
  have hkeeps : Keeps session.encoder (session.encoder.closeTo depth) :=
    ⟨rfl, hholds.valid.extends_self⟩
  refine ⟨hsound.resource_eq, fun _ => ?_, hsound.saved.of_keeps hkeeps⟩
  -- Either every header is right already, or no message is closed.
  by_cases hunfilled : session.unfilled = 0
  · have hcompletes := hcomplete hunfilled
    exact ⟨_, _, hholds.closeTo hcompletes depth,
      instrumentOpen_closeTo hopen (length_close depth fields opens),
      fun _ => hcompletes.closeTo depth⟩
  · have hdepth := hfilled.resolve_left hunfilled
    rw [hholds.depth_eq] at hdepth
    refine ⟨fields, opens, ⟨hholds.toDrafts.closeTo_of_le hdepth, hholds.numbered,
      hholds.absorbs⟩, ?_, fun hzero => absurd hzero hunfilled⟩
    exact instrumentOpen_closeTo hopen (Nat.min_eq_right hdepth).symm

theorem Sound.rewound (hsound : Sound properties session) :
    Sound properties (savedAt (session.encoder.rewind session.saved) session.savedTree) := by
  obtain ⟨base, fields, opens, hcheckpoint, hkeeps, hholds, hopen, hcompletes⟩ := hsound.saved
  rw [← hcheckpoint]
  exact sound_savedAt hsound.resource_eq (hholds.rewind hcompletes hkeeps) hopen
    (hkeeps.rewind hcompletes)

theorem Saved.capacity_le (hsaved : Saved session) :
    session.encoder.buffer.capacity ≤ maxPayloadSize := by
  obtain ⟨base, fields, opens, -, hkeeps, hholds, -, -⟩ := hsaved
  exact (hkeeps.extends_buffer.valid hholds.valid).capacity_le

/-- Every action keeps the invariant. -/
theorem Sound.step (hsound : Sound properties session) {action : Action}
    (hstep : Step properties session action next) : Sound properties next := by
  cases hstep with
  | opened hintact hdepth hrun htree => exact hsound.opened hintact hdepth hrun htree
  | @unopened opening fault encoder hintact hdepth hrun =>
      obtain ⟨fields, opens, hholds, -, -⟩ := hsound.current hintact
      rw [hholds.depth_eq] at hdepth
      have hle := opening.depth_le
      -- A failed opening is not taken back yet; it only must not touch what was saved.
      obtain ⟨writer, hopens, hwrites⟩ := opening.exists_writer hsound.resource_eq
      exact hsound.failed (hholds.toDrafts.begin_of_error hopens hwrites (by omega) hrun)
  | emitted hintact hdepth hrun htree => exact hsound.emitted hintact hdepth hrun htree
  | unemitted hintact hdepth hrun =>
      obtain ⟨fields, opens, hholds, -, -⟩ := hsound.current hintact
      rw [hholds.depth_eq] at hdepth
      exact hsound.failed (hholds.toDrafts.emit_of_error (by rw [hdepth]; decide) hrun)
  | closed hintact hfilled => exact hsound.closed hintact hfilled
  | rewound => exact hsound.rewound
  | reset =>
      obtain ⟨hholds, hcompletes⟩ := completes_reset hsound.saved.capacity_le
      exact sound_savedAt hsound.resource_eq hholds
        (fun hdepth => absurd hdepth (Nat.not_lt_zero _)) hcompletes

theorem sound_start {format : RequestFormat} (hformat : RequestFormat.make properties = .ok format)
    {buffer : Buffer} (hcapacity : buffer.capacity ≤ maxPayloadSize) :
    Sound properties (start format buffer) := by
  obtain ⟨hholds, hcompletes⟩ := completes_start format hcapacity
  exact sound_savedAt (RequestFormat.toList_resource_of_make hformat) hholds
    (fun hdepth => absurd hdepth (Nat.not_lt_zero _)) hcompletes

theorem Reachable.sound {first : Session} (hfirst : Sound properties first)
    (hreachable : Reachable properties first session) : Sound properties session := by
  induction hreachable with
  | start => exact hfirst
  | step _ hstep ih => exact ih.step hstep

/-- A session in which every open message holds a point presents its tree. -/
theorem Sound.presents (hsound : Sound properties session) (hintact : session.intact = true)
    (hfilled : session.unfilled = 0) : Presents session.encoder session.tree := by
  obtain ⟨fields, opens, hholds, -, hcomplete⟩ := hsound.current hintact
  exact ⟨fields, opens, hholds, hcomplete hfilled⟩

/-- No opening at its place is ruled out for want of a tree. -/
theorem Sound.exists_step_opened (hsound : Sound properties session) {opening : Opening}
    {encoder : RequestEncoder} (hintact : session.intact = true)
    (hdepth : session.encoder.depth = opening.depth)
    (hinstrument : ∀ data, opening ≠ .instrument data)
    (hrun : opening.run session.encoder = .ok () encoder) :
    ∃ next, Step properties session (.opened opening) next := by
  obtain ⟨fields, opens, hholds, -, -⟩ := hsound.current hintact
  have hopening := hdepth
  rw [hholds.depth_eq] at hopening
  obtain ⟨tree, htree⟩ :=
    Option.isSome_iff_exists.mp (hholds.change_isSome properties hopening hinstrument)
  exact ⟨_, .opened hintact hdepth hrun htree⟩

/-- After every point, the whole payload is read as what was written and not taken
back. -/
theorem decode_payload_of_emitted {format : RequestFormat}
    (hformat : RequestFormat.make properties = .ok format) {buffer : Buffer}
    (hcapacity : buffer.capacity ≤ maxPayloadSize)
    (hreachable : Reachable properties (start format buffer) session) {point : DataPoint}
    (hstep : Step properties session (.emitted point) next) :
    Message.Request.decode next.encoder.payload = some next.tree := by
  have hsound := (hreachable.sound (sound_start hformat hcapacity)).step hstep
  cases hstep with
  | emitted hintact hdepth hrun htree => exact (hsound.presents rfl rfl).decode

/-! ### Two scopes -/

def plainScope : Scope := ⟨"", none, []⟩

def plainMetric : Metric := ⟨plainScope, "", "", "", .gauge []⟩

def plainPoint : DataPoint := .number ⟨[], .epoch, .epoch, .int 7, []⟩

/-- The format for a resource without attributes. -/
def plainFormat : RequestFormat := ⟨(encodeAll [RequestFormat.resourceField []]).toByteArray⟩

theorem make_plain : RequestFormat.make [] = .ok plainFormat :=
  RequestFormat.make_of_le (by decide +kernel)

/-- The messages around a plain point, outermost first. -/
def plainOpenings : List Opening :=
  [.resource, .scope plainScope, .metric plainMetric, .instrument plainMetric.data]

/-- What arrives of a plain point. -/
def plainTree : Message.Request :=
  ⟨[{ resource := some ⟨[]⟩
      scopes := [{ scope := some {}
                   metrics := [{ data := some (.gauge [{ value := some (.int 7) }]) }] }] }]⟩

/-- A metric whose description does not fit behind a plain point. -/
def wordyMetric : Metric :=
  ⟨plainScope, "", "more than is left of the buffer behind a point with all around it", "",
    .gauge []⟩

/-- A plain point, a metric that fails and is taken back together with what was closed for
it, and the messages of a sum of another scope. -/
def twoScopes : List Action :=
  plainOpenings.map .opened ++
    [.emitted plainPoint, .closed Level.metric, .unopened (.metric wordyMetric), .rewound,
      .closed Level.scope, .opened (.scope ⟨"b", none, []⟩), .opened (.metric plainMetric),
      .opened (.instrument (.sum [] .delta false))]

/-- What arrives of the two points. -/
def twoScopesTree : Message.Request :=
  ⟨[{ resource := some ⟨[]⟩
      scopes :=
        [{ scope := some {}
           metrics := [{ data := some (.gauge [{ value := some (.int 7) }]) }] },
         { scope := some { name := "b" }
           metrics :=
             [{ data := some (.sum [{ value := some (.int 9) }] 1 false) }] }] }]⟩

theorem decode_payload_of_twoScopes :
    ∃ session next, Reachable [] (start plainFormat (Buffer.withCapacity 115)) session ∧
      Session.performAll [] twoScopes (start plainFormat (Buffer.withCapacity 115)) =
        some session ∧
      Step [] session (.emitted (.number ⟨[], .epoch, .epoch, .int 9, []⟩)) next ∧
      Message.Request.decode next.encoder.payload = some twoScopesTree := by
  have hperform :
      ((performAll [] twoScopes (start plainFormat (Buffer.withCapacity 115))).any fun session =>
        (session.perform [] (.emitted (.number ⟨[], .epoch, .epoch, .int 9, []⟩))).any
          (·.tree == twoScopesTree)) = true := by
    decide +kernel
  obtain ⟨session, hsession, hnext⟩ := (Option.any_eq_true ..).mp hperform
  obtain ⟨next, hnext, htree⟩ := (Option.any_eq_true ..).mp hnext
  have hreachable := Reachable.start.performAll hsession
  have hstep := perform_eq_some_iff.mp hnext
  have hcapacity : (Buffer.withCapacity 115).capacity ≤ maxPayloadSize := by
    rw [Buffer.capacity_withCapacity]
    decide
  refine ⟨session, next, hreachable, hsession, hstep, ?_⟩
  rw [← beq_iff_eq.mp htree]
  exact decode_payload_of_emitted make_plain hcapacity hreachable hstep

end Session

end TelemetryExport
