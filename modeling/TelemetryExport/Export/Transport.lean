import TelemetryExport.Error

/-! # Transports

A transport takes one complete payload at a time and says whether it was
accepted. Exporters work over any monad in which a transport can send. A scripted
transport answers from a list of verdicts and keeps a journal of what was handed
to it, so that an export becomes a function from verdicts to a journal.
-/

namespace TelemetryExport

/-- What a batch consists of. -/
inductive UnitKind where
  | logRecord
  | span
  | dataPoint
  deriving DecidableEq, Repr

def UnitKind.text : UnitKind → String
  | logRecord => "log record"
  | span => "span"
  | dataPoint => "data point"

/-- What an exporter reports about its work. -/
inductive Event where
  /-- A unit could not be encoded and was left out. -/
  | dropped (kind : UnitKind) (cause : EncodeError)
  /-- The transport did not take a payload of so many units. -/
  | rejected (units : Nat) (cause : TransportError)
  /-- A payload of so many data points and bytes is about to be sent. -/
  | sending (points bytes : Nat)
  deriving DecidableEq, Repr

namespace Event

def isWarning : Event → Bool
  | sending .. => false
  | _ => true

def message : Event → String
  | dropped .. => "dropped unit that could not be encoded"
  | rejected .. => "transport rejected payload"
  | sending .. => "sending metrics payload"

end Event

/-- The answer of a transport to a payload. -/
abbrev Verdict := Except TransportError Unit

/-- Where payloads go, and where exporters report. -/
structure Transport (m : Type → Type) where
  /-- Whether anybody listens. Where nobody does, nothing is encoded. -/
  isEnabled : m Bool
  send : ByteArray → m Verdict
  report : Event → m Unit

/-- The outcome of one export. -/
abbrev Outcome := Except ExporterError Unit

/-- The verdicts still to be given, and what happened so far. -/
structure Journal where
  /-- The answers to the next payloads. Payloads after them are accepted. -/
  verdicts : List Verdict
  /-- Every payload handed over, in order, with the answer to it. -/
  attempts : Array (ByteArray × Verdict) := #[]
  events : Array Event := #[]
  /-- The outcomes of exports made while a payload was being sent. -/
  nested : Array Outcome := #[]

namespace Journal

/-- A journal before the first payload. -/
def start (verdicts : List Verdict) : Journal where
  verdicts

/-- The journal with one more payload handed over, and the answer. -/
def attempt (journal : Journal) (payload : ByteArray) : Verdict × Journal :=
  let verdict := journal.verdicts.headD (.ok ())
  (verdict, { journal with
    verdicts := journal.verdicts.tail
    attempts := journal.attempts.push (payload, verdict) })

/-- The payloads that were accepted, in order. -/
def accepted (journal : Journal) : List ByteArray :=
  journal.attempts.toList.filterMap fun (payload, verdict) =>
    match verdict with
    | .ok () => some payload
    | .error _ => none

/-- The payloads accepted and the events reported since an earlier state of the journal. -/
def since (journal earlier : Journal) : List ByteArray × List Event :=
  (journal.accepted.drop earlier.accepted.length, journal.events.toList.drop earlier.events.size)

end Journal

namespace Transport

/-- A transport that answers by the verdicts of a journal and records in it. -/
def scripted (enabled : Bool) : Transport (StateM Journal) where
  isEnabled := pure enabled
  send payload := modifyGet (·.attempt payload)
  report event := modify fun journal => { journal with events := journal.events.push event }

/-- A transport that makes an export of its own while it sends the payload with
the given number, after that payload was answered. The other payloads, those of
the export among them, are sent as before. -/
def interrupted (transport : Transport (StateM Journal)) (number : Nat)
    (exportNested : StateM Journal Outcome) : Transport (StateM Journal) where
  isEnabled := transport.isEnabled
  send payload := do
    let current := (← get).attempts.size
    let verdict ← transport.send payload
    if current = number then
      let outcome ← exportNested
      modify fun journal => { journal with nested := journal.nested.push outcome }
    return verdict
  report := transport.report

end Transport

end TelemetryExport
