import TelemetryExport.Text.Quoted

/-! # Faults

What can go wrong between a record and a sent payload, one type per stage, and
the wording of each. Every text that a caller may show comes from here.
-/

namespace TelemetryExport

/-- Why an encoding stopped. The bytes written before the fault stay in the
buffer; whoever started the encoding rewinds it. -/
inductive EncodeError where
  /-- A write would run past the end of the buffer. It wrote nothing. -/
  | bufferOverflow (offset requested capacity : Nat)
  /-- A nested message is longer than its reserved length can say. -/
  | lengthOverflow (length : Nat)
  /-- A map or an array has more elements than a 16-bit count can say. -/
  | countOverflow (count : Nat)
  /-- More messages are open at once than the stack of open headers holds. -/
  | nestingTooDeep (limit : Nat)
  /-- The data point has no form in the wire schema. -/
  | invalidDataPoint (reason : String)
  /-- The time of a record lies outside the calendar. -/
  | timeOutOfRange
  deriving DecidableEq, Repr

namespace EncodeError

def message : EncodeError → String
  | bufferOverflow offset requested capacity =>
      s!"buffer overflow: writing {requested} bytes at offset {offset} exceeds capacity {capacity}"
  | lengthOverflow length => s!"nested length {length} does not fit the reserved header"
  | countOverflow count => s!"element count {count} does not fit a 16-bit header"
  | nestingTooDeep limit => s!"reservation stack is full at depth {limit}"
  | invalidDataPoint reason => s!"invalid data point: {reason}"
  | timeOutOfRange => "time is outside the calendar range"

def isOverflow : EncodeError → Bool
  | bufferOverflow .. => true
  | _ => false

end EncodeError

/-- Why a transport did not take a payload. -/
inductive TransportError where
  /-- The system call behind the transport failed with this code. -/
  | win32 (code : UInt32)
  /-- The socket behind the transport failed. -/
  | io (reason : String)
  /-- Nobody listens. -/
  | disabled
  deriving DecidableEq, Repr

def TransportError.message : TransportError → String
  | win32 code => s!"Win32 error: {code}"
  | io reason => s!"socket error: {reason}"
  | disabled => "no listener is enabled for this transport"

/-- Why a configuration was refused. -/
inductive ConfigError where
  /-- The table name is empty or too long. -/
  | tableNameLength (table : String) (longest : Nat)
  /-- The table name holds more than ASCII letters and digits, or starts with a digit. -/
  | tableNameForm (table : String)
  /-- A prepopulated field bears the name of a fixed column. -/
  | reservedField (key : String)
  /-- Two prepopulated fields bear one name. -/
  | repeatedField (key : String)
  /-- The constant part of every record of the table is longer than a payload. -/
  | templateTooLarge (table : String) (cause : EncodeError)
  /-- A category other than the wildcard is mapped to the wildcard table. -/
  | passThrough (wildcard category : String)
  /-- The resource alone is longer than a payload. -/
  | resourceTooLarge (cause : EncodeError)
  | capacityAboveLimit (capacity limit : Nat)
  | capacityBelowHeader (capacity header : Nat)
  /-- A fault that the caller describes. -/
  | other (reason : String)
  deriving DecidableEq, Repr

def ConfigError.message : ConfigError → String
  | tableNameLength table longest =>
      s!"table name {Text.quote table} must be 1 to {longest} characters"
  | tableNameForm table =>
      s!"table name {Text.quote table} must be ASCII alphanumeric and start with a letter"
  | reservedField key => s!"prepopulated field {Text.quote key} collides with a reserved field"
  | repeatedField key => s!"prepopulated field {Text.quote key} is repeated"
  | templateTooLarge table cause =>
      s!"template for table {Text.quote table} does not fit a payload: {cause.message}"
  | passThrough wildcard category =>
      s!"only the {Text.quote wildcard} category may pass through its name, not "
        ++ Text.quote category
  | resourceTooLarge cause => s!"resource attributes do not fit a payload: {cause.message}"
  | capacityAboveLimit capacity limit =>
      s!"buffer capacity {capacity} exceeds the {limit} byte payload limit"
  | capacityBelowHeader capacity header =>
      s!"buffer capacity {capacity} cannot hold the {header} byte record header"
  | other reason => reason

/-- Any fault an exporter can report. -/
inductive ExporterError where
  | encode (cause : EncodeError)
  | transport (cause : TransportError)
  /-- Some units of a batch were lost; the others were sent. -/
  | partialFailure (failed total : Nat)
  | config (cause : ConfigError)
  deriving DecidableEq, Repr

namespace ExporterError

def message : ExporterError → String
  | encode cause => cause.message
  | transport cause => cause.message
  | partialFailure failed total => s!"{failed} of {total} units could not be exported"
  | config cause => s!"invalid exporter configuration: {cause.message}"

/-- The name under which exporters report their faults. -/
def exporterName : String := "etw-wire"

end ExporterError

end TelemetryExport
