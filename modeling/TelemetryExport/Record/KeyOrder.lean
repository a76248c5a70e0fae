import TelemetryExport.MessagePack.Reader
import TelemetryExport.Record.Column

/-! # Envelopes in key order

The attributes of a span have no order of their own, so that two envelopes of
one span may differ in the order of the entries that hold them. Here the entries
of an envelope are brought into the order of their keys: those that follow the
fixed columns, and those of the map that holds the rest. Only whole entries
move.
-/

namespace TelemetryExport.KeyOrder

open MessagePack

/-- An entry of a written map: the bytes of its key, as a text and as written,
and the bytes of its value. -/
structure Entry where
  text : List UInt8
  key : List UInt8
  value : List UInt8
  deriving DecidableEq, Repr

/-- The written entry. -/
def Entry.bytes (entry : Entry) : List UInt8 := entry.key ++ entry.value

/-- Whether the entry's key is one of the names. -/
def Entry.isNamed (names : List String) (entry : Entry) : Bool :=
  names.any fun name => name.toUTF8.data.toList == entry.text

/-- The value at the head of the bytes, its own bytes, and the bytes after it. -/
def splitValue? (bytes : List UInt8) : Option (Value × List UInt8 × List UInt8) := do
  let (value, rest) ← Value.read bytes
  return (value, bytes.splitAt (bytes.length - rest.length))

/-- The bytes of a text. -/
def textBytes : Value → List UInt8
  | .text utf8 => utf8
  | _ => []

/-- The first `count` entries of a map's content, and the bytes after them. -/
def splitEntries? : Nat → List UInt8 → Option (List Entry × List UInt8)
  | 0, bytes => some ([], bytes)
  | count + 1, bytes => do
      let (keyValue, key, rest) ← splitValue? bytes
      let (_, value, rest) ← splitValue? rest
      let (entries, rest) ← splitEntries? count rest
      return (⟨textBytes keyValue, key, value⟩ :: entries, rest)

/-- Whether a byte string comes no later than another, byte by byte. -/
def atMost : List UInt8 → List UInt8 → Bool
  | [], _ => true
  | _ :: _, [] => false
  | a :: as, b :: bs => if a = b then atMost as bs else decide (a < b)

/-- Entries in the order of their keys. -/
def sort (entries : List Entry) : List Entry :=
  entries.mergeSort fun entry other => atMost entry.text other.text

/-- Rearranges the entries of the map with a 16-bit count at the head of the bytes. -/
def mapEntries? (arrange : List Entry → List Entry) (bytes : List UInt8) :
    Option (List UInt8) := do
  let marker :: high :: low :: content := bytes | none
  let (entries, rest) ← splitEntries? (high.toNat * 256 + low.toNat) content
  return marker :: high :: low :: (arrange entries).flatMap Entry.bytes ++ rest

/-- The entry with the entries of the map that is its value in key order. -/
def sortValue (entry : Entry) : Entry :=
  { entry with value := (mapEntries? sort entry.value).getD entry.value }

/-- Brings the entries behind the last fixed column into key order. The nested
map stays the last of them. -/
def sortFields (entries : List Entry) : List Entry :=
  let fixed := Entry.isNamed [Column.success, Column.statusMessage, Column.links]
  let attributes := (entries.reverse.takeWhile (!fixed ·)).reverse
  let nested := Entry.isNamed [Column.envProperties]
  entries.take (entries.length - attributes.length)
    ++ sort (attributes.takeWhile (!nested ·))
    ++ (attributes.dropWhile (!nested ·)).map sortValue

/-- The bytes of a span's envelope with its attributes in key order. -/
def sortEnvelope? (bytes : List UInt8) : Option (List UInt8) := do
  let outer :: rest := bytes | none
  let (_, table, rest) ← splitValue? rest
  let middle :: inner :: rest := rest | none
  let (_, time, rest) ← splitValue? rest
  let fields ← mapEntries? sortFields rest
  return outer :: table ++ middle :: inner :: time ++ fields

/-- A span's envelope with its attributes in key order. Anything else is left as it is. -/
def ofEnvelope (envelope : ByteArray) : ByteArray :=
  match sortEnvelope? envelope.data.toList with
  | some bytes => bytes.toByteArray
  | none => envelope

end TelemetryExport.KeyOrder
