import TelemetryExport.MessagePack.Writer

/-! # Maps of unknown size

A map whose entries are written one by one and counted. Its header is reserved
when it opens and gets the count when it closes.
-/

namespace TelemetryExport.MessagePack

/-- A map that takes entries: its reserved header and the number of entries so far. -/
structure OpenMap where
  slot : Slot
  count : Nat

namespace OpenMap

/-- Opens a map at the cursor. -/
def start : Encode OpenMap := do
  return ⟨← Encode.reserveCounted, 0⟩

/-- Writes a key and then its value, and counts the entry. -/
def entry (map : OpenMap) (key : String) (writeValue : Encode Unit) : Encode OpenMap := do
  writeText key
  writeValue
  return { map with count := map.count + 1 }

/-- Writes an entry with a scalar value. A null value writes and counts nothing. -/
def field (map : OpenMap) (key : String) (value : Scalar) : Encode OpenMap :=
  if value.isNull then pure map else map.entry key (writeScalar value)

/-- Writes an entry for each property, in order. -/
def fields (map : OpenMap) (properties : List Attribute) : Encode OpenMap :=
  properties.foldlM (fun map property => map.field property.key property.value) map

/-- Gives the map's header the number of its entries. -/
def close (map : OpenMap) : Encode Unit :=
  Encode.patchMap map.slot map.count

end OpenMap

end TelemetryExport.MessagePack
