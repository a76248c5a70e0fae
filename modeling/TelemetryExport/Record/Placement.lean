import Std.Data.HashSet
import TelemetryExport.Attribute

/-! # Placing properties

A property of a record goes to the record's field map or to the nested map of
the rest, under its own key or under a column's name. Where several properties
have one destination, one is kept: the last of those that were renamed to it, or
the last of all if none was.
-/

namespace TelemetryExport

/-- What a record kind wants for a key: a column of its own, a column of another
name, or a place among the rest. -/
inductive ColumnChoice where
  | dedicated
  | renamed (column : String)
  | deferred
  deriving DecidableEq, Repr

/-- Where a property is written: in which map, and under which key. -/
structure Destination where
  nested : Bool
  key : String
  deriving DecidableEq, Hashable, Repr

/-- A property with its destination, and whether that is a column of another name. -/
structure Placed where
  destination : Destination
  value : Scalar
  renamed : Bool
  deriving DecidableEq, Repr

namespace Placed

/-- The destination of a key. A key that the record writes itself is nested
under its own name, and so is one whose column the record writes itself. -/
def place (claims : String → Bool) (choose : String → ColumnChoice) (property : Attribute) :
    Placed :=
  let nested : Placed := ⟨⟨true, property.key⟩, property.value, false⟩
  if claims property.key then nested
  else match choose property.key with
    | .dedicated => ⟨⟨false, property.key⟩, property.value, false⟩
    | .renamed column =>
        if claims column then nested else ⟨⟨false, column⟩, property.value, true⟩
    | .deferred => nested

/-- The property as it is written. -/
def toAttribute (placed : Placed) : Attribute :=
  ⟨placed.destination.key, placed.value⟩

/-- One step from the back: an entry stays unless its destination was seen. -/
def keepUnseen (entry : Placed) (later : Std.HashSet Destination × List Placed) :
    Std.HashSet Destination × List Placed :=
  if later.1.contains entry.destination then later
  else (later.1.insert entry.destination, entry :: later.2)

/-- The last entry of each destination, in the order of the entries. -/
def keepLast (entries : List Placed) : List Placed :=
  (entries.foldr keepUnseen (∅, [])).2

/-- The destinations that a renamed property has. -/
def renamedTo (entries : List Placed) : Std.HashSet Destination :=
  Std.HashSet.ofList ((entries.filter (·.renamed)).map (·.destination))

/-- The entries that are written, in their order: a renamed property displaces
any other at its destination, and a later one an earlier one. -/
def survivors (entries : List Placed) : List Placed :=
  let columns := renamedTo entries
  keepLast (entries.filter fun entry => entry.renamed || !columns.contains entry.destination)

end Placed

end TelemetryExport
