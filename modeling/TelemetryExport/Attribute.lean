import TelemetryExport.Number.Shortest

/-! # Attributes

An attribute is a key with a scalar of one of the kinds that both wire formats
carry. Everything else is folded into them: characters become texts, integers of
every width become 64-bit signed ones, unsigned integers beyond those become
their decimal digits, and arrays become the text that displays them.
-/

namespace TelemetryExport

/-- The value of an attribute. -/
inductive Scalar where
  | text (value : String)
  | bool (value : Bool)
  | int (value : Int64)
  | double (value : Binary64)
  /-- No value. Neither wire format writes the attribute. -/
  | null
  deriving DecidableEq, Repr

def Scalar.isNull : Scalar → Bool
  | .null => true
  | _ => false

/-- A named property of a record, a data point or a resource. -/
structure Attribute where
  key : String
  value : Scalar
  deriving DecidableEq, Repr

theorem Scalar.isNull_eq (value : Scalar) : value.isNull = decide (value = .null) := by
  cases value <;> rfl

theorem Attribute.filter_ne_null (properties : List Attribute) :
    properties.filter (·.value ≠ .null) = properties.filter (!·.value.isNull) := by
  simp only [Scalar.isNull_eq, decide_not, ne_eq]

/-- Types whose values can be the value of an attribute. -/
class ToScalar (α : Type) where
  toScalar : α → Scalar

export ToScalar (toScalar)

namespace ToScalar

instance : ToScalar Scalar := ⟨id⟩
instance : ToScalar String := ⟨.text⟩
instance : ToScalar Char := ⟨fun c => .text c.toString⟩
instance : ToScalar Bool := ⟨.bool⟩
instance : ToScalar Int8 := ⟨fun n => .int n.toInt64⟩
instance : ToScalar Int16 := ⟨fun n => .int n.toInt64⟩
instance : ToScalar Int32 := ⟨fun n => .int n.toInt64⟩
instance : ToScalar Int64 := ⟨.int⟩
instance : ToScalar ISize := ⟨fun n => .int n.toInt64⟩
instance : ToScalar UInt8 := ⟨fun n => .int n.toUInt64.toInt64⟩
instance : ToScalar UInt16 := ⟨fun n => .int n.toUInt64.toInt64⟩
instance : ToScalar UInt32 := ⟨fun n => .int n.toUInt64.toInt64⟩

/-- An unsigned integer beyond the signed range becomes its decimal digits. -/
instance : ToScalar UInt64 :=
  ⟨fun n => if n.toNat < 0x8000000000000000 then .int n.toInt64 else .text (toString n.toNat)⟩

instance : ToScalar USize := ⟨fun n => toScalar n.toUInt64⟩
instance : ToScalar Binary64 := ⟨.double⟩

instance {α : Type} [ToScalar α] : ToScalar (Option α) :=
  ⟨fun value => match value with
    | some value => toScalar value
    | none => .null⟩

end ToScalar

/-- The value of a span attribute as instrumented code sets it: a scalar or an
array of scalars of one kind. -/
inductive AnyValue where
  | bool (value : Bool)
  | int (value : Int64)
  | double (value : Binary64)
  | text (value : String)
  | bools (values : List Bool)
  | ints (values : List Int64)
  | doubles (values : List Binary64)
  | texts (values : List String)
  deriving DecidableEq, Repr

namespace AnyValue

/-- The text of an array: its elements between brackets, separated by commas alone. This is
an assumption about the toolkit that hands over the values, whose own text of an array is
what the exporter writes. -/
def display (elements : List String) : String :=
  "[" ++ ",".intercalate elements ++ "]"

/-- A text as an element of an array: between quotes, as it stands. This is likewise assumed
of the toolkit; in particular quotes inside the text are not escaped. -/
def displayText (text : String) : String :=
  "\"" ++ text ++ "\""

instance : ToScalar AnyValue :=
  ⟨fun value => match value with
    | .bool value => .bool value
    | .int value => .int value
    | .double value => .double value
    | .text value => .text value
    | .bools values => .text (display (values.map toString))
    | .ints values => .text (display (values.map fun n => toString n.toInt))
    | .doubles values => .text (display (values.map Binary64.text))
    | .texts values => .text (display (values.map displayText))⟩

end AnyValue

end TelemetryExport
