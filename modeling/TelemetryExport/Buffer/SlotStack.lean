import TelemetryExport.Buffer.Slot

/-! # Open headers

The headers of the messages that are open at once, outermost first. The schema
bounds how many there can be, so the stack has a fixed number of places and a
depth. Places at or past the depth keep what was last put there; nothing shows
them.
-/

namespace TelemetryExport

/-- At most `limit` reserved headers, of which the first `depth` are open. -/
structure SlotStack (limit : Nat) where
  places : Vector Slot limit
  depth : Nat
  depth_le : depth ≤ limit := by omega

namespace SlotStack

variable {limit : Nat}

def empty : SlotStack limit where
  places := Vector.replicate limit default
  depth := 0

/-- The open headers, outermost first. -/
def toList (stack : SlotStack limit) : List Slot :=
  stack.places.toList.take stack.depth

def isEmpty (stack : SlotStack limit) : Bool := stack.depth == 0

/-- Opens one more header, if a place is left. -/
def push (stack : SlotStack limit) (slot : Slot) : Except EncodeError (SlotStack limit) :=
  if h : stack.depth < limit then
    .ok { places := stack.places.set stack.depth slot h, depth := stack.depth + 1 }
  else .error (.nestingTooDeep limit)

/-- The open header at a depth counted from the outermost. -/
def get? (stack : SlotStack limit) (depth : Nat) : Option Slot :=
  if depth < stack.depth then stack.places[depth]? else none

/-- The innermost open header. -/
def top? (stack : SlotStack limit) : Option Slot :=
  if stack.depth = 0 then none else stack.places[stack.depth - 1]?

/-- Closes every header deeper than `depth`. -/
def truncate (stack : SlotStack limit) (depth : Nat) : SlotStack limit where
  places := stack.places
  depth := min stack.depth depth
  depth_le := Nat.le_trans (Nat.min_le_left ..) stack.depth_le

def clear (stack : SlotStack limit) : SlotStack limit := stack.truncate 0

/-- Closes the innermost header and returns it. -/
def pop (stack : SlotStack limit) : Option Slot × SlotStack limit :=
  (stack.top?, stack.truncate (stack.depth - 1))

/-- The open headers, innermost first. -/
def innermostFirst (stack : SlotStack limit) : List Slot :=
  stack.toList.reverse

end SlotStack

end TelemetryExport
