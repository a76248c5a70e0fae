import TelemetryExport.Bytes

/-! # Reading MessagePack

Values as the format defines them, and a reader for all its formats. The reader
takes the value at the head of a byte list and returns it with the bytes after
it. Texts are kept as their bytes.
-/

namespace TelemetryExport.MessagePack

/-- A decoded value. -/
inductive Value where
  | nil
  | bool (value : Bool)
  | int (value : Int)
  | float (bits : UInt32)
  | double (bits : UInt64)
  | text (utf8 : List UInt8)
  | binary (bytes : List UInt8)
  | array (items : List Value)
  | map (entries : List (Value × Value))
  | extension (kind : UInt8) (bytes : List UInt8)

namespace Value

/-- The first `count` bytes and the rest, if there are as many. -/
def split? (count : Nat) (bytes : List UInt8) : Option (List UInt8 × List UInt8) :=
  let head := bytes.take count
  if head.length = count then some (head, bytes.drop count) else none

/-- The number in the first `width` bytes, most significant first, and the rest. -/
def unsigned? (width : Nat) (bytes : List UInt8) : Option (Nat × List UInt8) :=
  (split? width bytes).map fun (head, rest) => (Bytes.value head.reverse, rest)

/-- The number that an unsigned one of `width` bytes stands for in two's complement. -/
def signed (width n : Nat) : Int :=
  if n < Bytes.bound width / 2 then n else (n : Int) - Bytes.bound width

/-- The next `count` bytes as a text, and the rest. -/
def text? (count : Nat) (bytes : List UInt8) : Option (Value × List UInt8) :=
  (split? count bytes).map fun (utf8, rest) => (.text utf8, rest)

/-- The next `count` bytes as binary data, and the rest. -/
def binary? (count : Nat) (bytes : List UInt8) : Option (Value × List UInt8) :=
  (split? count bytes).map fun (data, rest) => (.binary data, rest)

/-- A kind byte and `count` bytes as an extension, and the rest. -/
def extension? (count : Nat) : List UInt8 → Option (Value × List UInt8)
  | [] => none
  | kind :: bytes => (split? count bytes).map fun (data, rest) => (.extension kind data, rest)

mutual

/-- The value at the head of the bytes and the bytes after it. The fuel bounds
how often values nest and follow each other. -/
def readWith : Nat → List UInt8 → Option (Value × List UInt8)
  | 0, _ => none
  | _ + 1, [] => none
  | fuel + 1, format :: bytes =>
      let n := format.toNat
      if n < 0x80 then some (.int n, bytes)
      else if n < 0x90 then do
        let (entries, rest) ← readEntries fuel (n - 0x80) bytes
        return (.map entries, rest)
      else if n < 0xA0 then do
        let (items, rest) ← readItems fuel (n - 0x90) bytes
        return (.array items, rest)
      else if n < 0xC0 then text? (n - 0xA0) bytes
      else if n = 0xC0 then some (.nil, bytes)
      else if n = 0xC2 then some (.bool false, bytes)
      else if n = 0xC3 then some (.bool true, bytes)
      else if 0xC4 ≤ n ∧ n ≤ 0xC6 then do
        let (count, rest) ← unsigned? (1 <<< (n - 0xC4)) bytes
        binary? count rest
      else if 0xC7 ≤ n ∧ n ≤ 0xC9 then do
        let (count, rest) ← unsigned? (1 <<< (n - 0xC7)) bytes
        extension? count rest
      else if n = 0xCA then do
        let (bits, rest) ← unsigned? 4 bytes
        return (.float (UInt32.ofNat bits), rest)
      else if n = 0xCB then do
        let (bits, rest) ← unsigned? 8 bytes
        return (.double (UInt64.ofNat bits), rest)
      else if 0xCC ≤ n ∧ n ≤ 0xCF then do
        let (value, rest) ← unsigned? (1 <<< (n - 0xCC)) bytes
        return (.int value, rest)
      else if 0xD0 ≤ n ∧ n ≤ 0xD3 then do
        let width := 1 <<< (n - 0xD0)
        let (value, rest) ← unsigned? width bytes
        return (.int (signed width value), rest)
      else if 0xD4 ≤ n ∧ n ≤ 0xD8 then extension? (1 <<< (n - 0xD4)) bytes
      else if 0xD9 ≤ n ∧ n ≤ 0xDB then do
        let (count, rest) ← unsigned? (1 <<< (n - 0xD9)) bytes
        text? count rest
      else if n = 0xDC ∨ n = 0xDD then do
        let (count, rest) ← unsigned? (2 * (n - 0xDB)) bytes
        let (items, rest) ← readItems fuel count rest
        return (.array items, rest)
      else if n = 0xDE ∨ n = 0xDF then do
        let (count, rest) ← unsigned? (2 * (n - 0xDD)) bytes
        let (entries, rest) ← readEntries fuel count rest
        return (.map entries, rest)
      else if 0xE0 ≤ n then some (.int ((n : Int) - 0x100), bytes)
      else none

/-- The next `count` values and the bytes after them. -/
def readItems : Nat → Nat → List UInt8 → Option (List Value × List UInt8)
  | _, 0, bytes => some ([], bytes)
  | 0, _ + 1, _ => none
  | fuel + 1, count + 1, bytes => do
      let (item, rest) ← readWith fuel bytes
      let (items, rest) ← readItems fuel count rest
      return (item :: items, rest)

/-- The next `count` pairs of a key and a value, and the bytes after them. -/
def readEntries : Nat → Nat → List UInt8 → Option (List (Value × Value) × List UInt8)
  | _, 0, bytes => some ([], bytes)
  | 0, _ + 1, _ => none
  | fuel + 1, count + 1, bytes => do
      let (key, rest) ← readWith fuel bytes
      let (value, rest) ← readWith fuel rest
      let (entries, rest) ← readEntries fuel count rest
      return ((key, value) :: entries, rest)

end

/-- The value at the head of the bytes and the bytes after it. Every value takes
a byte, so twice the length is enough for any nesting. -/
def read (bytes : List UInt8) : Option (Value × List UInt8) :=
  readWith (2 * bytes.length + 1) bytes

end Value

end TelemetryExport.MessagePack
