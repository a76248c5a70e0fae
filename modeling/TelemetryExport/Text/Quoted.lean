import TelemetryExport.Text.Printable

/-! # Quoted text

Names inside a message stand between double quotes. A quote, a backslash and
the common controls get a letter behind a backslash; any other character that
is not printable is written by its code point.
-/

namespace TelemetryExport.Text

/-- The letter that stands behind a backslash for a character, if it has one. -/
def escapeLetter? : Char → Option Char
  | '"' => some '"'
  | '\\' => some '\\'
  | '\n' => some 'n'
  | '\r' => some 'r'
  | '\t' => some 't'
  | '\x00' => some '0'
  | _ => none

/-- A code point in lowercase hexadecimal between braces. -/
def escapeCode (code : Nat) : List Char :=
  ['\\', 'u', '\x7b'] ++ Nat.toDigits 16 code ++ ['\x7d']

/-- One character as it stands between the quotes. -/
def escapeChar (c : Char) : List Char :=
  match escapeLetter? c with
  | some letter => ['\\', letter]
  | none => if isPrintable c then [c] else escapeCode c.toNat

/-- The text between double quotes, with what does not stand for itself escaped. -/
def quote (text : String) : String :=
  String.ofList ('"' :: text.toList.flatMap escapeChar ++ ['"'])

end TelemetryExport.Text
