import TelemetryExport.Error

/-! # Table names

A record names the table it goes to. Table names are short, consist of ASCII
letters and digits, and start with a letter. A log category can be turned into
a table name by leaving out everything else.
-/

namespace TelemetryExport.TableName

/-- The longest table name, in bytes. -/
def maxLength : Nat := 50

/-- Whether the name is neither empty nor too long. -/
def hasValidLength (name : String) : Bool :=
  name.utf8ByteSize != 0 && decide (name.utf8ByteSize ≤ maxLength)

/-- Whether the name is a letter followed by letters and digits, all of ASCII. -/
def hasValidForm (name : String) : Bool :=
  match name.toList with
  | [] => false
  | first :: rest => first.isAlpha && rest.all Char.isAlphanum

/-- Refuses a name that is no table name. -/
def check (name : String) : Except ConfigError Unit := do
  unless hasValidLength name do
    throw (.tableNameLength name maxLength)
  unless hasValidForm name do
    throw (.tableNameForm name)

/-- The table name that a category stands for: its ASCII letters and digits, as
many as a name may have, with the first in upper case. There is none when
nothing remains or what remains starts with a digit. -/
def ofCategory? (category : String) : Option String :=
  match (category.toList.filter Char.isAlphanum).take maxLength with
  | [] => none
  | first :: rest =>
      if first.isAlpha then some (String.ofList (first.toUpper :: rest)) else none

end TelemetryExport.TableName
