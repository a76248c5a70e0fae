import TelemetryExport.Record.Log

/-! # Encoding log records

The table of a log record follows from its category. A mapping sends a category
to a table; the wildcard category stands for every category without a mapping,
and the wildcard table, which only the wildcard category may be mapped to, for
the table named after the category.
-/

namespace TelemetryExport

open MessagePack

/-- Where the records of a category go. -/
inductive Route where
  /-- The table with this index among the templates. -/
  | table (index : Nat)
  /-- The table named after the category. -/
  | passThrough
  deriving DecidableEq, Repr

/-- Writes log records as envelopes. -/
structure LogEncoder where
  /-- The template of the default table, which has index 0. -/
  defaultTemplate : RecordTemplate
  /-- The templates of the other tables, from index 1 on. -/
  mapped : Array RecordTemplate
  /-- The routes of named categories, of which the first that fits counts. -/
  routes : Array (String × Route)
  /-- The route of every other category. -/
  fallback : Route
  /-- The properties that get a column of their own, if not all do. -/
  customColumns : Option (List String)

namespace LogEncoder

/-- The category or the table that stands for every other. -/
def wildcard : String := "*"

/-- All templates, in the order of their indices. -/
def templates (encoder : LogEncoder) : List RecordTemplate :=
  encoder.defaultTemplate :: encoder.mapped.toList

/-- The template at an index. -/
def templateAt (encoder : LogEncoder) : Nat → RecordTemplate
  | 0 => encoder.defaultTemplate
  | index + 1 => encoder.mapped.getD index encoder.defaultTemplate

/-- The index of a table's template, and the encoder with that template. A table
that already has a template keeps it. -/
def withTable (fields : List Attribute) (encoder : LogEncoder) (table : String) :
    Except ConfigError (Nat × LogEncoder) := do
  match encoder.templates.findIdx? (·.tableName == table) with
  | some index => return (index, encoder)
  | none =>
      let template ← RecordTemplate.make table fields
      return (encoder.mapped.size + 1, { encoder with mapped := encoder.mapped.push template })

/-- The encoder with one more mapping. -/
def withMapping (fields : List Attribute) (encoder : LogEncoder) (mapping : String × String) :
    Except ConfigError LogEncoder := do
  let (category, table) := mapping
  let (route, encoder) ←
    if table = wildcard then
      if category = wildcard then pure (Route.passThrough, encoder)
      else throw (.passThrough wildcard category)
    else do
      let (index, encoder) ← encoder.withTable fields table
      pure (Route.table index, encoder)
  if category = wildcard then
    return { encoder with fallback := route }
  else
    return { encoder with routes := encoder.routes.push (category, route) }

/-- The encoder for a default table, mappings of categories to tables, and the
fields that every record gets. -/
def make (table : String) (mappings : List (String × String)) (fields : List Attribute)
    (customColumns : Option (List String)) : Except ConfigError LogEncoder := do
  let template ← RecordTemplate.make table fields
  mappings.foldlM (withMapping fields) {
    defaultTemplate := template
    mapped := #[]
    routes := #[]
    fallback := .table 0
    customColumns }

/-- The route of a record's category. A record without one goes to the default table. -/
def route (encoder : LogEncoder) : Option String → Route
  | none => .table 0
  | some category =>
      match encoder.routes.find? (·.1 == category) with
      | some (_, route) => route
      | none => encoder.fallback

/-- The template by which a record is written, and the name of its table where
that is not the template's. -/
def target (encoder : LogEncoder) (record : LogRecord) : RecordTemplate × Option String :=
  match encoder.route record.category with
  | .table index => (encoder.templateAt index, none)
  | .passThrough => (encoder.defaultTemplate, record.category.bind TableName.ofCategory?)

/-- Opens the envelope of a record by a template, under another table name if
one is given. -/
def openEnvelope (template : RecordTemplate) (table : Option String) (time : Time) :
    Encode OpenMap :=
  match table with
  | some table => template.openRecordAs table time
  | none => template.openRecord time

/-- Appends the envelope of a record. -/
def encode (encoder : LogEncoder) (record : LogRecord) : Encode Unit := do
  let (template, table) := encoder.target record
  let map ← openEnvelope template table record.time
  let map ← map.fields (record.columns (table.getD template.tableName))
  let map ← template.writeProperties map (chooseListed encoder.customColumns) record.properties
  template.closeRecord map

end LogEncoder

end TelemetryExport
