/-! # Columns

The names that records give to their fixed columns, and the names under which
well-known span attributes get a column of their own.
-/

namespace TelemetryExport.Column

def envName : String := "env_name"
def envProperties : String := "env_properties"
def traceId : String := "env_dt_traceId"
def spanId : String := "env_dt_spanId"
def traceFlags : String := "env_dt_traceFlags"
def exceptionType : String := "env_ex_type"
def exceptionMessage : String := "env_ex_msg"

def severityText : String := "severityText"
def severityNumber : String := "severityNumber"
def name : String := "name"
def eventId : String := "eventId"
def eventName : String := "eventName"
def body : String := "body"

def parentId : String := "parentId"
def kind : String := "kind"
def startTime : String := "startTime"
def success : String := "success"
def statusMessage : String := "statusMessage"
def links : String := "links"

/-- The keys of a link. -/
def toTraceId : String := "toTraceId"
def toSpanId : String := "toSpanId"

/-- The key and the value of the map that closes every envelope. -/
def timeFormat : String := "TimeFormat"
def dateTime : String := "DateTime"

/-- The names of all fixed columns. No property is written under one of them. -/
def reserved : List String :=
  [envName, envProperties, traceId, spanId, traceFlags, exceptionType, exceptionMessage,
    severityText, severityNumber, name, eventId, eventName, body,
    parentId, kind, startTime, success, statusMessage, links]

/-- Span attributes that always get a column, with the column's name. -/
def spanAttributeColumns : List (String × String) :=
  [("db.system", "dbSystem"),
    ("db.name", "dbName"),
    ("db.statement", "dbStatement"),
    ("http.method", "httpMethod"),
    ("http.url", "httpUrl"),
    ("http.status_code", "httpStatusCode"),
    ("messaging.system", "messagingSystem"),
    ("messaging.destination", "messagingDestination"),
    ("messaging.url", "messagingUrl")]

end TelemetryExport.Column
