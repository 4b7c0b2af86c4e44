import FeatureFlow.Decode
import FeatureFlow.Text

/-!
# Log configuration
-/

namespace FeatureFlow

inductive LogLevel where
  | trace
  | debug
  | info
  | warn
  | error
  | critical
deriving DecidableEq

namespace LogLevel

def name : LogLevel → String
  | trace => "trace"
  | debug => "debug"
  | info => "info"
  | warn => "warn"
  | error => "error"
  | critical => "critical"

def all : List LogLevel :=
  [trace, debug, info, warn, error, critical]

/-- The level that records are filtered by; nothing is above an error. -/
def directive : LogLevel → String
  | critical => "error"
  | other => other.name

def ofName? (name : String) : Option LogLevel :=
  all.find? (·.name == name)

/-- A text as levels are compared: trimmed, with small ASCII letters. -/
def normal (text : String) : String :=
  .ofList ((Text.trim text.toList).map Text.asciiLower)

def parse? (text : String) : Option LogLevel :=
  if normal text = "warning" then some warn else ofName? (normal text)

def refusal (text : String) : String :=
  "unknown log level `" ++ normal text ++ "`"

def decode (value : Json) : Decoded LogLevel :=
  Decode.named (all.map fun level => (level.name, level)) value

def toJson (level : LogLevel) : Json :=
  .text level.name

end LogLevel

inductive LogSink where
  | standardError
  | files (directory : String)
  | collector (endpoint : String)
deriving DecidableEq

namespace LogSink

open Decode (rule)

def decode (value : Json) : Decoded LogSink := do
  let v ← Decode.variant ["Stderr", "Files", "Otlp"] value
  if v.name = "Stderr" then v.bare standardError
  else if v.name = "Files" then
    let fields ← v.fields [rule "dir" .required Decode.path]
    return files (← Decode.required fields "dir" Decode.path)
  else
    let fields ← v.fields [rule "endpoint" .required Decode.text]
    return collector (← Decode.required fields "endpoint" Decode.text)

def toJson : LogSink → Json
  | standardError => .text "Stderr"
  | files directory => .record [("Files", .record [("dir", .text directory)])]
  | collector endpoint => .record [("Otlp", .record [("endpoint", .text endpoint)])]

end LogSink

structure LogConfig where
  level : LogLevel
  sink : LogSink
deriving DecidableEq

namespace LogConfig

open Decode (rule)

def rules : List Decode.Rule :=
  [rule "level" .required LogLevel.decode, rule "sink" .required LogSink.decode]

def decode (value : Json) : Decoded LogConfig := do
  let fields ← Decode.record "struct LogConfig" rules value
  return { level := ← Decode.required fields "level" LogLevel.decode
           sink := ← Decode.required fields "sink" LogSink.decode }

def toJson (c : LogConfig) : Json :=
  .record [("level", c.level.toJson), ("sink", c.sink.toJson)]

end LogConfig

end FeatureFlow
