import FeatureFlow.Settings

/-!
# Sources of settings

A source is a table of its own, or the environment of the program with the file
it was primed from. Only a table can be written.
-/

namespace FeatureFlow

inductive SettingsSource where
  | table (entries : Table String)
  | environment (file : Option String)

namespace SettingsSource

open Decode (rule)

def tableName : String := "MapSettingsManager"
def environmentName : String := "EnvSettingsManager"

def owned (vars : Table String) : List String :=
  vars.keys.filter ("PROTON_".isPrefixOf ·)

def get? (s : SettingsSource) (vars : Table String) (key : String) : Option String :=
  match s with
  | table entries => entries.get? key
  | environment _ => vars.get? key

def keys (s : SettingsSource) (vars : Table String) : List String :=
  match s with
  | table entries => entries.keys
  | environment _ => owned vars

def set (s : SettingsSource) (key value : String) : Except SettingsError SettingsSource :=
  match s with
  | table entries => .ok (table (entries.insert key value))
  | environment _ => .error .readOnly

def resolve (s : SettingsSource) (vars : Table String) : Except SettingsError Settings :=
  Settings.ofLookup (s.get? vars)

def summary : SettingsSource → String
  | table entries => tableName ++ "(" ++ toString entries.size ++ " entries)"
  | environment none => environmentName
  | environment (some file) => environmentName ++ "(" ++ file ++ ")"

def expected : String := "dyn SettingsManagerType"

def decodeTable (value : Json) : Decoded SettingsSource := do
  let entries := Decode.table "a DashMap" Decode.text
  let fields ← Decode.record ("struct " ++ tableName) [rule "map" .required entries] value
  return table (← Decode.required fields "map" entries)

def decodeEnvironment (value : Json) : Decoded SettingsSource := do
  let file := Decode.optional Decode.path
  let fields ← Decode.record ("struct " ++ environmentName) [rule "env_file" .nullable file] value
  return environment (← Decode.defaulted fields "env_file" none file)

/-- A source is written under its kind, which is the one key of an object. -/
def decode : Json → Decoded SettingsSource
  | .object [] => .error (.refused ("expected externally tagged " ++ expected))
  | .object ((kind, content) :: rest) => do
    let source ←
      if kind = environmentName then decodeEnvironment content
      else if kind = tableName then decodeTable content
      else .error (.unknownVariant kind [environmentName, tableName])
    if rest.isEmpty then return source
    else .error (.wrongLength (rest.length + 1) "fewer elements in map")
  | other => Decode.mismatch other expected

def toJson : SettingsSource → Json
  | table entries => .record [(tableName, .record [("map", .ofTable .text entries)])]
  | environment file => .record [(environmentName, .record [("env_file", .ofOption .text file)])]

end SettingsSource

end FeatureFlow
