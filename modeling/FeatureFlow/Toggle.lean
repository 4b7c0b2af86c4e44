import FeatureFlow.Decode
import FeatureFlow.Text

/-!
# Feature toggles

One feature as the experiment system sees it. The short form is its name and
version with an equals sign between.
-/

namespace FeatureFlow

structure Toggle where
  name : String
  inExperiment : Bool
  /-- The manifest version that this client must run. -/
  version : String
deriving DecidableEq

namespace Toggle

open Decode (rule)

def enabled (name version : String) : Toggle :=
  { name, inExperiment := true, version }

def disabled (name version : String) : Toggle :=
  { name, inExperiment := false, version }

/-- Reads the short form. Both parts must have a character before they are trimmed. -/
def parse? (text : String) : Option Toggle := do
  let (name, version) ← Text.cut? '=' text.toList
  if name.isEmpty || version.isEmpty then none
  else some (enabled (.ofList (Text.trim name)) (.ofList (Text.trim version)))

def refusal (text : String) : String :=
  "expected `name=version`, got `" ++ text ++ "`"

def rules : List Decode.Rule :=
  [rule "name" .required Decode.text, rule "in_experiment" .required Decode.boolean,
    rule "version" .required Decode.text]

def decode (value : Json) : Decoded Toggle := do
  let fields ← Decode.record "struct FeatureToggle" rules value
  return { name := ← Decode.required fields "name" Decode.text
           inExperiment := ← Decode.required fields "in_experiment" Decode.boolean
           version := ← Decode.required fields "version" Decode.text }

def toJson (t : Toggle) : Json :=
  .record [("name", .text t.name), ("in_experiment", .boolean t.inExperiment),
    ("version", .text t.version)]

end Toggle

end FeatureFlow
