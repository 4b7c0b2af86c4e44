import FeatureFlow.CommandLine.Effect
import FeatureFlow.Manifest.Diagnostic

/-!
# Commands on manifests

Checking a manifest, running one of its components on its own, and writing the
schemas that manifests and reports follow.
-/

namespace FeatureFlow.CommandLine

/-- The name of a feature is given, or it is the name of the manifest's file. -/
def featureName (path : String) (feature : Option String) : Except Failure String :=
  match feature.orElse fun () => (Path.fileName? path).map Path.withoutEnding with
  | some name => .ok name
  | none => .error (.noFeatureName path)

def loadManifest (files : Files) (path : String) (feature : Option String) :
    Except Failure Manifest := do
  let name ← featureName path feature
  let text ← (files.readText path).mapError (.notRead path)
  (Manifest.parse name text).mapError .manifest

def summary (m : Manifest) : String :=
  m.feature ++ ": " ++ toString m.componentTable.size ++ " components, " ++
    toString m.dataObjectTable.size ++ " data objects, " ++
    toString m.orderedProviders.length ++ " providers"

def valid : String := "✅ Manifest is valid."

def warning (d : Diagnostic) : String :=
  "⚠️  " ++ d.text

def validate (files : Files) (path : String) (feature : Option String) : Effect :=
  match loadManifest files path feature with
  | .error failure => .failing files failure
  | .ok m =>
    let problems := m.diagnostics
    if problems.isEmpty then .printing files [summary m, valid]
    else
      { printed := summary m :: problems.map warning, files
        failure := some (.problems problems.length) }

def schema (files : Files) (directory : String) : Effect :=
  match Schema.writeAll directory files with
  | (.ok paths, after) => .printing after (paths.map ("wrote " ++ ·))
  | (.error reason, after) => .failing after (.schema reason)

def readPayload : Option String → Except Failure Property
  | none => .ok .null
  | some text =>
    match Json.parse? text with
    | some value => .ok (.ofJson value)
    | none => .error .payload

def performed (settings : Settings) (moment : Timestamp) (m : Manifest) (payload : Property)
    (component : String) : List String :=
  let orchestrator : Orchestrator :=
    { features := ∅, registry := .ofCatalogue .builtIn, link := .connected,
      maxSteps := settings.maxSteps }
  let outcome := (orchestrator.register m).performStep m.feature payload component true
  (outcome.answer.2.writtenAt moment).text :: outcome.sent.map sentLine

def run (settings : Settings) (moment : Timestamp) (files : Files) (path : String)
    (feature : Option String) (component : String) (payload : Option String) : Effect :=
  let lines := do
    let m ← loadManifest files path feature
    return performed settings moment m (← readPayload payload) component
  match lines with
  | .ok lines => .printing files lines
  | .error failure => .failing files failure

end FeatureFlow.CommandLine
