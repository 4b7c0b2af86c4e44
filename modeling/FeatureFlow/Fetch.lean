import FeatureFlow.Cache
import FeatureFlow.Url

/-!
# Fetching manifests

A manifest comes from a directory tree, from a host, or from a script that says
what each fetch does. What is fetched must be a JSON object.
-/

namespace FeatureFlow

inductive FetchError where
  /-- The address takes no path segments. -/
  | badBase (url : String)
  | transport (url reason : String)
  | status (url : String) (code : Nat)
  | body (url reason : String)
deriving DecidableEq

def FetchError.message : FetchError → String
  | badBase url => "base url `" ++ url ++ "` cannot carry a path"
  | transport url reason => "request to " ++ url ++ " failed: " ++ reason
  | status url code => url ++ " answered with status " ++ toString code
  | body url reason => url ++ " returned an unusable body: " ++ reason

/-- How a fetch goes: how long it takes, and what it gives. -/
structure Fetch where
  delay : Nat
  result : Except FetchError String

/-- Fetches a version of a feature, with the files as they are when it begins. -/
abbrev Fetcher := Files → String → String → Fetch

namespace Fetch

def checked (url body : String) : Except FetchError String :=
  match Json.read body with
  | .ok (.object _) => .ok body
  | .ok _ => .error (.body url "manifest root is not an object")
  | .error reason => .error (.body url reason)

def treePath (root feature version : String) : String :=
  Path.join (Path.join root feature) (version ++ ".json")

/-- Reads `feature/version.json` below a directory. -/
def ofDirectory (root : String) : Fetcher := fun files feature version =>
  let path := treePath root feature version
  { delay := 0
    result := match files.readText path with
      | .ok body => checked path body
      | .error e => .error (.transport path e.message) }

def manifestUrl (base : Url) (feature version : String) : Except FetchError Url :=
  match base.extend ["Proton", feature, version] with
  | some url => .ok url
  | none => .error (.badBase base.text)

/-- Fetches from a host. There is no network here, so every request fails. -/
def ofHost (base : Url) : Except FetchError Fetcher :=
  if base.takesSegments then
    .ok fun _ feature version =>
      { delay := 0
        result := match manifestUrl base feature version with
          | .ok url => .error (.transport url.text "no network")
          | .error e => .error e }
  else .error (.badBase base.text)

structure Scripted where
  feature : String
  version : String
  fetch : Fetch

/-- Goes by a script. What the script does not list is not found. -/
def ofScript (script : List Scripted) : Fetcher := fun _ feature version =>
  match script.find? fun s => s.feature == feature && s.version == version with
  | some s => s.fetch
  | none => { delay := 0, result := .error (.status (feature ++ "/" ++ version) 404) }

end Fetch

end FeatureFlow
