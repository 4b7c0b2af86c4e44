import FeatureFlow.Files
import FeatureFlow.Json.Fault

/-!
# The manifest cache

One file for each feature and version. A file that holds no JSON object is
discarded when it is read, so that the manifest is fetched again.
-/

namespace FeatureFlow

structure Cache where
  directory : String

namespace Cache

def fileName (feature version : String) : String :=
  feature ++ "_" ++ version ++ ".json"

def path (c : Cache) (feature version : String) : String :=
  Path.join c.directory (fileName feature version)

def isManifest (text : String) : Bool :=
  ((Json.parse? text).bind Json.object?).isSome

def discard (files : Files) (path : String) : Files :=
  match files.remove path with
  | .ok after => after
  | .error _ => files

def read (c : Cache) (files : Files) (feature version : String) : Option String × Files :=
  let path := c.path feature version
  match files.read path with
  | .error _ => (none, files)
  | .ok content =>
    match String.fromUTF8? content with
    | none => (none, files)
    | some text => if isManifest text then (some text, files) else (none, discard files path)

/-- Stores a body, and makes the directory first, which stays when the body
cannot be stored. -/
def write (c : Cache) (files : Files) (feature version body : String) :
    Except FileError Unit × Files :=
  match files.makeDirectories c.directory with
  | (.error e, made) => (.error e, made)
  | (.ok (), made) =>
    match made.writeText (c.path feature version) body with
    | .ok after => (.ok (), after)
    | .error e => (.error e, made)

/-- The version in the name of a file of the feature. A version with an
underscore is taken to belong to another feature. -/
def versionOf? (feature name : String) : Option String := do
  let rest ← Text.after? (feature ++ "_").toList name.toList
  let version ← Text.before? ".json".toList rest
  if version.contains '_' then none else some (.ofList version)

def isStale (feature keep name : String) : Bool :=
  match versionOf? feature name with
  | some version => version != keep
  | none => false

def removeAll (c : Cache) (files : Files) (names : List String) : Nat × Files :=
  names.foldl (fun (count, files) name =>
    match files.remove (Path.join c.directory name) with
    | .ok after => (count + 1, after)
    | .error _ => (count, files)) (0, files)

def removeStale (c : Cache) (files : Files) (feature keep : String) : Nat × Files :=
  match files.list c.directory with
  | .error _ => (0, files)
  | .ok names => c.removeAll files (names.filter (isStale feature keep))

end Cache

end FeatureFlow
