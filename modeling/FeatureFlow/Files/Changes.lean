import FeatureFlow.Files

/-!
# Changes between file trees

What has to be done to one tree so that it becomes another one. Directories come
before what they hold, because their paths do.
-/

namespace FeatureFlow

inductive Change where
  | makeDirectory (key : String)
  | writeFile (key : String) (content : ByteArray)
  | removeFile (key : String)

namespace FileEntry

def isFile : FileEntry → Bool
  | file _ => true
  | directory => false

/-- Whether nothing has to be done for an entry that is to become another one. -/
def agrees : FileEntry → FileEntry → Bool
  | directory, directory => true
  | file a, file b => a == b
  | _, _ => false

end FileEntry

namespace Files

/-- Where a path leads if all directories on it are there. -/
def place (files : Files) (path : String) : Place :=
  (Path.names path).foldl (fun place name =>
    if name = "" ∨ name = "." then place
    else if name = ".." then place.dropLast
    else place ++ [name]) (files.start path)

def note (files : Files) (place : Place) (entry : FileEntry) : Files :=
  { files with entries := files.entries.insert (Place.key place) entry }

def made (before : Files) (key : String) (entry : FileEntry) : Option Change :=
  if ((before.entries.get? key).map (·.agrees entry)).getD false then none
  else
    match entry with
    | .directory => some (.makeDirectory key)
    | .file content => some (.writeFile key content)

def removed (after : Files) (key : String) (entry : FileEntry) : Option Change :=
  if entry.isFile ∧ (after.entries.get? key).isNone then some (.removeFile key) else none

def changes (before after : Files) : List Change :=
  before.entries.entries.filterMap (fun (key, entry) => removed after key entry) ++
    after.entries.entries.filterMap fun (key, entry) => made before key entry

end Files

end FeatureFlow
