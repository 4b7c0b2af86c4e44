import FeatureFlow.Table
import FeatureFlow.Text

/-!
# Files

A tree of directories and files, held as a table from paths to entries. The
root is a directory without an entry; relative paths start at the home
directory. A path is walked name by name, and all names but the last must be
directories that are there.
-/

namespace FeatureFlow

inductive FileError where
  | notFound
  | alreadyExists
  | isDirectory
  | notDirectory
  /-- The content is not text. -/
  | notText
  /-- The path holds a character that no name can have. -/
  | badName
  | nameTooLong
deriving DecidableEq

def FileError.message : FileError → String
  | notFound => "No such file or directory (os error 2)"
  | alreadyExists => "File exists (os error 17)"
  | isDirectory => "Is a directory (os error 21)"
  | notDirectory => "Not a directory (os error 20)"
  | notText => "stream did not contain valid UTF-8"
  | badName => "file name contained an unexpected NUL byte"
  | nameTooLong => "File name too long (os error 36)"

inductive FileEntry where
  | directory
  | file (content : ByteArray)

/-- The names on the way from the root. -/
abbrev Place := List String

structure Files where
  home : Place
  entries : Table FileEntry

namespace Path

/-- The path of something below a directory. An absolute path stays itself. -/
def join (directory path : String) : String :=
  if "/".isPrefixOf path ∨ directory = "" then path
  else if "/".toList.isSuffixOf directory.toList then directory ++ path
  else directory ++ "/" ++ path

def names (path : String) : List String :=
  (Text.splitAt '/' path.toList).map String.ofList

def ofNames (names : List String) : String :=
  if names = [""] then "/" else Text.join "/" names

/-- The beginnings of a path that end in a name of their own, the longest first,
from its names in reverse order. Empty names and dots behind the first name do not
count. -/
def climb : List String → List (List String)
  | [] => []
  | [first] => [[first]]
  | name :: before =>
    if name = "" ∨ name = "." then climb before else (name :: before).reverse :: climb before

def ancestors (names : List String) : List (List String) :=
  match climb names.reverse with
  | [] => []
  | _ :: above => names :: above

/-- The path above a path, empty where there is none. -/
def parent (path : String) : String :=
  match ancestors (names path) with
  | _ :: above :: _ => ofNames above
  | _ => ""

def fileName? (path : String) : Option String :=
  match ((names path).filter fun name => name ≠ "" ∧ name ≠ ".").getLast? with
  | some ".." => none
  | other => other

/-- A name without its last ending. A point in front is no ending. -/
def withoutEnding (name : String) : String :=
  match Text.cut? '.' name.toList.reverse with
  | some (_, front) => if front.isEmpty then name else .ofList front.reverse
  | none => name

end Path

namespace Place

def key (place : Place) : String :=
  Text.join "/" place

end Place

namespace Files

-- ---------------------------------------------------------------------------
-- Looking up
-- ---------------------------------------------------------------------------

def along (place : Place) : List String → List Place
  | [] => []
  | name :: rest => (place ++ [name]) :: along (place ++ [name]) rest

def ofHome (home : Place) : Files :=
  { home, entries := .ofList ((along [] home).map fun place => (Place.key place, .directory)) }

def entry? (files : Files) : Place → Option FileEntry
  | [] => some .directory
  | place => files.entries.get? (Place.key place)

def nameLimit : Nat := 255

def pathLimit : Nat := 4095

/-- Walks names from a directory. Only the last one may be missing. -/
def walk (files : Files) : Place → List String → Except FileError Place
  | place, [] => .ok place
  | place, name :: rest =>
    if name = "" ∨ name = "." then walk files place rest
    else if name = ".." then walk files place.dropLast rest
    else if nameLimit < name.utf8ByteSize then .error .nameTooLong
    else if rest.isEmpty then .ok (place ++ [name])
    else
      match files.entry? (place ++ [name]) with
      | some .directory => walk files (place ++ [name]) rest
      | some (.file _) => .error .notDirectory
      | none => .error .notFound

def start (files : Files) (path : String) : Place :=
  if "/".isPrefixOf path then [] else files.home

def checkPath (path : String) : Except FileError Unit :=
  if path.toList.contains '\x00' then .error .badName
  else if path = "" then .error .notFound
  else if pathLimit < path.utf8ByteSize then .error .nameTooLong
  else .ok ()

def locate (files : Files) (path : String) : Except FileError Place := do
  checkPath path
  files.walk (files.start path) (Path.names path)

def read (files : Files) (path : String) : Except FileError ByteArray := do
  match files.entry? (← files.locate path) with
  | some (.file content) => return content
  | some .directory => throw .isDirectory
  | none => throw .notFound

def readText (files : Files) (path : String) : Except FileError String := do
  match String.fromUTF8? (← files.read path) with
  | some text => return text
  | none => throw .notText

-- ---------------------------------------------------------------------------
-- Writing
-- ---------------------------------------------------------------------------

/-- Writes a file in a directory that is there. -/
def write (files : Files) (path : String) (content : ByteArray) : Except FileError Files := do
  let place ← files.locate path
  match files.entry? place with
  | some .directory => throw .isDirectory
  | _ => return { files with entries := files.entries.insert (Place.key place) (.file content) }

def writeText (files : Files) (path text : String) : Except FileError Files :=
  files.write path text.toUTF8

def touch (files : Files) (path : String) : Except FileError Files := do
  let place ← files.locate path
  match files.entry? place with
  | some (.file _) => return files
  | some .directory => throw .isDirectory
  | none => return { files with entries := files.entries.insert (Place.key place) (.file .empty) }

def hasDirectory (files : Files) (start : Place) (names : List String) : Bool :=
  (files.walk start (names ++ ["."])).isOk

/-- Makes one directory in another one. Slashes at the end of its path do not
count, dots do. -/
def makeDirectory (files : Files) (start : Place) (names : List String) :
    Except FileError Files := do
  match names.reverse.dropWhile (· == "") with
  | [] => throw .alreadyExists
  | name :: before =>
    let place ← files.walk start (before.reverse ++ ["."])
    if name = "." ∨ name = ".." then throw .alreadyExists
    if nameLimit < name.utf8ByteSize then throw .nameTooLong
    if (files.entry? (place ++ [name])).isSome then throw .alreadyExists
    return { files with
      entries := files.entries.insert (Place.key (place ++ [name])) .directory }

/-- Makes the first of some paths, each of which lies in the next one, and those
of the others that it needs. What has been made stays when a step fails. -/
def makeFirst (files : Files) (start : Place) : List (List String) → Except FileError Unit × Files
  | [] => (.ok (), files)
  | names :: above =>
    let settled (files : Files) (e : FileError) : Except FileError Unit × Files :=
      if e = .alreadyExists ∧ files.hasDirectory start names then (.ok (), files)
      else (.error e, files)
    match files.makeDirectory start names with
    | .ok made => (.ok (), made)
    | .error .notFound =>
      match makeFirst files start above with
      | (.error e, files) => (.error e, files)
      | (.ok (), files) =>
        match files.makeDirectory start names with
        | .ok made => (.ok (), made)
        | .error e => settled files e
    | .error e => settled files e

/-- Makes a directory and those above it. The empty path needs none. -/
def makeDirectories (files : Files) (path : String) : Except FileError Unit × Files :=
  if path = "" then (.ok (), files)
  else
    match checkPath path with
    | .error e => (.error e, files)
    | .ok () => files.makeFirst (files.start path) (Path.ancestors (Path.names path))

def remove (files : Files) (path : String) : Except FileError Files := do
  let place ← files.locate path
  match files.entry? place with
  | some (.file _) => return { files with entries := files.entries.erase (Place.key place) }
  | some .directory => throw .isDirectory
  | none => throw .notFound

-- ---------------------------------------------------------------------------
-- Listing
-- ---------------------------------------------------------------------------

def below? (place : Place) (key : String) : Option String :=
  match place with
  | [] => some key
  | _ => (Text.after? (Place.key place ++ "/").toList key.toList).map String.ofList

def list (files : Files) (path : String) : Except FileError (List String) := do
  let place ← files.locate path
  match files.entry? place with
  | some .directory =>
    let below := files.entries.keys.filterMap (below? place)
    return below.filter fun name => !name.toList.contains '/'
  | some (.file _) => throw .notDirectory
  | none => throw .notFound

def filesBelow (files : Files) (place : Place) : List String :=
  files.entries.entries.filterMap fun (key, entry) =>
    match entry with
    | .file _ => below? place key
    | .directory => none

end Files

end FeatureFlow
