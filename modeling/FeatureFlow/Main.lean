import FeatureFlow.CommandLine.Places
import FeatureFlow.Files.Changes
import Std.Time.DateTime.Timestamp

/-!
# The command line

Looks up what a run may need, runs the program, and carries out what it left
behind.
-/

open FeatureFlow

namespace FeatureFlow.CommandLine

def depthLimit : Nat := 16

/-- What is at a place. A file that cannot be read is passed over. -/
def entryAt (place : Place) : IO (Option FileEntry) := do
  let path := (← IO.currentDir) / ("/" ++ Place.key place)
  if ← path.isDir then return some .directory
  else if ← path.pathExists then
    try return some (.file (← IO.FS.readBinFile path))
    catch _ => return none
  else return none

def noteAt (files : Files) (place : Place) : IO Files := do
  return ((← entryAt place).map (files.note place)).getD files

def look : Nat → Files → Place → IO Files
  | 0, files, _ => return files
  | depth + 1, files, place => do
    match ← entryAt place with
    | none => return files
    | some (.file content) => return files.note place (.file content)
    | some .directory =>
      let entries ← ((← IO.currentDir) / ("/" ++ Place.key place)).readDir
      entries.foldlM (fun files entry => look depth files (place ++ [entry.fileName]))
        (files.note place .directory)

def lookAt (files : Files) (path : String) : IO Files := do
  let place := files.place path
  look depthLimit (← (Files.along [] place).foldlM noteAt files) place

def lookUp (vars : Table String) (names : List String) : IO (Table String) :=
  names.foldlM (fun vars name => do
    match ← IO.getEnv name with
    | some value => return vars.insert name value
    | none => return vars) vars

def now : IO Timestamp := do
  let moment ← Std.Time.Timestamp.now
  return { seconds := moment.val.second.val, nanoseconds := moment.val.nano.val.toNat }

def surroundings (request : Request) : IO Surroundings := do
  let home := (Path.names (← IO.currentDir).toString).filter (· ≠ "")
  let files := Files.ofHome home
  let vars ← lookUp ∅ Settings.keys
  let some path := request.environmentFile?
    | return { vars, files, moment := ← now }
  let files ← lookAt files path
  let vars ← lookUp vars (namesIn ((files.readText path).toOption.getD ""))
  return { vars, files, moment := ← now }

def carryOut (change : Change) : IO Unit := do
  match change with
  | .makeDirectory key => IO.FS.createDirAll ("/" ++ key)
  | .writeFile key content => IO.FS.writeBinFile ("/" ++ key) content
  | .removeFile key => IO.FS.removeFile ("/" ++ key)

def finish (before : Files) (run : Run) : IO UInt32 := do
  (before.changes run.files).forM carryOut
  let output ← IO.getStdout
  run.printed.forM output.putStrLn
  let errors ← IO.getStderr
  run.noted.forM errors.putStrLn
  return run.status.toUInt32

end FeatureFlow.CommandLine

def main (arguments : List String) : IO UInt32 := do
  let request := (CommandLine.Request.read arguments).toOption.getD .help
  let known ← CommandLine.surroundings request
  let files ← (request.paths known).foldlM CommandLine.lookAt known.files
  CommandLine.finish files (CommandLine.program arguments { known with files })
