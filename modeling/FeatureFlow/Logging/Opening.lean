import FeatureFlow.Files
import FeatureFlow.Logging
import FeatureFlow.Logging.Collector

/-!
# Opening a log

A log in files has one for the text and one for the cascades, each named by the
day. A collector only has to have a good address.
-/

namespace FeatureFlow

inductive LogError where
  | noFile (path : String) (reason : FileError)
  | badCollector (endpoint : String)
deriving DecidableEq

def LogError.message : LogError → String
  | noFile path reason => "could not open the log file " ++ path ++ ": " ++ reason.message
  | badCollector _ => "log exporter"

namespace LogSink

def textFile : String := "proton.log"
def cascadeFile : String := "cascade.json"

def openAt (path : String) (tree : Files) : Except FileError Unit × Files :=
  match tree.touch path with
  | .ok after => (.ok (), after)
  | .error _ =>
    match tree.makeDirectories (Path.parent path) with
    | (.error e, made) => (.error e, made)
    | (.ok (), made) =>
      match made.touch path with
      | .ok after => (.ok (), after)
      | .error e => (.error e, made)

def openEach (directory : String) : List String → Files → Except LogError Unit × Files
  | [], tree => (.ok (), tree)
  | name :: rest, tree =>
    let path := Path.join directory name
    match openAt path tree with
    | (.ok (), after) => openEach directory rest after
    | (.error e, after) => (.error (.noFile path e), after)

def fileNames (day : String) : List String :=
  [textFile, cascadeFile].map (· ++ "." ++ day)

def openFor (day : String) (tree : Files) : LogSink → Except LogError Unit × Files
  | standardError => (.ok (), tree)
  | files directory =>
    -- the directory that holds the files, without dots behind it
    openEach (Path.parent (Path.join directory textFile)) (fileNames day) tree
  | collector endpoint =>
    (if Collector.isAddress endpoint then .ok () else .error (.badCollector endpoint), tree)

end LogSink

end FeatureFlow
