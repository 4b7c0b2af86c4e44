import FeatureFlow.Engine
import FeatureFlow.Logging.Opening
import FeatureFlow.Schema

/-!
# What commands leave behind

A command prints lines, leaves files and may fail. What it printed before it
failed stays printed.
-/

namespace FeatureFlow.CommandLine

inductive Failure where
  | unstorable (name : String)
  | settings (reason : SettingsError)
  | log (reason : LogError)
  | noFeatureName (path : String)
  | notRead (path : String) (reason : FileError)
  | manifest (reason : ManifestError)
  | problems (count : Nat)
  | payload
  | schema (reason : Schema.WriteError)
  | engine (reason : BootstrapError)
  | noAnswer
deriving DecidableEq

namespace Failure

def message : Failure → String
  | unstorable name => "the variable " ++ name ++ " cannot hold a NUL character"
  | settings reason => reason.message
  | log reason => reason.message
  | noFeatureName path => "cannot derive a feature name from " ++ path
  | notRead path _ => "could not read " ++ path
  | manifest reason => reason.message
  | problems count => toString count ++ " problem(s) found"
  | payload => "payload is not JSON"
  | schema reason => reason.message
  | engine reason => reason.message
  | noAnswer => "server never answered the ready list"

/-- A variable that cannot be set and a log file that cannot be opened end the
program at once. -/
def isAbort : Failure → Bool
  | unstorable _ => true
  | log (.noFile ..) => true
  | _ => false

def status (f : Failure) : Nat :=
  if f.isAbort then 101 else 1

def text (f : Failure) : String :=
  if f.isAbort then f.message else "Error: " ++ f.message

end Failure

structure Effect where
  printed : List String
  failure : Option Failure
  files : Files

namespace Effect

def printing (files : Files) (lines : List String) : Effect :=
  { printed := lines, failure := none, files }

def failing (files : Files) (failure : Failure) : Effect :=
  { printed := [], failure := some failure, files }

end Effect

def sentLine (m : ServerMessage) : String :=
  "-> " ++ m.toJson.compact

end FeatureFlow.CommandLine
