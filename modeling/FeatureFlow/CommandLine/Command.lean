import FeatureFlow.CommandLine.Arguments
import FeatureFlow.Logging
import FeatureFlow.Settings
import FeatureFlow.Toggle

/-!
# Commands

What the program can be asked for, and how a request is read from arguments. The
options that all commands share may stand in front of the command or behind it;
behind it they count more.
-/

namespace FeatureFlow.CommandLine

-- ---------------------------------------------------------------------------
-- Commands
-- ---------------------------------------------------------------------------

inductive CommandKind where
  | validate
  | schema
  | run
  | sync
deriving DecidableEq

namespace CommandKind

def name : CommandKind → String
  | validate => "validate"
  | schema => "schema"
  | run => "run"
  | sync => "sync"

def all : List CommandKind :=
  [validate, schema, run, sync]

def ofName? (name : String) : Option CommandKind :=
  all.find? (·.name == name)

end CommandKind

structure CommonOptions where
  logLevel : Option LogLevel
  fileLogs : Bool
  logDirectory : Option String
  collector : Option String
  environmentFile : Option String

inductive Command where
  /-- Says what is wrong with a manifest. -/
  | validate (manifest : String) (feature : Option String)
  /-- Writes the schemas. -/
  | schema (directory : String)
  /-- Runs one component of a manifest. -/
  | run (manifest : String) (feature : Option String) (component : String) (payload : Option String)
  /-- Synchronises features against a server that activates whatever is ready. -/
  | sync (toggles : List Toggle) (directory : Option String) (trigger : Option String) (wait : Nat)

structure Invocation where
  options : CommonOptions
  command : Command

inductive Request where
  | invocation (i : Invocation)
  | help
  | version

-- ---------------------------------------------------------------------------
-- Arguments of a command
-- ---------------------------------------------------------------------------

def any (name : String) : Parameter :=
  { name, repeatable := false, accepts := fun _ => true }

def path (name : String) : Parameter :=
  { name, repeatable := false, accepts := fun value => value ≠ "" }

def seconds? (value : String) : Option Nat :=
  (Settings.parseNumber value.toList).toOption

def CommonOptions.parameters : List Parameter :=
  [{ name := "log-level", repeatable := false
     accepts := fun value => (LogLevel.ofName? value).isSome },
    path "log-dir", any "otel-endpoint", path "env-file"]

def CommonOptions.flags : List String :=
  ["file-logs"]

def CommonOptions.ofGiven (g : Given) : CommonOptions :=
  { logLevel := (g.value? "log-level").bind LogLevel.ofName?
    fileLogs := g.flags.contains "file-logs"
    logDirectory := g.value? "log-dir"
    collector := g.value? "otel-endpoint"
    environmentFile := g.value? "env-file" }

namespace CommandKind

def manifestArgument : String := "MANIFEST"

def options : CommandKind → List Parameter
  | validate => [any "feature"]
  | schema => [path "out"]
  | run => [path "manifest", any "feature", any "component", any "payload"]
  | sync =>
    [{ name := "feature", repeatable := true
       accepts := fun value => (Toggle.parse? value).isSome },
      path "manifest-dir", any "trigger",
      { name := "wait", repeatable := false, accepts := fun value => (seconds? value).isSome }]

def positionals : CommandKind → List Parameter
  | validate => [path manifestArgument]
  | _ => []

def grammar (k : CommandKind) : Grammar :=
  { flags := CommonOptions.flags, options := k.options ++ CommonOptions.parameters,
    positionals := k.positionals, commands := [], hasVersion := false }

def defaultDirectory : String := "schemas"
def defaultWait : Nat := 10

def command (k : CommandKind) (g : Given) : Except UsageError Command :=
  match k with
  | validate => do return .validate (← g.required manifestArgument) (g.value? "feature")
  | schema => return .schema ((g.value? "out").getD defaultDirectory)
  | run => do
    let manifest ← g.required "manifest"
    let component ← g.required "component"
    return .run manifest (g.value? "feature") component (g.value? "payload")
  | sync => do
    let _ ← g.required "feature"
    let wait := ((g.value? "wait").bind seconds?).getD defaultWait
    return .sync ((g.all "feature").filterMap Toggle.parse?) (g.value? "manifest-dir")
      (g.value? "trigger") wait

end CommandKind

-- ---------------------------------------------------------------------------
-- Reading a command line
-- ---------------------------------------------------------------------------

namespace Request

def helpCommand : String := "help"

def grammar : Grammar :=
  { flags := CommonOptions.flags, options := CommonOptions.parameters, positionals := [],
    commands := CommandKind.all.map CommandKind.name ++ [helpCommand], hasVersion := true }

/-- Help may be asked for about one command. -/
def readHelp : List String → Except UsageError Request
  | [] => .ok .help
  | [topic] => if grammar.commands.contains topic then .ok .help else .error (.unknownCommand topic)
  | _ :: topic :: _ => .error (.unknownCommand topic)

def readCommand (outer : Given) (k : CommandKind) (rest : List String) :
    Except UsageError Request := do
  match ← k.grammar.read .nothing rest with
  | .finished inner =>
    return .invocation { options := .ofGiven (inner.merge outer), command := ← k.command inner }
  | .help => return .help
  | .version => return .version
  | .command _ name _ => throw (.unexpected name)

def read (arguments : List String) : Except UsageError Request := do
  match ← grammar.read .nothing arguments with
  | .finished _ => throw .noCommand
  | .help => return .help
  | .version => return .version
  | .command outer name rest =>
    match CommandKind.ofName? name with
    | some k => readCommand outer k rest
    | none => readHelp rest

end Request

end FeatureFlow.CommandLine
