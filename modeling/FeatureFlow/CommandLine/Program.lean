import FeatureFlow.CommandLine.Command
import FeatureFlow.CommandLine.Inspection
import FeatureFlow.CommandLine.Loopback
import FeatureFlow.Settings.EnvironmentFile

/-!
# The program

A run starts with arguments, variables, files and a moment, and leaves behind
what it printed, the files and a status: zero, one where the command failed, two
where the arguments were bad.
-/

namespace FeatureFlow.CommandLine

structure Surroundings where
  vars : Table String
  files : Files
  moment : Timestamp

structure Run where
  status : Nat
  printed : List String
  /-- What is said besides the answer. -/
  noted : List String
  files : Files

def Effect.toRun (e : Effect) (notes : List String) : Run :=
  { status := (e.failure.map Failure.status).getD 0, printed := e.printed
    noted := notes ++ (e.failure.map Failure.text).toList, files := e.files }

namespace CommonOptions

/-- Where log records go: to files where the options say so, else to a
collector where there is one. -/
def logSink (o : CommonOptions) (settings : Settings) : LogSink :=
  if o.fileLogs || o.logDirectory.isSome then
    .files (o.logDirectory.getD settings.logDirectory)
  else
    match o.collector.or settings.collector with
    | some endpoint => .collector endpoint
    | none => .standardError

/-- The level of the options, else of the settings, else the usual one. -/
def logLevelFor (o : CommonOptions) (settings : Settings) : LogLevel :=
  (o.logLevel.or (LogLevel.parse? settings.logLevel)).getD .info

def levelNotes (o : CommonOptions) (settings : Settings) : List String :=
  if o.logLevel.isNone && (LogLevel.parse? settings.logLevel).isNone then
    [LogLevel.refusal settings.logLevel ++ ", using " ++ LogLevel.info.name]
  else []

def logConfig (o : CommonOptions) (settings : Settings) : LogConfig :=
  { level := o.logLevelFor settings, sink := o.logSink settings }

end CommonOptions

def Command.effect (c : Command) (settings : Settings) (moment : Timestamp) (files : Files) :
    Effect :=
  match c with
  | .validate manifest feature => CommandLine.validate files manifest feature
  | .schema directory => CommandLine.schema files directory
  | .run manifest feature component payload =>
    CommandLine.run settings moment files manifest feature component payload
  | .sync toggles directory trigger wait =>
    CommandLine.sync settings files toggles directory trigger wait

namespace Invocation

/-- The variables with those of the environment file. A file that cannot be read
sets none. -/
def vars (i : Invocation) (s : Surroundings) : Except String (Table String) :=
  match i.options.environmentFile with
  | none => .ok s.vars
  | some path =>
    match s.files.readText path with
    | .ok text => EnvironmentFile.prime s.vars text
    | .error _ => .ok s.vars

def run (i : Invocation) (s : Surroundings) : Run :=
  match i.vars s with
  | .error name => Effect.toRun (.failing s.files (.unstorable name)) []
  | .ok vars =>
    match Settings.ofLookup vars.get? with
    | .error reason => Effect.toRun (.failing s.files (.settings reason)) []
    | .ok settings =>
      let notes := i.options.levelNotes settings
      match (i.options.logConfig settings).sink.openFor s.moment.dateText s.files with
      | (.error reason, files) => Effect.toRun (.failing files (.log reason)) notes
      | (.ok (), files) => Effect.toRun (i.command.effect settings s.moment files) notes

end Invocation

def versionText : String := "proton 0.2.0"

def usageText : String :=
  "Usage: proton [OPTIONS] validate|schema|run|sync ..."

def Request.run (s : Surroundings) : Request → Run
  | .invocation i => i.run s
  | .help => { status := 0, printed := [usageText], noted := [], files := s.files }
  | .version => { status := 0, printed := [versionText], noted := [], files := s.files }

def program (arguments : List String) (s : Surroundings) : Run :=
  match Request.read arguments with
  | .ok request => request.run s
  | .error reason =>
    { status := 2, printed := [], noted := ["error: " ++ reason.message, usageText]
      files := s.files }

end FeatureFlow.CommandLine
