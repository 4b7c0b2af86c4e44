import FeatureFlow.CommandLine.Program

/-!
# What a run looks at

The paths that a run may read or write, and the variables it may look up, known
before it starts.
-/

namespace FeatureFlow.CommandLine

def CommonOptions.paths (o : CommonOptions) (settings : Settings) : List String :=
  match o.logSink settings with
  | .files directory => [directory]
  | _ => []

def Command.paths (c : Command) (settings : Settings) : List String :=
  match c with
  | .validate manifest _ => [manifest]
  | .schema directory => [directory]
  | .run manifest .. => [manifest]
  | .sync _ directory .. => settings.cacheDirectory :: directory.toList

def Invocation.paths (i : Invocation) (s : Surroundings) : List String :=
  match i.vars s with
  | .error _ => []
  | .ok vars =>
    match Settings.ofLookup vars.get? with
    | .ok settings => i.options.paths settings ++ i.command.paths settings
    | .error _ => []

/-- The file that is read before the settings are known. -/
def Request.environmentFile? : Request → Option String
  | .invocation i => i.options.environmentFile
  | _ => none

def Request.paths (s : Surroundings) : Request → List String
  | .invocation i => i.paths s
  | _ => []

def namesIn (text : String) : List String :=
  let isPart (c : Char) : Bool := EnvironmentFile.isNameChar c || Text.isAlphanumeric c
  let pieces := text.toList.splitBy fun a b => isPart a == isPart b
  ((pieces.filter fun piece => piece.all isPart).map String.ofList).eraseDups

end FeatureFlow.CommandLine
