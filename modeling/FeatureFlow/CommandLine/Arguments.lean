import FeatureFlow.Table
import FeatureFlow.Text

/-!
# Arguments

A grammar says which flags, options and positional arguments there may be, and
which words are commands. Arguments are read from left to right up to the first
command; the first fault is the answer.
-/

namespace FeatureFlow.CommandLine

-- ---------------------------------------------------------------------------
-- Grammars and what they give
-- ---------------------------------------------------------------------------

structure Parameter where
  name : String
  repeatable : Bool
  accepts : String → Bool

structure Grammar where
  flags : List String
  options : List Parameter
  positionals : List Parameter
  commands : List String
  /-- Whether the version can be asked for. -/
  hasVersion : Bool

/-- The arguments that were given, those of one name in their order. -/
structure Given where
  flags : List String
  values : List (String × String)

inductive UsageError where
  | unknownOption (name : String)
  | unexpected (argument : String)
  | missingValue (name : String)
  | needlessValue (name : String)
  | badValue (name value : String)
  | repeated (name : String)
  | missing (name : String)
  | noCommand
  | unknownCommand (name : String)
deriving DecidableEq

def UsageError.message : UsageError → String
  | unknownOption name => "unknown option " ++ name
  | unexpected argument => "unexpected argument " ++ argument
  | missingValue name => name ++ " needs a value"
  | needlessValue name => name ++ " takes no value"
  | badValue name value => "bad value '" ++ value ++ "' for " ++ name
  | repeated name => name ++ " cannot be used more than once"
  | missing name => name ++ " is missing"
  | noCommand => "a command is missing"
  | unknownCommand name => "unknown command " ++ name

namespace Given

def nothing : Given :=
  { flags := [], values := [] }

def has (g : Given) (name : String) : Bool :=
  g.values.any (·.1 == name)

def value? (g : Given) (name : String) : Option String :=
  Fields.get? name g.values

def all (g : Given) (name : String) : List String :=
  (g.values.filter (·.1 == name)).map (·.2)

def required (g : Given) (name : String) : Except UsageError String :=
  match g.value? name with
  | some value => .ok value
  | none => .error (.missing name)

/-- What was given at two levels, where the first one counts more. -/
def merge (inner outer : Given) : Given :=
  { flags := inner.flags ++ outer.flags, values := inner.values ++ outer.values }

def takeFlag (g : Given) (name : String) : Except UsageError Given :=
  if g.flags.contains name then .error (.repeated name)
  else .ok { g with flags := g.flags ++ [name] }

def take (g : Given) (p : Parameter) (value : String) : Except UsageError Given :=
  if !p.repeatable && g.has p.name then .error (.repeated p.name)
  else if p.accepts value then .ok { g with values := g.values ++ [(p.name, value)] }
  else .error (.badValue p.name value)

end Given

-- ---------------------------------------------------------------------------
-- Reading
-- ---------------------------------------------------------------------------

inductive Token where
  /-- Behind it everything is positional. -/
  | separator
  | long (name : String) (value : Option String)
  | short (letters : List Char)
  | word (text : String)

def Token.ofText (text : String) : Token :=
  match text.toList with
  | ['-', '-'] => separator
  | '-' :: '-' :: rest =>
    match Text.cut? '=' rest with
    | some (name, value) => long (.ofList name) (some (.ofList value))
    | none => long (.ofList rest) none
  | '-' :: letter :: rest => short (letter :: rest)
  | _ => word text

def isValue (text : String) : Bool :=
  match Token.ofText text with
  | .word _ => true
  | _ => false

inductive Stop where
  | finished (given : Given)
  | help
  | version
  | command (given : Given) (name : String) (rest : List String)

namespace Grammar

def takePositional (g : Grammar) (given : Given) (text : String) : Except UsageError Given :=
  match g.positionals.find? fun p => !given.has p.name with
  | some p => given.take p text
  | none =>
    if g.commands.isEmpty then .error (.unexpected text) else .error (.unknownCommand text)

/-- Short letters only ask for help or for the version. -/
def readShort (g : Grammar) (letters : List Char) : Except UsageError Stop :=
  match letters.head? with
  | some 'h' => .ok .help
  | some 'V' => if g.hasVersion then .ok .version else .error (.unknownOption "-V")
  | _ => .error (.unknownOption (.ofList ('-' :: letters)))

/-- A long name that is no option with a value. Answers how reading ends, or
what is given now. -/
def readFlag (g : Grammar) (given : Given) (name : String) (value : Option String) :
    Except UsageError (Stop ⊕ Given) :=
  let known := name = "help" || (name = "version" && g.hasVersion) || g.flags.contains name
  if !known then .error (.unknownOption ("--" ++ name))
  else if value.isSome then .error (.needlessValue ("--" ++ name))
  else if name = "help" then .ok (.inl .help)
  else if name = "version" then .ok (.inl .version)
  else Sum.inr <$> given.takeFlag name

def read (g : Grammar) (given : Given) : List String → Except UsageError Stop
  | [] => .ok (.finished given)
  | argument :: rest =>
    match Token.ofText argument with
    | .separator => Stop.finished <$> rest.foldlM g.takePositional given
    | .short letters => g.readShort letters
    | .word text =>
      if g.commands.contains text then .ok (.command given text rest)
      else do read g (← g.takePositional given text) rest
    | .long name value =>
      match g.options.find? (·.name == name) with
      | some p =>
        match value, rest with
        | some value, rest => do read g (← given.take p value) rest
        | none, [] => .error (.missingValue p.name)
        | none, value :: rest =>
          if isValue value then do read g (← given.take p value) rest
          else .error (.missingValue p.name)
      | none => do
        match ← g.readFlag given name value with
        | .inl stop => return stop
        | .inr given => read g given rest

end Grammar

end FeatureFlow.CommandLine
