import FeatureFlow.Table
import FeatureFlow.Text.Alphanumeric

/-!
# Environment files

A file of lines `NAME=value`, each of which sets a variable that has no value
yet. Quotes carry a line on over its end. A value may be quoted weakly, strongly
or not at all, and may refer to variables outside of strong quotes. The first
line that cannot be read ends the file.
-/

namespace FeatureFlow.EnvironmentFile

-- ---------------------------------------------------------------------------
-- Lines
-- ---------------------------------------------------------------------------

/-- Where a walk over a line stands with respect to quotes and comments. -/
inductive Quoting where
  | plain
  | blank
  | escape
  | weak
  | weakEscape
  | strong
  | strongEscape
deriving DecidableEq

def Quoting.enter (c : Char) : Quoting :=
  if c = '\\' then escape
  else if c = '"' then weak
  else if c = '\'' then strong
  else plain

def Quoting.next (q : Quoting) (c : Char) : Quoting :=
  match q with
  | plain => if Text.isBlank c ∧ c ≠ '\n' ∧ c ≠ '\r' then blank else enter c
  | blank => enter c
  | escape => plain
  | weak => if c = '\\' then weakEscape else if c = '"' then plain else weak
  | weakEscape => weak
  | strong => if c = '\\' then strongEscape else if c = '\'' then plain else strong
  | strongEscape => strong

/-- A walk over a line ends at its end, or at a comment with what stands before. -/
inductive Walked where
  | ended (q : Quoting)
  | comment (before : List Char)

/-- Walks over a line. A comment starts behind a blank. -/
def walk (q : Quoting) : List Char → Walked
  | [] => .ended q
  | c :: rest =>
    if q = .blank ∧ c = '#' then .comment []
    else
      match walk (q.next c) rest with
      | .comment before => .comment (c :: before)
      | ended => ended

def rawLines (cs : List Char) : List (List Char) :=
  match (Text.splitAt '\n' cs).reverse with
  | [] => []
  | last :: others =>
    (others.map (· ++ ['\n'])).reverse ++ (if last.isEmpty then [] else [last])

def withoutBreak (line : List Char) : List Char :=
  match Text.before? ['\n'] line with
  | none => line
  | some front => (Text.before? ['\r'] front).getD front

def isComment (line : List Char) : Bool :=
  (line.dropWhile Text.isBlank).head? = some '#'

/-- The lines as they are meant, with what is held back of a line that goes on.
A line that never ends is none. -/
def logicalLines (held : List Char) (q : Quoting) : List (List Char) → List (Option (List Char))
  | [] => if q = .plain then [] else [none]
  | raw :: rest =>
    if isComment (held ++ raw) then some [] :: logicalLines [] .plain rest
    else
      match walk q raw with
      | .comment before => some (held ++ before) :: logicalLines [] .plain rest
      | .ended .plain => some (withoutBreak (held ++ raw)) :: logicalLines [] .plain rest
      | .ended other => logicalLines (held ++ raw) other rest

-- ---------------------------------------------------------------------------
-- Values
-- ---------------------------------------------------------------------------

inductive Mode where
  | plain
  | escape
  | strong
  /-- In the name of a variable, with braces or without. -/
  | name (braced : Bool) (soFar : List Char)
  /-- Behind the value, where only a comment may follow. -/
  | behind
  | done

structure Reading where
  mode : Mode
  /-- Whether a weak quote is open. -/
  weak : Bool
  output : List Char

namespace Reading

def start : Reading :=
  { mode := .plain, weak := false, output := [] }

def put (r : Reading) (cs : List Char) : Reading :=
  { r with output := r.output ++ cs }

/-- Puts the value of a variable, nothing where it has none. -/
def substitute (lookup : String → Option String) (r : Reading) (name : List Char) : Reading :=
  { r with mode := .plain }.put ((lookup (.ofList name)).getD "").toList

def escaped? (c : Char) : Option Char :=
  if c = 'n' then some '\n'
  else if c ∈ ['\\', '\'', '"', '$', ' '] then some c
  else none

/-- One character outside of strong quotes, escapes and names. -/
def open? (r : Reading) (c : Char) : Option Reading :=
  if c = '$' then some { r with mode := .name false [] }
  else if c = '\\' then some { r with mode := .escape }
  else if c = '"' then some { r with weak := !r.weak }
  else if r.weak then some (r.put [c])
  else if c = '\'' then some { r with mode := .strong }
  else if c = ' ' ∨ c = '\t' then some { r with mode := .behind }
  else some (r.put [c])

/-- A character that ends a name without braces belongs to the value as it is,
unless it starts another name. -/
def afterName (lookup : String → Option String) (r : Reading) (name : List Char) (c : Char) :
    Reading :=
  let r := r.substitute lookup name
  if c = '$' then { r with mode := .name false [] } else r.put [c]

def step? (lookup : String → Option String) (r : Reading) (c : Char) : Option Reading :=
  match r.mode with
  | .done => some r
  | .behind =>
    if c = ' ' ∨ c = '\t' then some r
    else if c = '#' then some { r with mode := .done }
    else none
  | .escape => (escaped? c).map fun c => { r with mode := .plain }.put [c]
  | .strong => if c = '\'' then some { r with mode := .plain } else some (r.put [c])
  | .name braced name =>
    if Text.isAlphanumeric c then some { r with mode := .name braced (name ++ [c]) }
    else if braced then
      if c = '\x7d' then some (r.substitute lookup name)
      else some { r with mode := .name true (name ++ [c]) }
    else if c = '\x7b' ∧ name = [] then some { r with mode := .name true [] }
    else some (r.afterName lookup name c)
  | .plain => r.open? c

def finish? (lookup : String → Option String) (r : Reading) : Option String :=
  if r.weak then none
  else
    match r.mode with
    | .strong => none
    | .name true _ => none
    | .name false name => some (.ofList (r.substitute lookup name).output)
    | _ => some (.ofList r.output)

end Reading

def value? (lookup : String → Option String) (cs : List Char) : Option String := do
  (← cs.foldlM (Reading.step? lookup) .start).finish? lookup

-- ---------------------------------------------------------------------------
-- Assignments
-- ---------------------------------------------------------------------------

inductive Line where
  | nothing
  | assignment (name value : String)
  | malformed

def skipBlanks (cs : List Char) : List Char :=
  cs.dropWhile Text.isBlank

def isNameStart (c : Char) : Bool :=
  c.isAlpha || c = '_'

def isNameChar (c : Char) : Bool :=
  c.isAlphanum || c = '_' || c = '.'

def name? (cs : List Char) : Option (List Char × List Char) :=
  match cs with
  | [] => none
  | c :: _ =>
    if isNameStart c then
      some (cs.takeWhile isNameChar, skipBlanks (cs.dropWhile isNameChar))
    else none

/-- A name and what follows the equals sign behind it. The word `export` may
stand in front. -/
def assigned? (cs : List Char) : Option (List Char × List Char) := do
  let (name, rest) ← name? cs
  match rest with
  | '=' :: value => return (name, value)
  | _ =>
    if name = "export".toList then
      let (name, rest) ← name? rest
      match rest with
      | '=' :: value => return (name, value)
      | _ => none
    else none

def Line.read (lookup : String → Option String) (cs : List Char) : Line :=
  match Text.trim cs with
  | [] => nothing
  | '#' :: _ => nothing
  | line =>
    match assigned? line with
    | none => malformed
    | some (name, rest) =>
      match skipBlanks rest with
      | [] => assignment (.ofList name) ""
      | '#' :: _ => assignment (.ofList name) ""
      | value =>
        match value? lookup value with
        | some value => assignment (.ofList name) value
        | none => malformed

-- ---------------------------------------------------------------------------
-- Variables
-- ---------------------------------------------------------------------------

def setNew (vars : Table String) (name value : String) : Table String :=
  if vars.contains name then vars else vars.insert name value

def isStorable (value : String) : Bool :=
  !value.toList.contains '\x00'

/-- Takes lines one after another, up to the first that cannot be read. It fails
with the name of a variable that is to get a value that none can have. -/
def primeLines (vars : Table String) : List (Option (List Char)) → Except String (Table String)
  | [] => .ok vars
  | none :: _ => .ok vars
  | some line :: rest =>
    match Line.read vars.get? line with
    | .nothing => primeLines vars rest
    | .assignment name value =>
      if vars.contains name ∨ isStorable value then primeLines (setNew vars name value) rest
      else .error name
    | .malformed => .ok vars

/-- The variables after a file has been taken. A byte order mark in front is
no part of the first line. -/
def prime (vars : Table String) (text : String) : Except String (Table String) :=
  let cs := text.toList
  primeLines vars (logicalLines [] .plain (rawLines ((Text.after? ['\ufeff'] cs).getD cs)))

end FeatureFlow.EnvironmentFile
