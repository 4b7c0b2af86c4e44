import FeatureFlow.Decode
import FeatureFlow.Url.Host
import FeatureFlow.Url.Path

/-!
# Web addresses

An address is read by the rules of the web: special schemes always have a host
and take backslashes for slashes, dot segments are worked off, and every part is
kept as it is written out.
-/

namespace FeatureFlow

structure Url where
  scheme : String
  username : String
  password : String
  /-- None where there is no authority. -/
  host : Option String
  port : Option Nat
  /-- Whether a dot holds the path apart from the scheme, so that two slashes do
  not read as an authority. -/
  apart : Bool
  path : UrlPath
  query : Option String
  fragment : Option String
deriving DecidableEq

namespace Url

-- ---------------------------------------------------------------------------
-- Characters
-- ---------------------------------------------------------------------------

def fragmentReserved : List Char := " \"<>`".toList
def pathReserved : List Char := fragmentReserved ++ "#?\x7b\x7d".toList
def userReserved : List Char := pathReserved ++ "/:;=@[\\]^|".toList
def queryReserved : List Char := " \"#<>".toList

def defaultPort? : String → Option Nat
  | "http" | "ws" => some 80
  | "https" | "wss" => some 443
  | "ftp" => some 21
  | _ => none

def isFile (scheme : String) : Bool :=
  scheme == "file"

def isSpecial (scheme : String) : Bool :=
  isFile scheme || (defaultPort? scheme).isSome

def encoded (reserved : List Char) (cs : List Char) : String :=
  .ofList (Percent.encode reserved (UrlPath.counted cs))

def endsAuthority (special : Bool) (c : Char) : Bool :=
  c == '/' || c == '?' || c == '#' || (special && c == '\\')

def isDigit (c : Char) : Bool :=
  '0' ≤ c && c ≤ '9'

-- ---------------------------------------------------------------------------
-- The parts of a text
-- ---------------------------------------------------------------------------

def isSchemeChar (c : Char) : Bool :=
  UrlPath.isLetter c || isDigit c || "+-.".toList.contains c

def scheme? (cs : List Char) : Option (String × List Char) := do
  let (name, rest) ← Text.cut? ':' cs
  let first ← name.head?
  if UrlPath.isLetter first ∧ name.all isSchemeChar then
    some (.ofList (name.map Text.asciiLower), rest)
  else none

-- ---------------------------------------------------------------------------
-- Paths
-- ---------------------------------------------------------------------------

/-- Reads the segments behind the first slash of a path. Those of a file do not
begin with empty ones. -/
def walk (scheme : String) (cs : List Char) : UrlPath.Walked :=
  let unified := if isSpecial scheme then cs.map fun c => if c = '\\' then '/' else c else cs
  let reading : UrlPath.Reading := { file := isFile scheme, reserved := pathReserved }
  let walked := reading.pushAll { segments := [], drive := false } (Text.splitAt '/' unified)
  if isFile scheme then
    match walked.segments.dropWhile (· == "") with
    | [] => { walked with segments := [""] }
    | rest => { walked with segments := rest }
  else walked

def segmentsOf (scheme : String) (cs : List Char) : List String :=
  (walk scheme cs).segments

def pathAfterAuthority (scheme : String) (cs : List Char) : List String :=
  match cs with
  | [] => if isSpecial scheme then [""] else []
  | c :: rest =>
    if c = '/' ∨ (isSpecial scheme ∧ c = '\\') then segmentsOf scheme rest else segmentsOf scheme cs

def tail (scheme : String) (cs : List Char) : List Char × Option String × Option String :=
  let (main, fragment) := match Text.cut? '#' cs with
    | some (main, fragment) => (main, some (encoded fragmentReserved fragment))
    | none => (cs, none)
  let reserved := if isSpecial scheme then '\'' :: queryReserved else queryReserved
  match Text.cut? '?' main with
  | some (path, query) => (path, some (encoded reserved query), fragment)
  | none => (main, none, fragment)

-- ---------------------------------------------------------------------------
-- Authorities
-- ---------------------------------------------------------------------------

/-- The port that digits behind a host stand for, none where it is the default one. -/
def parsePort (scheme : String) (digits : List Char) : Except UrlError (Option Nat) :=
  let n := digits.foldl (fun acc c => acc * 10 + (c.toNat - '0'.toNat)) 0
  if 65535 < n then .error .badPort
  else if digits.isEmpty ∨ defaultPort? scheme = some n then .ok none
  else .ok (some n)

/-- Cuts a host from what follows it: a colon outside brackets, or what ends the
authority. -/
def cutHost (special : Bool) (inside : Bool) : List Char → List Char × List Char
  | [] => ([], [])
  | c :: rest =>
    if (c = ':' ∧ !inside) ∨ endsAuthority special c then ([], c :: rest)
    else
      let (host, after) :=
        cutHost special (if c = '[' then true else if c = ']' then false else inside) rest
      (c :: host, after)

/-- The host and port in front of a path, and the path. A backslash ends a port
even where it does not end a host. -/
def parseHost (scheme : String) (cs : List Char) :
    Except UrlError (String × Option Nat × List Char) := do
  let (name, rest) := cutHost (isSpecial scheme) false cs
  if isSpecial scheme ∧ name.isEmpty then throw .emptyHost
  let host ← if isSpecial scheme then Host.parse name else Host.parseGeneral name
  match rest with
  | ':' :: rest =>
    if host = "" then throw .emptyHost
    let port ← parsePort scheme (rest.takeWhile isDigit)
    let path := rest.dropWhile isDigit
    match path.head? with
    | none => return (host, port, path)
    | some c => if c = '/' ∨ c = '\\' then return (host, port, path) else throw .badPort
  | path => return (host, none, path)

/-- Cuts off the name and password before the last sign for `at`. -/
def cutUser (cs : List Char) : Option (List Char) × List Char :=
  match Text.cut? '@' cs.reverse with
  | some (host, user) => (some user.reverse, host.reverse)
  | none => (none, cs)

def parseAuthority (scheme : String) (cs : List Char) : Except UrlError Url := do
  let (main, query, fragment) := tail scheme cs
  let authority := main.takeWhile fun c => !endsAuthority (isSpecial scheme) c
  let (user, hostText) := cutUser authority
  -- an at sign with nothing on either side of it
  if user = some [] ∧ hostText.isEmpty ∧ cs.length ≠ authority.length then throw .emptyHost
  let (name, password) := match Text.cut? ':' (user.getD []) with
    | some (name, password) => (name, password)
    | none => (user.getD [], [])
  let (host, port, path) ← parseHost scheme (hostText ++ main.drop authority.length)
  if host = "" ∧ !(name.isEmpty ∧ password.isEmpty) then throw .emptyHost
  return { scheme, username := encoded userReserved name, password := encoded userReserved password,
           host := some host, port, apart := false
           path := .segments (pathAfterAuthority scheme path), query, fragment }

def bare (scheme : String) (host : Option String) (path : UrlPath)
    (query fragment : Option String) : Url :=
  { scheme, username := "", password := "", host, port := none, apart := false, path,
    query, fragment }

-- ---------------------------------------------------------------------------
-- Addresses
-- ---------------------------------------------------------------------------

def afterSlash? (cs : List Char) : Option (List Char) :=
  match cs.dropWhile UrlPath.isDropped with
  | [] => none
  | c :: rest => if c = '/' ∨ c = '\\' then some rest else none

/-- The address of a file, in which tabs and line ends still stand. A drive in
place of the host belongs to the path. -/
def parseFile (cs : List Char) : Except UrlError Url := do
  let scheme := "file"
  let (main, query, fragment) := tail scheme cs
  let file (host : String) (path : List String) :=
    bare scheme (some host) (.segments path) query fragment
  match afterSlash? main with
  | none => return file "" (segmentsOf scheme main)
  | some path =>
    match afterSlash? path with
    | none => return file "" (segmentsOf scheme path)
    | some rest =>
      let hostText := rest.takeWhile fun c => !endsAuthority true c
      let path := rest.drop hostText.length
      let name := UrlPath.counted hostText
      if UrlPath.isDrive name then return file "" (segmentsOf scheme rest)
      let host ← if name.isEmpty then pure "" else Host.parse name
      -- a file on this machine has no host
      if host = "" ∨ host = "localhost" then return file "" (segmentsOf scheme path)
      let walked := walk scheme ((afterSlash? path).getD path)
      return file (if walked.drive then "" else host) walked.segments

def beginsTwice (segments : List String) : Bool :=
  1 < segments.length && segments.head? == some ""

def parseGeneral (scheme : String) (cs : List Char) : Except UrlError Url := do
  match cs with
  | '/' :: '/' :: rest => parseAuthority scheme rest
  | '/' :: rest =>
    let (path, query, fragment) := tail scheme rest
    let segments := segmentsOf scheme path
    return { bare scheme none (.segments segments) query fragment with
      apart := beginsTwice segments }
  | other =>
    let (path, query, fragment) := tail scheme other
    return bare scheme none (.text (encoded [] path)) query fragment

/-- Blanks and control characters around an address do not count. -/
def trimmed (text : String) : List Char :=
  let isEdge (c : Char) : Bool := c.toNat ≤ 0x20
  ((text.toList.dropWhile isEdge).reverse.dropWhile isEdge).reverse

def parse (text : String) : Except UrlError Url :=
  let cs := trimmed text
  match scheme? (UrlPath.counted cs) with
  | none => .error .relative
  | some (scheme, rest) =>
    if isFile scheme then parseFile (((Text.cut? ':' cs).map (·.2)).getD [])
    else if isSpecial scheme then
      parseAuthority scheme (rest.dropWhile fun c => c == '/' || c == '\\')
    else parseGeneral scheme rest

-- ---------------------------------------------------------------------------
-- Writing
-- ---------------------------------------------------------------------------

def userText (u : Url) : String :=
  if u.username = "" ∧ u.password = "" then ""
  else u.username ++ (if u.password = "" then "" else ":" ++ u.password) ++ "@"

def authorityText (u : Url) : String :=
  match u.host with
  | none => ""
  | some host => "//" ++ u.userText ++ host ++ (u.port.map fun n => ":" ++ toString n).getD ""

def pathText (u : Url) : String :=
  match u.path with
  | .text value => value
  | .segments list =>
    (if u.apart then "/." else "") ++ String.join (list.map ("/" ++ ·))

def text (u : Url) : String :=
  u.scheme ++ ":" ++ u.authorityText ++ u.pathText ++ (u.query.map ("?" ++ ·)).getD "" ++
    (u.fragment.map ("#" ++ ·)).getD ""

-- ---------------------------------------------------------------------------
-- Adding segments
-- ---------------------------------------------------------------------------

def takesSegments (u : Url) : Bool :=
  match u.path with
  | .text _ => false
  | .segments _ => true

def segmentReserved (scheme : String) : List Char :=
  pathReserved ++ ['/', '%'] ++ (if isSpecial scheme then ['\\'] else [])

/-- Adds a segment. One that is a dot or two is left out; one that becomes so
without its tabs and line ends is worked off. -/
def addSegment (scheme : String) (segments : List String) (segment : String) : List String :=
  if segment = "." ∨ segment = ".." then segments
  else
    -- a path that is one empty segment is the bare root
    let before := if segments = [""] then [] else segments
    let reading : UrlPath.Reading := { file := isFile scheme, reserved := segmentReserved scheme }
    (reading.push true { segments := before, drive := false } segment.toList).segments

/-- Adds segments in place of an empty last one. -/
def extend (u : Url) (segments : List String) : Option Url :=
  match u.path with
  | .text _ => none
  | .segments list =>
    let kept := if 1 < list.length ∧ list.getLast? = some "" then list.dropLast else list
    some { u with path := .segments (segments.foldl (addSegment u.scheme) kept) }

def decode : Json → Decoded Url
  | .text value =>
    match parse value with
    | .ok u => .ok u
    | .error e => .error (.refused (e.message ++ ": " ++ Text.quoted value))
  | other => Decode.mismatch other "a string representing an URL"

def toJson (u : Url) : Json :=
  .text u.text

end Url

end FeatureFlow
