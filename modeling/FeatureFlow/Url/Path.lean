import FeatureFlow.Url.Percent

/-!
# Paths of addresses

A path is read segment by segment. Dot segments are worked off as they come, and
a drive letter is never given up by them. A path that belongs to no host may as
well be a plain text.
-/

namespace FeatureFlow

inductive UrlPath where
  /-- Behind a scheme without a slash; takes no segments. -/
  | text (value : String)
  | segments (list : List String)
deriving DecidableEq

namespace UrlPath

-- ---------------------------------------------------------------------------
-- Segments
-- ---------------------------------------------------------------------------

def isLetter (c : Char) : Bool :=
  ('a' ≤ c && c ≤ 'z') || ('A' ≤ c && c ≤ 'Z')

/-- Tabs and line ends, which do not count in an address. -/
def isDropped (c : Char) : Bool :=
  c == '\t' || c == '\n' || c == '\r'

def counted (cs : List Char) : List Char :=
  cs.filter fun c => !isDropped c

def isDrive : List Char → Bool
  | [letter, mark] => isLetter letter && (mark == ':' || mark == '|')
  | _ => false

def leadsWithDrive (segment : List Char) : Bool :=
  isDrive (segment.take 2) && ((segment.drop 2).head?.map (· == '\\')).getD true

/-- Whether a segment stands for its own directory, dots as triplets included. -/
def isDot (segment : List Char) : Bool :=
  [".", "%2e"].contains (String.ofList (segment.map Text.asciiLower))

def isDoubleDot (segment : List Char) : Bool :=
  ["..", ".%2e", "%2e.", "%2e%2e"].contains (String.ofList (segment.map Text.asciiLower))

/-- A drive and the name behind it, where only a tab or line end parts them. -/
def partedDrive? (segment : List Char) : Option (List Char × List Char) :=
  match segment.dropWhile isDropped with
  | [] => none
  | letter :: rest =>
    match rest.dropWhile isDropped with
    | ':' :: mark :: rest =>
      let name := counted rest
      if isLetter letter && isDropped mark && !name.isEmpty then some ([letter, ':'], name)
      else none
    | _ => none

-- ---------------------------------------------------------------------------
-- Reading
-- ---------------------------------------------------------------------------

structure Reading where
  /-- Whether the path is that of a file, and may start with a drive. -/
  file : Bool
  /-- What a segment may not hold as it is. -/
  reserved : List Char

structure Walked where
  segments : List String
  /-- Whether the path names a drive, which has no host. -/
  drive : Bool

/-- The segments without the last one, which stays where it is a drive. -/
def shortened (segments : List String) : List String :=
  match segments.getLast? with
  | none => []
  | some last => if leadsWithDrive last.toList then segments else segments.dropLast

namespace Reading

def written (r : Reading) (cs : List Char) : List Char :=
  Percent.encode r.reserved (counted cs)

/-- The first segment of a file's path, in which a bar behind a drive letter
becomes a colon. -/
def first (r : Reading) (segment : List Char) : Walked :=
  match partedDrive? segment with
  | some (drive, name) =>
    { segments := [String.ofList drive, String.ofList (r.written name)], drive := false }
  | none =>
    let name := r.written segment
    if isDrive name then { segments := [String.ofList (name.take 1 ++ [':'])], drive := true }
    else { segments := [String.ofList name], drive := false }

def push (r : Reading) (final : Bool) (walked : Walked) (segment : List Char) : Walked :=
  let before := walked.segments
  let after := if final then [""] else []
  let name := r.written segment
  if isDoubleDot name then { walked with segments := shortened before ++ after }
  else if isDot name then { walked with segments := before ++ after }
  else if r.file && before.isEmpty then r.first segment
  else { walked with segments := before ++ [String.ofList name] }

def pushAll (r : Reading) (walked : Walked) : List (List Char) → Walked
  | [] => walked
  | [last] => r.push true walked last
  | segment :: rest => pushAll r (r.push false walked segment) rest

end Reading

end UrlPath

end FeatureFlow
