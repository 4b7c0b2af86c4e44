import FeatureFlow.Text

/-!
# Addresses of log collectors

An address is a path, a host with an optional port, or a scheme and a host with
a path behind them. Of the characters of ASCII only those that need no encoding
may occur. Others stand in paths and queries alone. The fragment at the end is not
looked at.
-/

namespace FeatureFlow.Collector

def isAlphanumeric (c : Char) : Bool :=
  c.isAlphanum

def isSchemeChar (c : Char) : Bool :=
  isAlphanumeric c || "+-.~".toList.contains c

def isHostChar (c : Char) : Bool :=
  isAlphanumeric c || "!$&'()*+,-.:;=@[]_~".toList.contains c

def endsHost (c : Char) : Bool :=
  c = '/' || c = '?' || c = '#'

/-- What a walk over a host has seen: colons since the last bracket or at sign,
brackets, and whether a percent sign may still belong to a user name. -/
structure HostWalk where
  colons : Nat
  opened : Bool
  closed : Bool
  percent : Bool

namespace HostWalk

def start : HostWalk :=
  { colons := 0, opened := false, closed := false, percent := false }

def colonLimit : Nat := 8

def step? (w : HostWalk) (c : Char) : Option HostWalk :=
  if c = '%' then some { w with percent := true }
  else if !isHostChar c then none
  else if c = ':' then
    if w.colons < colonLimit then some { w with colons := w.colons + 1 } else none
  else if c = '[' then
    if w.percent || w.opened then none else some { w with opened := true }
  else if c = ']' then
    if w.opened && !w.closed then some { w with closed := true, colons := 0, percent := false }
    else none
  else if c = '@' then some { w with colons := 0, percent := false }
  else some w

def isGood (w : HostWalk) : Bool :=
  w.opened == w.closed && w.colons ≤ 1 && !w.percent

end HostWalk

def isHost (cs : List Char) : Bool :=
  match cs.foldlM HostWalk.step? .start with
  | some w => w.isGood && cs.getLast? != some '@'
  | none => false

def isPathChar (c : Char) : Bool :=
  isAlphanumeric c || 0x7F ≤ c.toNat ||
    "!$%&'()*+,-./:;=@[\\]^_|~\"\x7b\x7d".toList.contains c

def isQueryChar (c : Char) : Bool :=
  (isPathChar c && c ≠ '"') || "?`".toList.contains c

def isPath (cs : List Char) : Bool :=
  let visible := cs.takeWhile (· ≠ '#')
  let path := visible.takeWhile (· ≠ '?')
  path.all isPathChar && (visible.drop (path.length + 1)).all isQueryChar

def schemeLimit : Nat := 64
def lengthLimit : Nat := 65534

def scheme? (cs : List Char) : Option (List Char × List Char) :=
  let scheme := cs.takeWhile isSchemeChar
  (Text.after? "://".toList (cs.drop scheme.length)).map fun rest => (scheme, rest)

def isAddress (text : String) : Bool :=
  if lengthLimit < text.utf8ByteSize then false
  else
    match text.toList with
    | [] => false
    | '/' :: rest => isPath rest
    | cs =>
      match scheme? cs with
      | none => isHost cs
      | some (scheme, rest) =>
        let host := rest.takeWhile fun c => !endsHost c
        scheme.length ≤ schemeLimit && !host.isEmpty && isHost host &&
          isPath (rest.drop host.length)

end FeatureFlow.Collector
