/-!
# Cutting and trimming text

Blank characters are those with the White_Space property of Unicode.
-/

namespace FeatureFlow.Text

/-- How many bytes the characters take up in UTF-8. -/
def byteSize (cs : List Char) : Nat :=
  cs.foldl (fun size c => size + c.utf8Size) 0

/-- The pieces between separators; a text without one is a single piece. -/
def splitAt (separator : Char) : List Char → List (List Char)
  | [] => [[]]
  | c :: rest =>
    if c = separator then [] :: splitAt separator rest
    else
      match splitAt separator rest with
      | [] => [[c]]
      | piece :: pieces => (c :: piece) :: pieces

def cut? (separator : Char) : List Char → Option (List Char × List Char)
  | [] => none
  | c :: rest =>
    if c = separator then some ([], rest)
    else (cut? separator rest).map fun (before, after) => (c :: before, after)

def afterLast? (separator : Char) (cs : List Char) : Option (List Char) :=
  (cut? separator cs.reverse).map (·.1.reverse)

def isBlank (c : Char) : Bool :=
  let n := c.toNat
  (9 ≤ n && n ≤ 13) || n == 0x20 || n == 0x85 || n == 0xA0 || n == 0x1680 ||
    (0x2000 ≤ n && n ≤ 0x200A) || n == 0x2028 || n == 0x2029 || n == 0x202F ||
    n == 0x205F || n == 0x3000

def trim (cs : List Char) : List Char :=
  ((cs.dropWhile isBlank).reverse.dropWhile isBlank).reverse

def after? (start : List Char) (cs : List Char) : Option (List Char) :=
  if start.isPrefixOf cs then some (cs.drop start.length) else none

def before? (finish : List Char) (cs : List Char) : Option (List Char) :=
  if finish.isSuffixOf cs then some (cs.take (cs.length - finish.length)) else none

def asciiLower (c : Char) : Char :=
  if 'A' ≤ c ∧ c ≤ 'Z' then Char.ofNat (c.toNat + 32) else c

def hexDigit? (c : Char) : Option Nat :=
  if '0' ≤ c ∧ c ≤ '9' then some (c.toNat - '0'.toNat)
  else if 'a' ≤ c ∧ c ≤ 'f' then some (c.toNat - 'a'.toNat + 10)
  else if 'A' ≤ c ∧ c ≤ 'F' then some (c.toNat - 'A'.toNat + 10)
  else none

/-- The pieces between spaces and line ends. -/
def words (cs : List Char) : List (List Char) :=
  (splitAt ' ' (cs.map fun c => if c = '\n' then ' ' else c)).filter (!·.isEmpty)

def join (separator : String) (pieces : List String) : String :=
  separator.intercalate pieces

end FeatureFlow.Text
