import FeatureFlow.Text.Assigned
import FeatureFlow.Text.Composition
import FeatureFlow.Text.Direction
import FeatureFlow.Text.Joining
import FeatureFlow.Url.Domain.Replacement
import FeatureFlow.Url.Punycode

/-!
# Domains

The name of a domain is brought into its normal form: characters are replaced,
marks are joined, and labels beyond ASCII are written as punycode. A label that
is punycode already must stand for one that is in normal form. Names that could
be mistaken for others, by marks, joiners or writing directions, are none.
-/

namespace FeatureFlow.Domain

-- ---------------------------------------------------------------------------
-- Characters
-- ---------------------------------------------------------------------------

def isForbidden (c : Char) : Bool :=
  c.toNat ≤ 0x20 || c.toNat == 0x7F || "%#/:<>?@[\\]^|".toList.contains c

def normalized? (c : Char) : Option (List Char) :=
  if c.toNat < 0x80 then some [Text.asciiLower c]
  else if ignored.contains c then some []
  else if refused.contains c || !Text.isAssigned c then none
  else some ((replacement? c).getD [c])

def isSettled (c : Char) : Bool :=
  normalized? c == some [c] && !isForbidden c

-- ---------------------------------------------------------------------------
-- Joiners
-- ---------------------------------------------------------------------------

/-- A sign that suppresses the last vowel of a syllable. -/
def isVirama (c : Char) : Bool :=
  Text.markClass c == 9

/-- Whether a joiner may stand between what is before it, nearest first, and what
is behind it: after a virama, or one that parts letters between joined ones. -/
def joinerFits (c : Char) (before after : List Char) : Bool :=
  (before.head?.map isVirama).getD false ||
    (c.toNat == 0x200C && Text.meets Text.joiningForward before &&
      Text.meets Text.joiningBack after)

def joinersFit (before : List Char) : List Char → Bool
  | [] => true
  | c :: rest =>
    (!(c.toNat == 0x200C || c.toNat == 0x200D) || joinerFits c before rest) &&
      joinersFit (c :: before) rest

-- ---------------------------------------------------------------------------
-- Labels
-- ---------------------------------------------------------------------------

structure Label where
  plain : List Char
  ascii : List Char

def isSound (label : List Char) : Bool :=
  !(label.head?.map Text.isMark).getD false && joinersFit [] label && label.length ≤ 1000

def decoded? (code : List Char) : Option (List Char) := do
  if 2000 < code.length then none
  let label ← Punycode.decode? code
  if label.all Punycode.isBasic then none
  else if label.all isSettled && Text.composed label == label && isSound label then some label
  else none

def label? (cs : List Char) : Option Label :=
  match Text.after? "xn--".toList cs with
  | some code => (decoded? code).map fun plain => { plain, ascii := cs }
  | none =>
    if cs.all Punycode.isBasic then some { plain := cs, ascii := cs }
    else if isSound cs then some { plain := cs, ascii := "xn--".toList ++ Punycode.encode cs }
    else none

-- ---------------------------------------------------------------------------
-- Directions
-- ---------------------------------------------------------------------------

def isRightToLeft (label : Label) : Bool :=
  label.plain.any fun c => [.right, .arabicNumber].contains (Text.Direction.ofChar c)

/-- Whether a label reads in one direction. Marks at its end belong to the
character before them. -/
def keepsDirection (label : List Char) : Bool :=
  let directions := label.map Text.Direction.ofChar
  let rest := (directions.drop 1).reverse.dropWhile (· == .mark)
  match directions.head? with
  | none => true
  | some .left =>
    rest.all (fun d => [.left, .number, .neutral, .mark].contains d) &&
      (rest.take 1).all fun d => [.left, .number].contains d
  | some .right =>
    rest.all (fun d => d != .left) &&
      (rest.take 1).all (fun d => [.right, .number, .arabicNumber].contains d) &&
      !(rest.contains .number && rest.contains .arabicNumber)
  | some _ => false

-- ---------------------------------------------------------------------------
-- Names
-- ---------------------------------------------------------------------------

def joinLabels : List (List Char) → List Char
  | [] => []
  | [label] => label
  | label :: rest => label ++ '.' :: joinLabels rest

def normalForm? (cs : List Char) : Option (List Char) := do
  let text := Text.composed (← cs.mapM normalized?).flatten
  if text.any isForbidden then none
  let labels ← (Text.splitAt '.' text).mapM label?
  if labels.any isRightToLeft && !labels.all fun label => keepsDirection label.plain then none
  return joinLabels (labels.map (·.ascii))

end FeatureFlow.Domain
