import FeatureFlow.Text

/-!
# Sets of code points

A set is held as the runs of code points that belong to it. Tables are written as
words, each of them a run in base sixteen: `300-36F`, or `AD` for a single one.
-/

namespace FeatureFlow

structure CodePoints where
  /-- First and last code point of each run. -/
  runs : List (Nat × Nat)

namespace CodePoints

def hexValue (digits : List Char) : Nat :=
  digits.foldl (fun n c => n * 16 + (Text.hexDigit? c).getD 0) 0

def run (word : List Char) : Nat × Nat :=
  match Text.cut? '-' word with
  | some (first, last) => (hexValue first, hexValue last)
  | none => (hexValue word, hexValue word)

def ofText (text : String) : CodePoints :=
  { runs := (Text.words text.toList).map run }

def contains (set : CodePoints) (c : Char) : Bool :=
  set.runs.any fun (first, last) => first ≤ c.toNat && c.toNat ≤ last

end CodePoints

end FeatureFlow
