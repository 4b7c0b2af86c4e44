import FeatureFlow.Decode
import FeatureFlow.Text

/-!
# Points in time

A point in time is a civil date and a time of day in UTC. It is read from the
internet date and time format with any offset, and written with `Z` and as many
digits of the second as it needs: none, three, six or nine.
-/

namespace FeatureFlow

inductive TimestampError where
  | outOfRange
  | invalidCharacters
  | endsEarly
  | trailing
  /-- The offset leads out of the years that are known. -/
  | impossible
deriving DecidableEq

def TimestampError.message : TimestampError → String
  | outOfRange => "input is out of range"
  | invalidCharacters => "input contains invalid characters"
  | endsEarly => "premature end of input"
  | trailing => "trailing input"
  | impossible => "no possible date and time matching input"

/-- Seconds and nanoseconds since the start of 1970. A leap second counts as the
second before it with more than a second of nanoseconds. -/
structure Timestamp where
  seconds : Int
  nanoseconds : Nat
deriving DecidableEq

namespace Timestamp

-- ---------------------------------------------------------------------------
-- The calendar
-- ---------------------------------------------------------------------------

def isLeapYear (year : Int) : Bool :=
  year % 4 == 0 && (year % 100 != 0 || year % 400 == 0)

def monthLength (year : Int) (month : Nat) : Nat :=
  match month with
  | 2 => if isLeapYear year then 29 else 28
  | 4 | 6 | 9 | 11 => 30
  | _ => 31

/-- The days from the start of 1970 to a date. Years are counted from March, so
that the leap day is the last one. -/
def daysOfDate (year : Int) (month day : Nat) : Int :=
  let y := if month ≤ 2 then year - 1 else year
  let shifted := (month + 9) % 12
  let dayOfYear := (153 * shifted + 2) / 5 + (day - 1)
  365 * y + y / 4 - y / 100 + y / 400 + dayOfYear - 719468

def firstYear : Int := -262143
def lastYear : Int := 262142

def isKnownDay (days : Int) : Bool :=
  daysOfDate firstYear 1 1 ≤ days && days ≤ daysOfDate lastYear 12 31

def dateOfDays (days : Int) : Int × Nat × Nat :=
  let z := days + 719468
  let era := z / 146097
  let dayOfEra := (z % 146097).toNat
  let yearOfEra := (dayOfEra - dayOfEra / 1460 + dayOfEra / 36524 - dayOfEra / 146096) / 365
  let dayOfYear := dayOfEra - (365 * yearOfEra + yearOfEra / 4 - yearOfEra / 100)
  let shifted := (5 * dayOfYear + 2) / 153
  let day := dayOfYear - (153 * shifted + 2) / 5 + 1
  let month := if shifted < 10 then shifted + 3 else shifted - 9
  let year := era * 400 + yearOfEra + (if month ≤ 2 then 1 else 0)
  (year, month, day)

-- ---------------------------------------------------------------------------
-- Reading
-- ---------------------------------------------------------------------------

abbrev Reader (α : Type) := List Char → Except TimestampError (α × List Char)

def isDigit (c : Char) : Bool :=
  '0' ≤ c && c ≤ '9'

def digitsValue (digits : List Char) : Nat :=
  digits.foldl (fun acc c => acc * 10 + (c.toNat - '0'.toNat)) 0

/-- A number of at least `least` and at most `most` digits. A text ends early when
it has fewer bytes than the number has digits. -/
def number (least most : Nat) : Reader Nat := fun cs =>
  let digits := (cs.take most).takeWhile isDigit
  if digits.length < least then
    .error (if Text.byteSize cs < least then .endsEarly else .invalidCharacters)
  else .ok (digitsValue digits, cs.drop digits.length)

def blanks : Reader Unit := fun cs =>
  .ok ((), cs.dropWhile Text.isBlank)

def literal (c : Char) : Reader Unit
  | [] => .error .endsEarly
  | d :: rest => if d = c then .ok ((), rest) else .error .invalidCharacters

/-- A number of two digits within a range, behind blanks. -/
def field (least most : Nat) : Reader Nat := fun cs => do
  let (value, rest) ← number 1 2 (cs.dropWhile Text.isBlank)
  if least ≤ value ∧ value ≤ most then return (value, rest) else throw .outOfRange

/-- A year of up to four digits, or of any length behind a sign, as far as it fits
thirty-two bits. -/
def year : Reader Int := fun cs => do
  let (value, rest) ← match cs.dropWhile Text.isBlank with
    | '-' :: rest => (fun (n, tail) => (-(n : Int), tail)) <$> number 1 rest.length rest
    | '+' :: rest => (fun (n, tail) => ((n : Int), tail)) <$> number 1 rest.length rest
    | other => (fun (n, tail) => ((n : Int), tail)) <$> number 1 4 other
  if -(Nat.pow 2 31 : Nat) ≤ value ∧ value < (Nat.pow 2 31 : Nat) then return (value, rest) else throw .outOfRange

/-- The digits behind a point as nanoseconds; those past the ninth are dropped. -/
def fraction : Reader Nat
  | '.' :: rest => do
    let (_, _) ← number 1 1 rest
    let digits := rest.takeWhile isDigit
    let kept := digits.take 9
    return (digitsValue kept * Nat.pow 10 (9 - kept.length), rest.drop digits.length)
  | cs => .ok (0, cs)

def offset : Reader Int
  | [] => .error .endsEarly
  | c :: rest =>
    if c = 'Z' ∨ c = 'z' then .ok (0, rest)
    else if (c :: rest).take 3 |>.map Text.asciiLower |> (· = ['u', 't', 'c']) then
      .ok (0, rest.drop 2)
    else if c = '+' ∨ c = '-' ∨ c = '−' then do
      let (hours, rest) ← number 2 2 rest
      let rest := rest.dropWhile fun d => d = ':' || Text.isBlank d
      let (minutes, rest) ← number 2 2 rest
      if 60 ≤ minutes then throw .outOfRange
      let size : Int := hours * 3600 + minutes * 60
      return (if c = '+' then size else -size, rest)
    else .error .invalidCharacters

def parse (text : String) : Except TimestampError Timestamp := do
  let (y, cs) ← year text.toList
  let ((), cs) ← blanks cs
  let ((), cs) ← literal '-' cs
  let (month, cs) ← field 1 12 cs
  let ((), cs) ← blanks cs
  let ((), cs) ← literal '-' cs
  let (day, cs) ← field 1 31 cs
  let cs ← match cs with
    | [] => throw .endsEarly
    | c :: rest =>
      if c = 'T' ∨ c = 't' ∨ c = ' ' then pure rest else throw .invalidCharacters
  let (hour, cs) ← field 0 23 cs
  let ((), cs) ← blanks cs
  let ((), cs) ← literal ':' cs
  let (minute, cs) ← field 0 59 cs
  let ((), cs) ← blanks cs
  let ((), cs) ← literal ':' cs
  let (second, cs) ← field 0 60 cs
  let (nanoseconds, cs) ← fraction cs
  let (shift, cs) ← offset (cs.dropWhile Text.isBlank)
  if !(cs.dropWhile Text.isBlank).isEmpty then throw .trailing
  -- the date and the size of the offset are checked last
  if y < firstYear ∨ lastYear < y ∨ monthLength y month < day then throw .outOfRange
  if 86400 ≤ shift.natAbs then throw .outOfRange
  -- a leap second counts as the second before it, with more nanoseconds
  let leap := second = 60
  let time : Int := hour * 3600 + minute * 60 + (if leap then 59 else second)
  let seconds := daysOfDate y month day * 86400 + time - shift
  if !isKnownDay (seconds / 86400) then throw .impossible
  return { seconds, nanoseconds := nanoseconds + (if leap then 1000000000 else 0) }

-- ---------------------------------------------------------------------------
-- Writing
-- ---------------------------------------------------------------------------

def padded (width n : Nat) : String :=
  let digits := toString n
  String.ofList (List.replicate (width - digits.length) '0') ++ digits

def writtenYear (year : Int) : String :=
  if 0 ≤ year ∧ year ≤ 9999 then padded 4 year.toNat
  else (if year < 0 then "-" else "+") ++ padded 4 year.natAbs

def writtenFraction (nanoseconds : Nat) : String :=
  if nanoseconds = 0 then ""
  else if nanoseconds % 1000000 = 0 then "." ++ padded 3 (nanoseconds / 1000000)
  else if nanoseconds % 1000 = 0 then "." ++ padded 6 (nanoseconds / 1000)
  else "." ++ padded 9 nanoseconds

def dateText (t : Timestamp) : String :=
  let (y, month, day) := dateOfDays (t.seconds / 86400)
  writtenYear y ++ "-" ++ padded 2 month ++ "-" ++ padded 2 day

def text (t : Timestamp) : String :=
  let time := (t.seconds % 86400).toNat
  let leap := 1000000000 ≤ t.nanoseconds
  t.dateText ++ "T" ++
    padded 2 (time / 3600) ++ ":" ++ padded 2 (time / 60 % 60) ++ ":" ++
    padded 2 (time % 60 + (if leap then 1 else 0)) ++
    writtenFraction (t.nanoseconds % 1000000000) ++ "Z"

def decode : Json → Decoded Timestamp
  | .text value =>
    match parse value with
    | .ok t => .ok t
    | .error e => .error (.refused e.message)
  | other => Decode.mismatch other "an RFC 3339 formatted date and time string"

def toJson (t : Timestamp) : Json :=
  .text t.text

end Timestamp

end FeatureFlow
