import FeatureFlow.Double

/-!
# Shortest decimal text of a double

The text has the fewest digits that read back as the same double, and among
those the digits nearest to the value. Each digit count is one decimal grid; a
grid that meets the interval of reals rounding to the double also has one of
the value's two neighbours in it, so only those are tried.
-/

namespace FeatureFlow.Double

-- ---------------------------------------------------------------------------
-- Digits
-- ---------------------------------------------------------------------------

/-- `digits * 10 ^ exponent`. -/
structure Decimal where
  digits : Nat
  exponent : Int

/-- The interval of reals that round to a double, in units of a quarter of its
last place: `low` and `high` around `4 * mantissa`, ends included or not. -/
structure Interval where
  low : Nat
  value : Nat
  high : Nat
  closed : Bool
  exponent : Int

def Parts.interval (p : Parts) : Interval :=
  -- below a power of two the doubles lie twice as close
  let atBinade := p.mantissa = Nat.pow 2 fractionWidth ∧ leastExponent < p.exponent
  { low := 4 * p.mantissa - (if atBinade then 1 else 2)
    value := 4 * p.mantissa
    high := 4 * p.mantissa + 2
    closed := p.mantissa % 2 = 0
    exponent := p.exponent - 2 }

/-- The factors `(a, b)` with `2 ^ binary / 10 ^ decimal = a / b`. -/
def gridFactors (binary decimal : Int) : Nat × Nat :=
  (Nat.pow 2 binary.toNat * Nat.pow 10 (-decimal).toNat,
    Nat.pow 2 (-binary).toNat * Nat.pow 10 decimal.toNat)

/-- The point of the grid of step `10 ^ step` that lies in the interval, the
nearer one where there are two, the even one where both are as near. -/
def Interval.gridPoint? (i : Interval) (step : Int) : Option Nat :=
  let (a, b) := gridFactors i.exponent step
  let scaled := i.value * a
  let below := scaled / b
  let above := below + 1
  let belowFits := 0 < below &&
    (if i.closed then i.low * a ≤ below * b else i.low * a < below * b)
  let aboveFits := if i.closed then above * b ≤ i.high * a else above * b < i.high * a
  let toBelow := scaled - below * b
  let toAbove := above * b - scaled
  -- of two points that fit, the nearer one
  if belowFits && aboveFits then
    if toBelow < toAbove then some below
    else if toAbove < toBelow then some above
    else some (if below % 2 = 0 then below else above)
  else if belowFits then some below
  else if aboveFits then some above
  else none

def Interval.decimalWidth (i : Interval) : Int :=
  let bits : Int := Nat.log2 i.value + i.exponent
  let guess : Int := bits * 30103 / 100000 - 1
  let under (k : Int) : Bool :=
    let (a, b) := gridFactors i.exponent k
    i.value * a < b
  -- the guess is at most three too small
  if under guess then guess
  else if under (guess + 1) then guess + 1
  else if under (guess + 2) then guess + 2
  else guess + 3

def Interval.search (i : Interval) (width : Int) : Nat → Nat → Decimal
  | 0, count =>
    let (a, b) := gridFactors i.exponent (width - count)
    ⟨i.value * a / b, width - count⟩
  | more + 1, count =>
    match i.gridPoint? (width - count) with
    | some digits => ⟨digits, width - count⟩
    | none => i.search width more (count + 1)

/-- Seventeen digits tell any two doubles apart. -/
def Parts.shortest (p : Parts) : Decimal :=
  let i := p.interval
  i.search i.decimalWidth 17 1

-- ---------------------------------------------------------------------------
-- Layout
-- ---------------------------------------------------------------------------

/-- How a decimal is written: plainly while its leading digit stands for
`10 ^ least` up to `10 ^ most`, otherwise with an exponent that has its sign. -/
structure Layout where
  least : Int
  most : Int

/-- JSON text is plain from 0.00001 up to below 10000000000000000. -/
def Layout.json : Layout := ⟨-5, 15⟩

private def zeros (n : Nat) : List Char :=
  List.replicate n '0'

def trimZeros (digits : List Char) : List Char :=
  (digits.reverse.dropWhile (· == '0')).reverse

def Layout.render (layout : Layout) (d : Decimal) : String :=
  let written := (toString d.digits).toList
  let point : Int := d.exponent + written.length
  let digits := trimZeros written
  let leading := point - 1
  if layout.least ≤ leading ∧ leading ≤ layout.most then
    if point ≤ 0 then
      String.ofList ('0' :: '.' :: zeros (-point).toNat ++ digits)
    else if digits.length ≤ point.toNat then
      String.ofList (digits ++ zeros (point.toNat - digits.length) ++ ['.', '0'])
    else
      String.ofList (digits.take point.toNat ++ '.' :: digits.drop point.toNat)
  else
    let fraction := digits.drop 1
    let body := digits.take 1 ++ (if fraction.isEmpty then [] else '.' :: fraction)
    let mark := if leading < 0 then ['e', '-'] else ['e', '+']
    String.ofList (body ++ mark) ++ toString leading.natAbs

def text (d : Double) : String :=
  let p := d.parts
  let unsigned := if p.mantissa = 0 then "0.0" else Layout.json.render p.shortest
  if p.negative then "-" ++ unsigned else unsigned

end FeatureFlow.Double
