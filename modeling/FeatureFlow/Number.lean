import FeatureFlow.Double.Shortest

/-!
# JSON numbers

An integer literal that fits sixty-four bits, signed or not, is an integer; any
other literal is a double. The two are different values even where they are
equal as reals.
-/

namespace FeatureFlow

inductive Number where
  | integer (value : Int)
  | double (value : Double)
deriving DecidableEq

namespace Number

/-- The value as a double, rounded where an integer is too wide. -/
def toDouble : Number → Double
  | integer value => Double.ofInt value
  | double value => value

def sameValue : Number → Number → Bool
  | integer a, integer b => a == b
  | double a, double b => a.sameValue b
  | _, _ => false

def text : Number → String
  | integer value => toString value
  | double value => value.text

/-- The parts of a numeric literal, digits as values below ten. -/
structure Literal where
  negative : Bool
  whole : List Nat
  fraction : Option (List Nat)
  exponent : Option Int

def significandLimit : Nat := Nat.pow 2 64 - 1

/-- Appends digits while the significand fits, and returns those left over. -/
def gather (significand : Nat) : List Nat → Nat × List Nat
  | [] => (significand, [])
  | digit :: rest =>
    if significandLimit < significand * 10 + digit then (significand, digit :: rest)
    else gather (significand * 10 + digit) rest

/-- Divides by `10 ^ places`, in strides of the widest power that is a double. -/
def scaleDown (value : Double) (places : Nat) : Double :=
  if places ≤ 308 then value.div (Double.ofRatio false (Nat.pow 10 places) 1)
  else if value.isZero then value
  else scaleDown (value.div (Double.ofRatio false (Nat.pow 10 308) 1)) (places - 308)
termination_by places

/-- `significand * 10 ^ exponent`, by one rounded multiplication or by rounded
divisions; `none` where the result is too large for a double. -/
def scale (significand : Nat) (exponent : Int) : Option Double :=
  let value := Double.ofRatio false significand 1
  if exponent < 0 then some (scaleDown value (-exponent).toNat)
  else if exponent ≤ 308 then
    let product := value.mul (Double.ofRatio false (Nat.pow 10 exponent.toNat) 1)
    if product.isInfinite then none else some product
  else if significand = 0 then some value
  else none

/-- Digits of the fraction that no longer fit the significand are dropped. -/
def Literal.toDouble? (l : Literal) : Option Double :=
  let (whole, surplus) := gather 0 l.whole
  let digits := l.fraction.getD []
  let (significand, dropped) := gather whole digits
  let places : Int := surplus.length - (digits.length - dropped.length : Nat)
  (scale significand (places + l.exponent.getD 0)).map fun value =>
    if l.negative then value.neg else value

def Literal.value? (l : Literal) : Option Number :=
  match l.fraction, l.exponent, gather 0 l.whole with
  | none, none, (significand, []) =>
    if !l.negative then some (integer significand)
    else if 0 < significand ∧ significand ≤ Nat.pow 2 63 then some (integer (-significand))
    else l.toDouble?.map double
  | _, _, _ => l.toDouble?.map double

end Number

end FeatureFlow
