/-!
# IEEE doubles as exact values

A double is kept by its 64 bits. Every operation decodes the operands into
`mantissa * 2 ^ exponent`, works on natural numbers, and rounds the exact
result once, to nearest with ties to even.
-/

namespace FeatureFlow

structure Double where
  bits : UInt64
deriving DecidableEq

namespace Double

/-- The sign and the magnitude `mantissa * 2 ^ exponent` of a finite double. -/
structure Parts where
  negative : Bool
  mantissa : Nat
  exponent : Int

def fractionWidth : Nat := 52

def leastExponent : Int := -1074

def infinityMagnitude : Nat := 2047 * Nat.pow 2 fractionWidth

def parts (d : Double) : Parts :=
  let n := d.bits.toNat
  let fraction := n % Nat.pow 2 fractionWidth
  let biased := n / Nat.pow 2 fractionWidth % Nat.pow 2 11
  let negative := decide (Nat.pow 2 63 ≤ n)
  if biased = 0 then ⟨negative, fraction, leastExponent⟩
  else ⟨negative, fraction + Nat.pow 2 fractionWidth, leastExponent + (biased - 1 : Nat)⟩

def isNegative (d : Double) : Bool :=
  d.parts.negative

def isZero (d : Double) : Bool :=
  d.parts.mantissa == 0

def magnitude (d : Double) : Nat :=
  d.bits.toNat % Nat.pow 2 63

def isInfinite (d : Double) : Bool :=
  d.magnitude == infinityMagnitude

def ofMagnitude (negative : Bool) (magnitude : Nat) : Double :=
  ⟨UInt64.ofNat (if negative then Nat.pow 2 63 + magnitude else magnitude)⟩

def neg (d : Double) : Double :=
  ofMagnitude (!d.isNegative) d.magnitude

-- ---------------------------------------------------------------------------
-- Rounding
-- ---------------------------------------------------------------------------

/-- A ratio `num / (den * 2 ^ shift)` as a pair of natural numbers. -/
def unscale (num den : Nat) (shift : Int) : Nat × Nat :=
  if 0 ≤ shift then (num, den * Nat.pow 2 shift.toNat) else (num * Nat.pow 2 (-shift).toNat, den)

/-- The power of two at or below the positive ratio `num / den`. -/
def floorLog2 (num den : Nat) : Int :=
  let guess : Int := (Nat.log2 num : Int) - Nat.log2 den
  let (n, d) := unscale num den guess
  if n < d then guess - 1 else guess

/-- Nearest integer to `num / den`, a half goes to the even neighbour. -/
def roundHalfEven (num den : Nat) : Nat :=
  let quotient := num / den
  let twice := 2 * (num % den)
  if den < twice ∨ (twice = den ∧ quotient % 2 = 1) then quotient + 1 else quotient

/-- The bits of the double nearest to `num / den`. A mantissa that rounds up to
the next power of two carries into the exponent field by itself. -/
def magnitudeOfRatio (num den : Nat) : Nat :=
  if num = 0 then 0
  else
    let exponent := max (floorLog2 num den - fractionWidth) leastExponent
    let (n, d) := unscale num den exponent
    let mantissa := roundHalfEven n d
    min ((exponent - leastExponent).toNat * Nat.pow 2 fractionWidth + mantissa) infinityMagnitude

def ofRatio (negative : Bool) (num den : Nat) : Double :=
  ofMagnitude negative (magnitudeOfRatio num den)

def ofInt (n : Int) : Double :=
  ofRatio (decide (n < 0)) n.natAbs 1

def mul (a b : Double) : Double :=
  let (p, q) := (a.parts, b.parts)
  let (num, den) := unscale (p.mantissa * q.mantissa) 1 (-(p.exponent + q.exponent))
  ofRatio (p.negative != q.negative) num den

/-- Division by a double other than zero. -/
def div (a b : Double) : Double :=
  let (p, q) := (a.parts, b.parts)
  let (num, den) := unscale p.mantissa q.mantissa (-(p.exponent - q.exponent))
  ofRatio (p.negative != q.negative) num den

/-- Equality of values: the two zeros are equal. -/
def sameValue (a b : Double) : Bool :=
  a == b || (a.isZero && b.isZero)

end Double

end FeatureFlow
