import FeatureFlow.Url.Domain
import FeatureFlow.Url.Percent

/-!
# Hosts

A host is kept in its normal form: the name of a domain, or an address of four or
eight numbers. Schemes that know no hosts take any text without separators.
-/

namespace FeatureFlow

inductive UrlError where
  | emptyHost
  | badDomain
  | badPort
  | badIpv4
  | badIpv6
  | badHostCharacter
  | relative
deriving DecidableEq

def UrlError.message : UrlError → String
  | emptyHost => "empty host"
  | badDomain => "invalid international domain name"
  | badPort => "invalid port number"
  | badIpv4 => "invalid IPv4 address"
  | badIpv6 => "invalid IPv6 address"
  | badHostCharacter => "invalid domain character"
  | relative => "relative URL without a base"

namespace Host

def isForbiddenGeneral (c : Char) : Bool :=
  "\x00\t\n\r #/:<>?@[\\]^|".toList.contains c

-- ---------------------------------------------------------------------------
-- Addresses of four numbers
-- ---------------------------------------------------------------------------

/-- A number in base ten, sixteen behind `0x`, or eight behind a zero. The inner
value is none where it does not fit thirty-two bits. -/
def addressNumber? (cs : List Char) : Option (Option Nat) :=
  let value (base : Nat) (digits : List Char) : Option (Option Nat) :=
    (digits.mapM fun c => (Text.hexDigit? c).filter (· < base)).map fun values =>
      let n := values.foldl (fun acc d => acc * base + d) 0
      if n < Nat.pow 2 32 then some n else none
  match cs with
  | [] => none
  | '0' :: 'x' :: rest => value 16 rest
  | '0' :: 'X' :: rest => value 16 rest
  | '0' :: d :: rest => value 8 (d :: rest)
  | other => value 10 other

/-- The labels of a domain without the empty one behind a final point. -/
def labels (domain : List Char) : List (List Char) :=
  let parts := Text.splitAt '.' domain
  if parts.getLast? = some [] then parts.dropLast else parts

def endsInNumber (domain : List Char) : Bool :=
  match (labels domain).getLast? with
  | none => false
  | some [] => false
  | some last => last.all (fun c => '0' ≤ c && c ≤ '9') || (addressNumber? last).isSome

/-- The value of up to four numbers of which the last fills what is left. -/
def ipv4? (domain : List Char) : Option Nat := do
  let parts := labels domain
  if 4 < parts.length then none
  let numbers ← parts.mapM fun part => (addressNumber? part).join
  let last ← numbers.getLast?
  let first := numbers.dropLast
  if first.any (255 < ·) ∨ Nat.pow 256 (4 - first.length) ≤ last then none
  let high := first.zipIdx.foldl (fun acc (n, i) => acc + n * Nat.pow 256 (3 - i)) 0
  return high + last

def ipv4Text (n : Nat) : String :=
  Text.join "." ([n / Nat.pow 256 3, n / Nat.pow 256 2 % 256, n / 256 % 256, n % 256].map toString)

-- ---------------------------------------------------------------------------
-- Addresses of eight pieces
-- ---------------------------------------------------------------------------

def hexText (n : Nat) : String :=
  String.ofList (Nat.toDigits 16 n)

def piece? (cs : List Char) : Option Nat := do
  if cs.isEmpty ∨ 4 < cs.length then none
  let digits ← cs.mapM Text.hexDigit?
  return digits.foldl (fun acc d => acc * 16 + d) 0

/-- A decimal number below 256 without a leading zero. -/
def octet? (cs : List Char) : Option Nat := do
  let digits ← cs.mapM fun c => (Text.hexDigit? c).filter (· < 10)
  match digits with
  | [] => none
  | [d] => some d
  | 0 :: _ => none
  | _ => (some (digits.foldl (fun acc d => acc * 10 + d) 0)).filter (· < 256)

def dottedPieces? (cs : List Char) : Option (List Nat) := do
  match ← (Text.splitAt '.' cs).mapM octet? with
  | [a, b, c, d] => some [a * 256 + b, c * 256 + d]
  | _ => none

/-- The pieces of a row between colons; the last may be a dotted address where
the row ends the address. -/
def pieces? (final : Bool) : List (List Char) → Option (List Nat)
  | [] => some []
  | [last] =>
    if final && last.contains '.' then dottedPieces? last else (piece? last).map ([·])
  | part :: rest => do return (← piece? part) :: (← pieces? final rest)

def atGap? : List Char → Option (List Char × List Char)
  | ':' :: ':' :: rest => some ([], rest)
  | c :: rest => (atGap? rest).map fun (before, after) => (c :: before, after)
  | [] => none

def row? (final : Bool) (cs : List Char) : Option (List Nat) :=
  if cs.isEmpty then some [] else pieces? final (Text.splitAt ':' cs)

def ipv6? (cs : List Char) : Option (List Nat) :=
  match atGap? cs with
  | none => (row? true cs).filter fun pieces => pieces.length == 8
  | some (before, after) => do
    let left ← row? false before
    let right ← row? true after
    -- a gap stands for at least one piece
    if 8 ≤ left.length + right.length then none
    else some (left ++ List.replicate (8 - left.length - right.length) 0 ++ right)

def zeroRun (pieces : List Nat) : Nat :=
  (pieces.takeWhile (· == 0)).length

def longestRun (pieces : List Nat) : Nat × Nat :=
  (List.range pieces.length).foldl
    (fun best i => if best.2 < zeroRun (pieces.drop i) then (i, zeroRun (pieces.drop i)) else best)
    (0, 0)

def ipv6Text (pieces : List Nat) : String :=
  let (start, length) := longestRun pieces
  let row (list : List Nat) := Text.join ":" (list.map hexText)
  if length < 2 then "[" ++ row pieces ++ "]"
  else "[" ++ row (pieces.take start) ++ "::" ++ row (pieces.drop (start + length)) ++ "]"

-- ---------------------------------------------------------------------------
-- Any host
-- ---------------------------------------------------------------------------

def bracketed (cs : List Char) : Except UrlError String :=
  match Text.before? [']'] cs with
  | none => .error .badIpv6
  | some inner =>
    match ipv6? inner with
    | none => .error .badIpv6
    | some pieces => .ok (ipv6Text pieces)

def parse (cs : List Char) : Except UrlError String :=
  match cs with
  | '[' :: rest => bracketed rest
  | _ =>
    match (Percent.decode? cs).bind Domain.normalForm? with
    | none => .error .badDomain
    | some [] => .error .emptyHost
    | some domain =>
      if endsInNumber domain then
        match ipv4? domain with
        | some n => .ok (ipv4Text n)
        | none => .error .badIpv4
      else .ok (.ofList domain)

def parseGeneral (cs : List Char) : Except UrlError String :=
  match cs with
  | '[' :: rest => bracketed rest
  | _ =>
    if cs.any isForbiddenGeneral then .error .badHostCharacter
    else .ok (.ofList (Percent.encode [] cs))

end Host

end FeatureFlow
