import FeatureFlow.Text

/-!
# Punycode

Labels beyond ASCII are written with the ASCII characters first and the places
and values of the others as a row of numbers with thirty-six digits.
-/

namespace FeatureFlow.Punycode

def digit (n : Nat) : Char :=
  Char.ofNat (if n < 26 then 'a'.toNat + n else '0'.toNat + (n - 26))

def digitValue? (c : Char) : Option Nat :=
  if 'a' ≤ c ∧ c ≤ 'z' then some (c.toNat - 'a'.toNat)
  else if '0' ≤ c ∧ c ≤ '9' then some (c.toNat - '0'.toNat + 26)
  else none

/-- From which value on the digit at a place is not the last one. -/
def threshold (place bias : Nat) : Nat :=
  if place ≤ bias then 1 else if bias + 26 ≤ place then 26 else place - bias

theorem threshold_pos (place bias : Nat) : 1 ≤ threshold place bias := by
  unfold threshold
  split
  · omega
  · split <;> omega

/-- Divides a difference until it is small, counting the places. -/
def settle (delta place : Nat) : Nat × Nat :=
  if 455 < delta then settle (delta / 35) (place + 36) else (delta, place)
termination_by delta

def adapt (delta count : Nat) (first : Bool) : Nat :=
  let halved := if first then delta / 700 else delta / 2
  let (rest, place) := settle (halved + halved / count) 0
  place + 36 * rest / (rest + 38)

/-- The digits of one number, the lowest first. -/
def numberDigits (bias place n : Nat) : List Char :=
  let t := threshold place bias
  if n < t then [digit n]
  else digit (t + (n - t) % (36 - t)) :: numberDigits bias (place + 36) ((n - t) / (36 - t))
termination_by n
decreasing_by
  have h := threshold_pos place bias
  have hle := Nat.div_le_self (n - threshold place bias) (36 - threshold place bias)
  omega

structure State where
  written : List Char
  delta : Nat
  bias : Nat
  handled : Nat

def scan (basic value : Nat) (s : State) (c : Char) : State :=
  if c.toNat < value then { s with delta := s.delta + 1 }
  else if c.toNat = value then
    { written := s.written ++ numberDigits s.bias 36 s.delta, delta := 0
      bias := adapt s.delta (s.handled + 1) (s.handled == basic), handled := s.handled + 1 }
  else s

def insertions (cs : List Char) (basic : Nat) : Nat → List Nat → State → State
  | _, [], s => s
  | next, value :: rest, s =>
    let start := { s with delta := s.delta + (value - next) * (s.handled + 1) }
    let done := cs.foldl (scan basic value) start
    insertions cs basic (value + 1) rest { done with delta := done.delta + 1 }

def isBasic (c : Char) : Bool :=
  c.toNat < 0x80

def encode (cs : List Char) : List Char :=
  let basic := cs.filter isBasic
  let values := (((cs.filter fun c => !isBasic c).map Char.toNat).mergeSort (· ≤ ·)).eraseDups
  let start : State := { written := [], delta := 0, bias := 72, handled := basic.length }
  basic ++ (if basic.isEmpty then [] else ['-']) ++
    (insertions cs basic.length 128 values start).written

def limit : Nat := Nat.pow 2 32

/-- Reads one number and adds it to `sum`; `weight` is what the next digit counts. -/
def number? (bias : Nat) : Nat → Nat → Nat → List Char → Option (Nat × List Char)
  | _, _, _, [] => none
  | place, weight, sum, c :: rest =>
    match digitValue? c with
    | none => none
    | some d =>
      let t := threshold place bias
      let next := sum + d * weight
      if limit ≤ next then none
      else if d < t then some (next, rest)
      else if limit ≤ weight * (36 - t) then none
      else number? bias (place + 36) (weight * (36 - t)) next rest

theorem number?_length {bias place weight sum n : Nat} {cs rest : List Char}
    (h : number? bias place weight sum cs = some (n, rest)) : rest.length < cs.length := by
  induction cs generalizing place weight sum with
  | nil => simp [number?] at h
  | cons c tail ih =>
    unfold number? at h
    split at h
    · simp at h
    · simp only at h
      split at h
      · simp at h
      · split at h
        · simp only [Option.some.injEq, Prod.mk.injEq] at h
          simp [← h.2]
        · split at h
          · simp at h
          · exact Nat.lt_succ_of_lt (ih h)

def restore (out : List Char) (value index bias : Nat) (cs : List Char) : Option (List Char) :=
  if cs.isEmpty then some out
  else
    match _h : number? bias 36 1 index cs with
    | none => none
    | some (place, rest) =>
      let count := out.length + 1
      let next := value + place / count
      if next.isValidChar then
        restore (out.insertIdx (place % count) (.ofNat next)) next (place % count + 1)
          (adapt (place - index) count (index == 0)) rest
      else none
termination_by cs.length
decreasing_by exact number?_length _h

/-- The label that a row of ASCII characters stands for. What stands before the
last hyphen is taken over; a hyphen with nothing before it is no digit. -/
def decode? (cs : List Char) : Option (List Char) :=
  match Text.cut? '-' cs.reverse with
  | none => restore [] 128 0 72 cs
  | some (digits, basic) =>
    if basic.all isBasic ∧ !basic.isEmpty then restore basic.reverse 128 0 72 digits.reverse
    else none

end FeatureFlow.Punycode
