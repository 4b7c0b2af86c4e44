import FeatureFlow.Number
import FeatureFlow.Text

/-!
# JSON tokens

Cuts a text into tokens by the grammar of RFC 8259. Every reader returns what
follows its token, and the tokens of a text are read until nothing is left.
-/

namespace FeatureFlow.Json

inductive Token where
  | openObject
  | closeObject
  | openArray
  | closeArray
  | colon
  | comma
  | null
  | boolean (value : Bool)
  | number (value : Number)
  | text (value : String)
deriving DecidableEq

namespace Token

def isBlank (c : Char) : Bool :=
  c == ' ' || c == '\t' || c == '\n' || c == '\r'

def digit? (c : Char) : Option Nat :=
  if '0' ≤ c ∧ c ≤ '9' then some (c.toNat - '0'.toNat) else none

-- ---------------------------------------------------------------------------
-- Quoted texts
-- ---------------------------------------------------------------------------

/-- Four hexadecimal digits and what follows them. -/
def codeUnit? : List Char → Option (Nat × List Char)
  | a :: b :: c :: d :: rest => do
    let high := (← Text.hexDigit? a) * 16 + (← Text.hexDigit? b)
    let low := (← Text.hexDigit? c) * 16 + (← Text.hexDigit? d)
    return (high * 256 + low, rest)
  | _ => none

def lowSurrogate? (high : Nat) : List Char → Option (Char × List Char)
  | '\\' :: 'u' :: rest => do
    let (low, rest) ← codeUnit? rest
    if 0xDC00 ≤ low ∧ low < 0xE000 then
      return (Char.ofNat (0x10000 + (high - 0xD800) * 0x400 + (low - 0xDC00)), rest)
    else none
  | _ => none

/-- The character that an escape stands for, from after its backslash. A
surrogate that is not the first half of a pair stands for none. -/
def escaped? : List Char → Option (Char × List Char)
  | '"' :: rest => some ('"', rest)
  | '\\' :: rest => some ('\\', rest)
  | '/' :: rest => some ('/', rest)
  | 'b' :: rest => some ('\x08', rest)
  | 'f' :: rest => some ('\x0c', rest)
  | 'n' :: rest => some ('\n', rest)
  | 'r' :: rest => some ('\r', rest)
  | 't' :: rest => some ('\t', rest)
  | 'u' :: rest => do
    let (n, rest) ← codeUnit? rest
    if 0xD800 ≤ n ∧ n < 0xDC00 then lowSurrogate? n rest
    else if 0xDC00 ≤ n ∧ n < 0xE000 then none
    else return (Char.ofNat n, rest)
  | _ => none

theorem codeUnit?_length {cs rest : List Char} {n : Nat} (h : codeUnit? cs = some (n, rest)) :
    rest.length < cs.length := by
  match cs, h with
  | a :: b :: c :: d :: tail, h =>
    simp only [codeUnit?, Option.bind_eq_bind, Option.bind_eq_some_iff] at h
    obtain ⟨_, _, _, _, _, _, _, _, heq⟩ := h
    simp only [pure, Option.some.injEq, Prod.mk.injEq] at heq
    rw [← heq.2]
    simp only [List.length_cons]
    omega

theorem lowSurrogate?_length {cs rest : List Char} {high : Nat} {c : Char}
    (h : lowSurrogate? high cs = some (c, rest)) : rest.length < cs.length := by
  unfold lowSurrogate? at h
  split at h
  · simp only [Option.bind_eq_bind, Option.bind_eq_some_iff] at h
    obtain ⟨⟨low, tail⟩, hunit, hif⟩ := h
    have hlt := codeUnit?_length hunit
    dsimp only at hif
    split at hif
    · simp only [pure, Option.some.injEq, Prod.mk.injEq] at hif
      rw [← hif.2]
      simp only [List.length_cons]
      omega
    · simp at hif
  · simp at h

theorem escaped?_length {cs rest : List Char} {c : Char} (h : escaped? cs = some (c, rest)) :
    rest.length < cs.length := by
  unfold escaped? at h
  split at h
  case h_9 tail =>
    simp only [Option.bind_eq_bind, Option.bind_eq_some_iff] at h
    obtain ⟨⟨n, tail'⟩, hunit, hif⟩ := h
    have hlt := codeUnit?_length hunit
    dsimp only at hif
    split at hif
    · have := lowSurrogate?_length hif
      simp only [List.length_cons]
      omega
    · split at hif
      · simp at hif
      · simp only [pure, Option.some.injEq, Prod.mk.injEq] at hif
        rw [← hif.2]
        simp only [List.length_cons]
        omega
  case h_10 => simp at h
  all_goals
    simp only [Option.some.injEq, Prod.mk.injEq] at h
    rw [← h.2]
    simp

/-- The rest of a quoted text, from after its opening quote. -/
def quoted? (done : List Char) : List Char → Option (String × List Char)
  | [] => none
  | c :: rest =>
    if c = '"' then some (String.ofList done.reverse, rest)
    else if c = '\\' then
      match _h : escaped? rest with
      | some (d, tail) => quoted? (d :: done) tail
      | none => none
    else if c.toNat < 0x20 then none
    else quoted? (c :: done) rest
termination_by cs => cs.length
decreasing_by
  · have := escaped?_length _h
    simp only [List.length_cons]
    omega
  · simp

-- ---------------------------------------------------------------------------
-- Numbers
-- ---------------------------------------------------------------------------

def digits : List Char → List Nat × List Char
  | [] => ([], [])
  | c :: rest =>
    match digit? c with
    | some n => let (more, tail) := digits rest; (n :: more, tail)
    | none => ([], c :: rest)

def value (ds : List Nat) : Nat :=
  ds.foldl (fun n d => n * 10 + d) 0

/-- The digits after a point, of which there must be one. -/
def fraction? : List Char → Option (Option (List Nat) × List Char)
  | '.' :: rest =>
    match digits rest with
    | ([], _) => none
    | (ds, tail) => some (some ds, tail)
  | rest => some (none, rest)

/-- The exponent after its mark, of which there must be a digit. -/
def exponent? : List Char → Option (Option Int × List Char)
  | [] => some (none, [])
  | c :: rest =>
    if c = 'e' ∨ c = 'E' then
      let (negative, rest) := match rest with
        | '+' :: tail => (false, tail)
        | '-' :: tail => (true, tail)
        | tail => (false, tail)
      match digits rest with
      | ([], _) => none
      | (ds, tail) => some (some (if negative then -(value ds : Int) else value ds), tail)
    else some (none, c :: rest)

/-- A number and what follows it: a leading zero stands alone, and a value too
large for a double is no number. -/
def number? (cs : List Char) : Option (Number × List Char) := do
  let (negative, cs) := match cs with
    | '-' :: rest => (true, rest)
    | rest => (false, rest)
  let (whole, cs) := digits cs
  guard (!whole.isEmpty && (whole.head? != some 0 || whole.length == 1))
  let (fraction, cs) ← fraction? cs
  let (exponent, cs) ← exponent? cs
  let n ← Number.Literal.value? { negative, whole, fraction, exponent }
  return (n, cs)

-- ---------------------------------------------------------------------------
-- Any token
-- ---------------------------------------------------------------------------

def keyword? (word : List Char) (token : Token) (cs : List Char) : Option (Token × List Char) :=
  if word.isPrefixOf cs then some (token, cs.drop word.length) else none

def first? : List Char → Option (Token × List Char)
  | [] => none
  | c :: rest =>
    if c = '\x7b' then some (openObject, rest)
    else if c = '\x7d' then some (closeObject, rest)
    else if c = '[' then some (openArray, rest)
    else if c = ']' then some (closeArray, rest)
    else if c = ':' then some (colon, rest)
    else if c = ',' then some (comma, rest)
    else if c = '"' then (quoted? [] rest).map fun (s, tail) => (text s, tail)
    else if c = 'n' then keyword? ['n', 'u', 'l', 'l'] null (c :: rest)
    else if c = 't' then keyword? ['t', 'r', 'u', 'e'] (boolean true) (c :: rest)
    else if c = 'f' then keyword? ['f', 'a', 'l', 's', 'e'] (boolean false) (c :: rest)
    else (number? (c :: rest)).map fun (n, tail) => (number n, tail)

/-- All tokens of a text. A token takes at least one character, so as many
rounds as there are characters are enough. -/
def readAll? : Nat → List Char → List Token → Option (List Token)
  | rounds, cs, done =>
    match cs.dropWhile isBlank, rounds with
    | [], _ => some done.reverse
    | _ :: _, 0 => none
    | c :: rest, more + 1 =>
      match first? (c :: rest) with
      | none => none
      | some (token, tail) => readAll? more tail (token :: done)

def ofText? (s : String) : Option (List Token) :=
  let cs := s.toList
  readAll? cs.length cs []

end Token

end FeatureFlow.Json
