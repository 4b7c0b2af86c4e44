import FeatureFlow.Json.Parse

/-!
# Faults in JSON text

Says what is wrong with a text that is no JSON and where. The walk goes through
the text with the reader of `parse?`, so it stops where that one fails. A place
is counted in bytes, up to and with the character that is wrong.
-/

namespace FeatureFlow.Json

inductive FaultKind where
  | endInArray
  | endInObject
  | endInText
  | endInValue
  | noColon
  | noCommaOrBracket
  | noCommaOrBrace
  | badWord
  | noValue
  | badEscape
  | badNumber
  | numberTooLarge
  | controlCharacter
  | keyNotText
  | loneSurrogate
  | trailingComma
  | trailingCharacters
  | unpairedSurrogate
  | tooDeep
deriving DecidableEq

def FaultKind.message : FaultKind → String
  | endInArray => "EOF while parsing a list"
  | endInObject => "EOF while parsing an object"
  | endInText => "EOF while parsing a string"
  | endInValue => "EOF while parsing a value"
  | noColon => "expected `:`"
  | noCommaOrBracket => "expected `,` or `]`"
  | noCommaOrBrace => "expected `,` or `\x7d`"
  | badWord => "expected ident"
  | noValue => "expected value"
  | badEscape => "invalid escape"
  | badNumber => "invalid number"
  | numberTooLarge => "number out of range"
  | controlCharacter =>
    "control character (\\u0000-\\u001F) found while parsing a string"
  | keyNotText => "key must be a string"
  | loneSurrogate => "lone leading surrogate in hex escape"
  | trailingComma => "trailing comma"
  | trailingCharacters => "trailing characters"
  | unpairedSurrogate => "unexpected end of hex escape"
  | tooDeep => "recursion limit exceeded"

/-- A fault in what was left of a text, so many bytes into it. -/
structure Fault where
  kind : FaultKind
  rest : List Char
  reach : Nat

namespace Fault

def atEnd (kind : FaultKind) : Fault :=
  { kind, rest := [], reach := 0 }

def atNext (kind : FaultKind) (rest : List Char) : Fault :=
  { kind, rest, reach := if rest.isEmpty then 0 else 1 }

/-! ## Faults inside tokens -/

/-- A word that is not the one it starts as. -/
def inWord : List Char → List Char → Fault
  | _, [] => atEnd .endInValue
  | [], rest => atNext .badWord rest
  | expected :: word, c :: rest =>
    if c = expected then inWord word rest else atNext .badWord (c :: rest)

def noDigit (rest : List Char) : Fault :=
  if rest.isEmpty then atEnd .endInValue else atNext .badNumber rest

def exponentLimit : Nat := Nat.pow 2 31 - 1

/-- What is left behind an exponent, or behind its first digits that are too
much on their own. -/
def pastExponent (value : Nat) : List Char → List Char
  | [] => []
  | c :: rest =>
    match Token.digit? c with
    | none => c :: rest
    | some d =>
      if exponentLimit < value * 10 + d then rest else pastExponent (value * 10 + d) rest

def inExponent (cs : List Char) : Fault :=
  let digits := match cs with
    | '+' :: rest => rest
    | '-' :: rest => rest
    | rest => rest
  if (Token.digits digits).1.isEmpty then noDigit digits
  else { kind := .numberTooLarge, rest := pastExponent 0 digits, reach := 0 }

def behindDigits (cs : List Char) : Fault :=
  match cs with
  | [] => atEnd .numberTooLarge
  | c :: rest =>
    if c = 'e' ∨ c = 'E' then inExponent rest
    else { kind := .numberTooLarge, rest := c :: rest, reach := 0 }

def inFraction (cs : List Char) : Fault :=
  match cs with
  | '.' :: rest =>
    if (Token.digits rest).1.isEmpty then noDigit rest else behindDigits (Token.digits rest).2
  | _ => behindDigits cs

def inNumber (cs : List Char) : Fault :=
  let unsigned := match cs with
    | '-' :: rest => rest
    | rest => rest
  match unsigned with
  | '0' :: rest =>
    if (Token.digits rest).1.isEmpty then inFraction rest else atNext .badNumber rest
  | rest =>
    if (Token.digits rest).1.isEmpty then noDigit rest else inFraction (Token.digits rest).2

def inCodeUnit (cs : List Char) : Fault :=
  if Text.byteSize cs < 4 then atEnd .endInText else { kind := .badEscape, rest := cs, reach := 4 }

def inLowSurrogate (cs : List Char) : Fault :=
  match cs with
  | [] => atEnd .endInText
  | ['\\'] => atEnd .endInText
  | '\\' :: 'u' :: rest =>
    match Token.codeUnit? rest with
    | none => inCodeUnit rest
    | some (_, tail) => { kind := .loneSurrogate, rest := tail, reach := 0 }
  | '\\' :: rest => atNext .unpairedSurrogate rest
  | rest => atNext .unpairedSurrogate rest

def inEscape (cs : List Char) : Fault :=
  match cs with
  | [] => atEnd .endInText
  | 'u' :: rest =>
    match Token.codeUnit? rest with
    | none => inCodeUnit rest
    | some (n, tail) =>
      if 0xDC00 ≤ n then { kind := .loneSurrogate, rest := tail, reach := 0 }
      else inLowSurrogate tail
  | rest => atNext .badEscape rest

def inText : List Char → Fault
  | [] => atEnd .endInText
  | c :: rest =>
    if c = '\\' then
      match _h : Token.escaped? rest with
      | some (_, tail) => inText tail
      | none => inEscape rest
    else if c.toNat < 0x20 then atNext .controlCharacter (c :: rest)
    else inText rest
termination_by cs => cs.length
decreasing_by
  · have := Token.escaped?_length _h
    simp only [List.length_cons]
    omega
  · simp

/-- What is wrong with a text that starts with no token, though its first
character may start one. -/
def inToken : List Char → Fault
  | [] => atEnd .endInValue
  | c :: rest =>
    if c = '"' then inText rest
    else if c = 'n' then inWord "ull".toList rest
    else if c = 't' then inWord "rue".toList rest
    else if c = 'f' then inWord "alse".toList rest
    else inNumber (c :: rest)

/-! ## Faults between tokens -/

def startsValue (c : Char) : Bool :=
  "\"-\x7b[ntf".toList.contains c || (Token.digit? c).isSome

def valueFault? (c : Char) : Option FaultKind :=
  if startsValue c then none else some .noValue

def inArray : List Container → Bool
  | .array _ :: _ => true
  | _ => false

def wrongNext? (r : Reader) (c : Char) : Option FaultKind :=
  match r.expected with
  | .value => if c = ']' && inArray r.opened then some .trailingComma else valueFault? c
  | .valueOrClose => if c = ']' then none else valueFault? c
  | .keyOrClose => if c = '"' || c = '\x7d' then none else some .keyNotText
  | .key _ =>
    if c = '"' then none else if c = '\x7d' then some .trailingComma else some .keyNotText
  | .colon .. => if c = ':' then none else some .noColon
  | .commaOrClose =>
    if inArray r.opened then
      if c = ',' || c = ']' then none else some .noCommaOrBracket
    else if c = ',' || c = '\x7d' then none else some .noCommaOrBrace
  | .nothing _ => some .trailingCharacters

def missing? (r : Reader) : Option FaultKind :=
  match r.expected with
  | .value => some .endInValue
  | .valueOrClose => some .endInArray
  | .keyOrClose => some .endInObject
  | .key _ => some .endInValue
  | .colon .. => some .endInObject
  | .commaOrClose => some (if inArray r.opened then .endInArray else .endInObject)
  | .nothing _ => none

/-- Reads on until something is wrong. A token takes at least one character, so
as many rounds as there are characters are enough. -/
def walk (r : Reader) : Nat → List Char → Option Fault
  | rounds, cs =>
    match cs.dropWhile Token.isBlank, rounds with
    | [], _ => (missing? r).map atEnd
    | _ :: _, 0 => none
    | c :: rest, more + 1 =>
      match wrongNext? r c with
      | some kind => some (atNext kind (c :: rest))
      | none =>
        match Token.first? (c :: rest) with
        | none => some (inToken (c :: rest))
        | some (token, tail) =>
          match r.step? token with
          | some r => walk r more tail
          | none => some (atNext .tooDeep (c :: rest))

/-! ## Places -/

/-- A line and the bytes before a place on it. -/
structure Place where
  line : Nat
  column : Nat

def Place.advance (p : Place) (bytes : Nat) : List Char → Place
  | [] => p
  | c :: rest =>
    if bytes = 0 then p
    else if c = '\n' then advance { line := p.line + 1, column := 0 } (bytes - 1) rest
    else
      let step := min c.utf8Size bytes
      advance { p with column := p.column + step } (bytes - step) rest

def place (f : Fault) (text : List Char) : Place :=
  Place.advance { line := 1, column := 0 } (Text.byteSize text - Text.byteSize f.rest + f.reach) text

def describe (f : Fault) (text : List Char) : String :=
  let p := f.place text
  f.kind.message ++ " at line " ++ toString p.line ++ " column " ++ toString p.column

end Fault

def fault? (text : List Char) : Option Fault :=
  Fault.walk .start text.length text

def read (s : String) : Except String Json :=
  match parse? s with
  | some value => .ok value
  | none => .error (((fault? s.toList).map (·.describe s.toList)).getD "")

end FeatureFlow.Json
