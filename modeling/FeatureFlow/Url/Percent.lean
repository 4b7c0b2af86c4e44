import FeatureFlow.Text

/-!
# Percent encoding

Characters are encoded byte by byte in UTF-8. Everything beyond ASCII is always
encoded; which ASCII characters are is up to the part of the address.
-/

namespace FeatureFlow.Percent

def bytes (c : Char) : List Nat :=
  let n := c.toNat
  if n < 0x80 then [n]
  else if n < 0x800 then [0xC0 + n / 64, 0x80 + n % 64]
  else if n < 0x10000 then [0xE0 + n / 4096, 0x80 + n / 64 % 64, 0x80 + n % 64]
  else [0xF0 + n / 262144, 0x80 + n / 4096 % 64, 0x80 + n / 64 % 64, 0x80 + n % 64]

def digit (n : Nat) : Char :=
  Char.ofNat (if n < 10 then '0'.toNat + n else 'A'.toNat + (n - 10))

def encodeByte (b : Nat) : List Char :=
  ['%', digit (b / 16), digit (b % 16)]

/-- Whether a character is a control character or beyond ASCII. -/
def isControl (c : Char) : Bool :=
  c.toNat < 0x20 || 0x7F ≤ c.toNat

def encodeChar (reserved : List Char) (c : Char) : List Char :=
  if isControl c || reserved.contains c then (bytes c).flatMap encodeByte else [c]

def encode (reserved : List Char) (cs : List Char) : List Char :=
  cs.flatMap (encodeChar reserved)

def decodeBytes : List Char → List Nat
  | [] => []
  | '%' :: a :: b :: rest =>
    match Text.hexDigit? a, Text.hexDigit? b with
    | some high, some low => (high * 16 + low) :: decodeBytes rest
    | _, _ => 0x25 :: decodeBytes (a :: b :: rest)
  | c :: rest => bytes c ++ decodeBytes rest

def ofUtf8? (bytes : List Nat) : Option String :=
  String.fromUTF8? (ByteArray.mk (bytes.map UInt8.ofNat).toArray)

def decode? (cs : List Char) : Option (List Char) :=
  (ofUtf8? (decodeBytes cs)).map String.toList

end FeatureFlow.Percent
