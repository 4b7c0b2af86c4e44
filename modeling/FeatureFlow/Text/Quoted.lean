import FeatureFlow.Text
import FeatureFlow.Text.Visible

/-!
# Text quoted for a reader

A quote, a backslash and the usual control characters have their short escape;
a character that would not be seen is written by its code point.
-/

namespace FeatureFlow.Text

private def hexDigit (n : Nat) : Char :=
  Char.ofNat (if n < 10 then '0'.toNat + n else 'a'.toNat + (n - 10))

def codePoint (c : Char) : List Char :=
  ['\\', 'u', '\x7b'] ++ Nat.toDigits 16 c.toNat ++ ['\x7d']

def shown (c : Char) : List Char :=
  if c = '"' then ['\\', '"']
  else if c = '\\' then ['\\', '\\']
  else if c = '\x00' then ['\\', '0']
  else if c = '\t' then ['\\', 't']
  else if c = '\n' then ['\\', 'n']
  else if c = '\r' then ['\\', 'r']
  else if isVisible c then [c]
  else codePoint c

def quoted (s : String) : String :=
  "\"" ++ String.ofList (s.toList.flatMap shown) ++ "\""

end FeatureFlow.Text
