import FeatureFlow.Json

/-!
# Written JSON

Compact text and text indented by two spaces. Strings escape only the quote,
the backslash and the control characters below the blank.
-/

namespace FeatureFlow.Json

private def hexDigit (n : Nat) : Char :=
  Char.ofNat (if n < 10 then '0'.toNat + n else 'a'.toNat + (n - 10))

def escape (c : Char) : List Char :=
  if c = '"' then ['\\', '"']
  else if c = '\\' then ['\\', '\\']
  else if c = '\x08' then ['\\', 'b']
  else if c = '\t' then ['\\', 't']
  else if c = '\n' then ['\\', 'n']
  else if c = '\x0c' then ['\\', 'f']
  else if c = '\r' then ['\\', 'r']
  else if c.toNat < 0x20 then
    ['\\', 'u', '0', '0', hexDigit (c.toNat / 16), hexDigit (c.toNat % 16)]
  else [c]

def quote (s : String) : String :=
  "\"" ++ String.ofList (s.toList.flatMap escape) ++ "\""

mutual
def compact : Json → String
  | null => "null"
  | boolean true => "true"
  | boolean false => "false"
  | number value => value.text
  | text value => quote value
  | array items => "[" ++ compactItems items ++ "]"
  | object fields => "\x7b" ++ compactFields fields ++ "\x7d"
def compactItems : List Json → String
  | [] => ""
  | [item] => compact item
  | item :: rest => compact item ++ "," ++ compactItems rest
def compactFields : List (String × Json) → String
  | [] => ""
  | [(key, value)] => quote key ++ ":" ++ compact value
  | (key, value) :: rest => quote key ++ ":" ++ compact value ++ "," ++ compactFields rest
end

private def margin (depth : Nat) : String :=
  String.ofList (List.replicate (2 * depth) ' ')

mutual
/-- Indented text; an empty array or object stays on its line. -/
def indented (depth : Nat) : Json → String
  | array [] => "[]"
  | array items => "[\n" ++ indentedItems (depth + 1) items ++ "\n" ++ margin depth ++ "]"
  | object [] => "\x7b\x7d"
  | object fields =>
    "\x7b\n" ++ indentedFields (depth + 1) fields ++ "\n" ++ margin depth ++ "\x7d"
  | null => "null"
  | boolean value => compact (boolean value)
  | number value => value.text
  | text value => quote value
def indentedItems (depth : Nat) : List Json → String
  | [] => ""
  | [item] => margin depth ++ indented depth item
  | item :: rest => margin depth ++ indented depth item ++ ",\n" ++ indentedItems depth rest
def indentedFields (depth : Nat) : List (String × Json) → String
  | [] => ""
  | [(key, value)] => margin depth ++ quote key ++ ": " ++ indented depth value
  | (key, value) :: rest =>
    margin depth ++ quote key ++ ": " ++ indented depth value ++ ",\n" ++ indentedFields depth rest
end

end FeatureFlow.Json
