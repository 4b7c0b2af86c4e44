import FeatureFlow.Json
import FeatureFlow.Json.Token

/-!
# Reading JSON text

The reader goes through the tokens once and keeps the containers that are open,
innermost first. A container deeper than the limit is refused, and so is text
after the value.
-/

namespace FeatureFlow.Json

/-- A container that is open, with what it holds so far; items newest first. -/
inductive Container where
  | array (items : List Json)
  | object (fields : Object) (key : String)

inductive Expected where
  | value
  | valueOrClose
  | key (fields : Object)
  | keyOrClose
  | colon (fields : Object) (key : String)
  | commaOrClose
  | nothing (result : Json)

structure Reader where
  opened : List Container
  expected : Expected

namespace Reader

def depthLimit : Nat := 127

def start : Reader := ⟨[], .value⟩

def finish (v : Json) : List Container → Reader
  | [] => ⟨[], .nothing v⟩
  | .array items :: rest => ⟨.array (v :: items) :: rest, .commaOrClose⟩
  | .object fields key :: rest => ⟨.object (fields.insert key v) key :: rest, .commaOrClose⟩

def value? (opened : List Container) : Token → Option Reader
  | .null => some (finish .null opened)
  | .boolean b => some (finish (.boolean b) opened)
  | .number n => some (finish (.number n) opened)
  | .text s => some (finish (.text s) opened)
  | .openArray =>
    if opened.length < depthLimit then some ⟨.array [] :: opened, .valueOrClose⟩ else none
  | .openObject =>
    if opened.length < depthLimit then some ⟨.object [] "" :: opened, .keyOrClose⟩ else none
  | _ => none

def step? (r : Reader) (token : Token) : Option Reader :=
  match r.expected, token, r.opened with
  | .value, token, opened => value? opened token
  | .valueOrClose, .closeArray, .array items :: rest => some (finish (.array items.reverse) rest)
  | .valueOrClose, token, opened => value? opened token
  | .keyOrClose, .closeObject, .object fields _ :: rest => some (finish (.object fields) rest)
  | .keyOrClose, .text key, .object fields _ :: rest => some ⟨rest, .colon fields key⟩
  | .key fields, .text key, rest => some ⟨rest, .colon fields key⟩
  | .colon fields key, .colon, rest => some ⟨.object fields key :: rest, .value⟩
  | .commaOrClose, .comma, .array items :: rest => some ⟨.array items :: rest, .value⟩
  | .commaOrClose, .comma, .object fields _ :: rest => some ⟨rest, .key fields⟩
  | .commaOrClose, .closeArray, .array items :: rest => some (finish (.array items.reverse) rest)
  | .commaOrClose, .closeObject, .object fields _ :: rest => some (finish (.object fields) rest)
  | _, _, _ => none

def result? (r : Reader) : Option Json :=
  match r.expected with
  | .nothing v => some v
  | _ => none

end Reader

def ofTokens? (tokens : List Token) : Option Json :=
  (tokens.foldlM Reader.step? Reader.start).bind Reader.result?

def parse? (s : String) : Option Json :=
  (Token.ofText? s).bind ofTokens?

end FeatureFlow.Json
