import FeatureFlow.Json
import FeatureFlow.Text.Quoted

/-!
# Decoding JSON into records

A record is read from an object by its field rules. The fields that are there
are checked in the order of their names, the missing ones are looked for
afterwards in the order of the rules, and the first failure is the answer.
-/

namespace FeatureFlow

/-- What a decoder met instead of what it wanted. -/
inductive Found where
  | null
  | boolean (value : Bool)
  | integer (value : Int)
  | double (value : Double)
  | text (value : String)
  | sequence
  | map
  | bareVariant
deriving DecidableEq

inductive DecodeError where
  | missingField (name : String)
  | wrongType (found : Found) (expected : String)
  | wrongValue (found : Found) (expected : String)
  | wrongLength (length : Nat) (expected : String)
  | unknownVariant (name : String) (known : List String)
  /-- The text was taken, and refused by the rule for what it should denote. -/
  | refused (reason : String)
deriving DecidableEq

namespace Found

def ofJson : Json → Found
  | .null => null
  | .boolean value => boolean value
  | .number (.integer value) => integer value
  | .number (.double value) => double value
  | .text value => text value
  | .array _ => sequence
  | .object _ => map

def shown : Found → String
  | null => "null"
  | boolean value => "boolean `" ++ (if value then "true" else "false") ++ "`"
  | integer value => "integer `" ++ toString value ++ "`"
  | double value => "floating point `" ++ value.text ++ "`"
  | text value => "string " ++ Text.quoted value
  | sequence => "sequence"
  | map => "map"
  | bareVariant => "unit variant"

end Found

namespace DecodeError

def listed : List String → String
  | [a] => "`" ++ a ++ "`"
  | [a, b] => "`" ++ a ++ "` or `" ++ b ++ "`"
  | names => "one of " ++ Text.join ", " (names.map fun name => "`" ++ name ++ "`")

def message : DecodeError → String
  | missingField name => "missing field `" ++ name ++ "`"
  | wrongType found expected => "invalid type: " ++ found.shown ++ ", expected " ++ expected
  | wrongValue found expected => "invalid value: " ++ found.shown ++ ", expected " ++ expected
  | wrongLength length expected =>
    "invalid length " ++ toString length ++ ", expected " ++ expected
  | unknownVariant name known =>
    "unknown variant `" ++ name ++ "`, expected " ++ listed known
  | refused reason => reason

end DecodeError

abbrev Decoded (α : Type) := Except DecodeError α

namespace Decode

-- ---------------------------------------------------------------------------
-- Plain values
-- ---------------------------------------------------------------------------

def mismatch (value : Json) (expected : String) : Decoded α :=
  .error (.wrongType (.ofJson value) expected)

def any (value : Json) : Decoded Json :=
  .ok value

def text : Json → Decoded String
  | .text value => .ok value
  | other => mismatch other "a string"

def path : Json → Decoded String
  | .text value => .ok value
  | other => mismatch other "path string"

def boolean : Json → Decoded Bool
  | .boolean value => .ok value
  | other => mismatch other "a boolean"

def integer (kind : String) (least most : Int) : Json → Decoded Int
  | .number (.integer value) =>
    if least ≤ value ∧ value ≤ most then .ok value
    else .error (.wrongValue (.integer value) kind)
  | other => mismatch other kind

/-- An integer of sixty-four bits without sign. -/
def natural (kind : String) (value : Json) : Decoded Nat :=
  Int.toNat <$> integer kind 0 (Nat.pow 2 64 - 1 : Nat) value

def signed (value : Json) : Decoded Int :=
  integer "i64" (-(Nat.pow 2 63 : Nat)) (Nat.pow 2 63 - 1 : Nat) value

def object : Json → Decoded Json.Object
  | .object fields => .ok fields
  | other => mismatch other "a map"

def list (item : Json → Decoded α) : Json → Decoded (List α)
  | .array items => items.mapM item
  | other => mismatch other "a sequence"

def table (expected : String) (item : Json → Decoded α) : Json → Decoded (Table α)
  | .object fields =>
    Table.ofList <$> fields.mapM fun (key, value) => (key, ·) <$> item value
  | other => mismatch other expected

def optional (item : Json → Decoded α) : Json → Decoded (Option α)
  | .null => .ok none
  | other => some <$> item other

-- ---------------------------------------------------------------------------
-- Records
-- ---------------------------------------------------------------------------

inductive Presence where
  | required
  /-- May be missing from an object, but not from a list of the fields. -/
  | nullable
  | defaulted
deriving DecidableEq

structure Rule where
  name : String
  presence : Presence
  check : Json → Decoded Unit

def rule (name : String) (presence : Presence) (item : Json → Decoded α) : Rule :=
  { name, presence, check := fun value => item value *> pure () }

def checkField (rules : List Rule) (field : String × Json) : Decoded Unit :=
  match rules.find? (·.name == field.1) with
  | some rule => rule.check field.2
  | none => .ok ()

def checkPresent (fields : Json.Object) (rule : Rule) : Decoded Unit :=
  if rule.presence = .required ∧ (Fields.get? rule.name fields).isNone then
    .error (.missingField rule.name)
  else .ok ()

def checkFields (rules : List Rule) (fields : Json.Object) : Decoded Unit := do
  fields.forM (checkField rules)
  rules.forM (checkPresent fields)

def elements (count : Nat) : String :=
  toString count ++ (if count = 1 then " element" else " elements")

/-- Names the items of a list by the rules, in their order. `shape` says what
the list should have been, where it is too short. -/
def nameItems (shape : String) :
    Nat → List Rule → List Json → Decoded (List (String × Json) × List Json)
  | _, [], rest => .ok ([], rest)
  | taken, rule :: rules, item :: items => do
    rule.check item
    let (named, rest) ← nameItems shape (taken + 1) rules items
    return ((rule.name, item) :: named, rest)
  | taken, rule :: rules, [] =>
    if rule.presence = .defaulted then nameItems shape (taken + 1) rules []
    else .error (.wrongLength taken shape)

/-- The fields of a record, which may also be written as the list of its fields. -/
def record (kind : String) (rules : List Rule) : Json → Decoded Json.Object
  | .object fields => do
    checkFields rules fields
    return fields
  | .array items => do
    let shape := kind ++ " with " ++ elements rules.length
    let (named, rest) ← nameItems shape 0 rules items
    if rest.isEmpty then return Fields.ofList named
    else .error (.wrongLength items.length "fewer elements in array")
  | other => mismatch other kind

/-- The fields of a record that is only written as an object, with `own` checked
before the rules of the record it contains. -/
def extended (kind : String) (own inner : List Rule) : Json → Decoded Json.Object
  | .object fields => do
    checkFields own fields
    checkFields inner fields
    return fields
  | other => mismatch other kind

def required (fields : Json.Object) (name : String) (item : Json → Decoded α) : Decoded α :=
  match Fields.get? name fields with
  | some value => item value
  | none => .error (.missingField name)

def defaulted (fields : Json.Object) (name : String) (missing : α) (item : Json → Decoded α) :
    Decoded α :=
  match Fields.get? name fields with
  | some value => item value
  | none => .ok missing

-- ---------------------------------------------------------------------------
-- Variants
-- ---------------------------------------------------------------------------

structure Variant where
  name : String
  content : Option Json

/-- A variant is a text, or an object whose one key is its name. -/
def variant (known : List String) (value : Json) : Decoded Variant := do
  let v ← match value with
    | .text name => pure { name, content := none }
    | .object [(name, content)] => pure { name, content := some content }
    | .object _ => .error (.wrongValue .map "map with a single key")
    | other => mismatch other "string or map"
  if known.contains v.name then return v
  else .error (.unknownVariant v.name known)

def Variant.bare (v : Variant) (result : α) : Decoded α :=
  match v.content with
  | none => .ok result
  | some .null => .ok result
  | some other => mismatch other "unit"

def Variant.holding (v : Variant) (item : Json → Decoded α) : Decoded α :=
  match v.content with
  | some content => item content
  | none => .error (.wrongType .bareVariant "newtype variant")

def Variant.fields (v : Variant) (rules : List Rule) : Decoded Json.Object :=
  match v.content with
  | some (.object fields) => do
    checkFields rules fields
    return fields
  | some other => mismatch other "struct variant"
  | none => .error (.wrongType .bareVariant "struct variant")

def named (known : List (String × α)) (value : Json) : Decoded α := do
  let v ← variant (known.map (·.1)) value
  match known.find? (·.1 == v.name) with
  | some (_, result) => v.bare result
  | none => .error (.unknownVariant v.name (known.map (·.1)))

end Decode

end FeatureFlow
