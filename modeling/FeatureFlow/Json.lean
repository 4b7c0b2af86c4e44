import FeatureFlow.Number
import FeatureFlow.Table

/-!
# JSON values

An object holds its fields with rising keys, so equal objects have one form.
-/

namespace FeatureFlow

inductive Json where
  | null
  | boolean (value : Bool)
  | number (value : Number)
  | text (value : String)
  | array (items : List Json)
  | object (fields : List (String × Json))
deriving Inhabited

namespace Json

abbrev Object := Fields Json

def int (value : Int) : Json :=
  number (.integer value)

def nat (value : Nat) : Json :=
  int value

def ofOption (write : α → Json) : Option α → Json
  | none => null
  | some value => write value

def texts (values : List String) : Json :=
  array (values.map text)

/-- An object of the given fields, in any order; the last of a repeated key counts. -/
def record (fields : List (String × Json)) : Json :=
  object (Fields.ofList fields)

def ofTable (write : α → Json) (table : Table α) : Json :=
  object (table.entries.map fun (key, value) => (key, write value))

def text? : Json → Option String
  | text value => some value
  | _ => none

def object? : Json → Option Object
  | object fields => some fields
  | _ => none

def array? : Json → Option (List Json)
  | array items => some items
  | _ => none

def isNull : Json → Bool
  | null => true
  | _ => false

def field? (key : String) : Json → Option Json
  | object fields => Fields.get? key fields
  | _ => none

mutual
/-- Equality in which the two zeros of doubles are equal. -/
def sameValue : Json → Json → Bool
  | null, null => true
  | boolean a, boolean b => a == b
  | number a, number b => a.sameValue b
  | text a, text b => a == b
  | array a, array b => sameItems a b
  | object a, object b => sameFields a b
  | _, _ => false
def sameItems : List Json → List Json → Bool
  | [], [] => true
  | a :: as, b :: bs => sameValue a b && sameItems as bs
  | _, _ => false
def sameFields : List (String × Json) → List (String × Json) → Bool
  | [], [] => true
  | (k, a) :: as, (l, b) :: bs => k == l && sameValue a b && sameFields as bs
  | _, _ => false
end

end Json

end FeatureFlow
