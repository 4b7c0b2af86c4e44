import FeatureFlow.Json.Print

/-!
# Property trees

What manifest nodes declare and what flows between components: JSON, and
references to live data objects. A reference stands for one instance; as JSON
it is its key in braces.
-/

namespace FeatureFlow

/-- One instance of a data object: the key it was built for, in the feature it
belongs to, and how often that feature had been registered before. -/
structure Reference where
  feature : String
  registration : Nat
  key : String
deriving DecidableEq

def Reference.placeholder (r : Reference) : String :=
  "\x7b" ++ r.key ++ "\x7d"

inductive Property where
  | text (value : String)
  | number (value : Number)
  | boolean (value : Bool)
  | list (items : List Property)
  | map (fields : List (String × Property))
  | node (reference : Reference)
  | null
deriving Inhabited

namespace Property

-- ---------------------------------------------------------------------------
-- Properties and JSON
-- ---------------------------------------------------------------------------

mutual
def ofJson : Json → Property
  | .null => null
  | .boolean value => boolean value
  | .number value => number value
  | .text value => text value
  | .array items => list (ofItems items)
  | .object fields => map (ofFields fields)
def ofItems : List Json → List Property
  | [] => []
  | item :: rest => ofJson item :: ofItems rest
def ofFields : List (String × Json) → List (String × Property)
  | [] => []
  | (key, value) :: rest => (key, ofJson value) :: ofFields rest
end

mutual
def toJson : Property → Json
  | null => .null
  | boolean value => .boolean value
  | number value => .number value
  | text value => .text value
  | list items => .array (toItems items)
  | map fields => .object (toFields fields)
  | node reference => .text reference.placeholder
def toItems : List Property → List Json
  | [] => []
  | item :: rest => toJson item :: toItems rest
def toFields : List (String × Property) → List (String × Json)
  | [] => []
  | (key, value) :: rest => (key, toJson value) :: toFields rest
end

-- ---------------------------------------------------------------------------
-- Looking into a tree
-- ---------------------------------------------------------------------------

def text? : Property → Option String
  | text value => some value
  | _ => none

def double? : Property → Option Double
  | number value => some value.toDouble
  | _ => none

def boolean? : Property → Option Bool
  | boolean value => some value
  | _ => none

def list? : Property → Option (List Property)
  | list items => some items
  | _ => none

def map? : Property → Option (Fields Property)
  | map fields => some fields
  | _ => none

def node? : Property → Option Reference
  | node reference => some reference
  | _ => none

def isNull : Property → Bool
  | null => true
  | _ => false

def get? (p : Property) (key : String) : Option Property :=
  p.map?.bind (Fields.get? key)

/-- Null counts as the empty map; any other value that is no map takes no field. -/
def insert? (p : Property) (key : String) (value : Property) : Option Property :=
  match p with
  | null => some (map [(key, value)])
  | map fields => some (map (Fields.insert key value fields))
  | _ => none

def display : Property → String
  | text value => value
  | number value => value.text
  | boolean value => if value then "true" else "false"
  | null => ""
  | node reference => reference.placeholder
  | other => other.toJson.compact

-- ---------------------------------------------------------------------------
-- Equality
-- ---------------------------------------------------------------------------

mutual
/-- References are equal when they stand for the same instance. -/
def sameValue : Property → Property → Bool
  | null, null => true
  | boolean a, boolean b => a == b
  | number a, number b => a.sameValue b
  | text a, text b => a == b
  | list a, list b => sameItems a b
  | map a, map b => sameFields a b
  | node a, node b => a == b
  | _, _ => false
def sameItems : List Property → List Property → Bool
  | [], [] => true
  | a :: as, b :: bs => sameValue a b && sameItems as bs
  | _, _ => false
def sameFields : List (String × Property) → List (String × Property) → Bool
  | [], [] => true
  | (k, a) :: as, (l, b) :: bs => k == l && sameValue a b && sameFields as bs
  | _, _ => false
end

end Property

end FeatureFlow
