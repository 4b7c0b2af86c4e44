import FeatureFlow.Property

/-!
# Data objects

A data object holds a value under a key. The server changes the value, and texts show its
fields. What becomes of a change and what is shown is up to the kind of the data object.
The kind that every application has holds plain JSON: an object that meets an object is
merged field by field, anything else replaces the value.
-/

namespace FeatureFlow

namespace DataObject

class Kind where
  update : Json → Json → Json
  /-- The text of a field, none where the value has no such field. -/
  fieldText? : Json → String → Option String

end DataObject

structure DataObject where
  key : String
  value : Json
  [kind : DataObject.Kind]

namespace DataObject

def update (d : DataObject) (value : Json) : DataObject :=
  { d with value := d.kind.update d.value value }

def fieldText? (d : DataObject) (field : String) : Option String :=
  d.kind.fieldText? d.value field

-- ---------------------------------------------------------------------------
-- Plain JSON
-- ---------------------------------------------------------------------------

def merged (current update : Json) : Json :=
  match current, update with
  | .object fields, .object changes => .object (Fields.insertAll fields changes)
  | _, other => other

def shown? (value : Json) (field : String) : Option String :=
  match value.field? field with
  | none => none
  | some (.text value) => some value
  | some .null => some ""
  | some other => some other.compact

instance plain : Kind where
  update := merged
  fieldText? := shown?

def ofValue (key : String) (value : Json) : DataObject :=
  { key, value, kind := plain }

/-- The value that the property `value` declares, an empty object without one. -/
def ofProperties (key : String) (properties : Property) : DataObject :=
  .ofValue key (((properties.get? "value").map Property.toJson).getD (.object []))

end DataObject

structure LiveObject where
  reference : Reference
  object : DataObject

end FeatureFlow
