import FeatureFlow.Table
import FeatureFlow.Text

/-!
# Parked elements

Elements of the user interface that wait for their feature. An element goes by
its action and its feature with a colon between.
-/

namespace FeatureFlow

structure Elements where
  parked : Table Unit

namespace Elements

def empty : Elements :=
  { parked := ∅ }

def keyOf (action feature : String) : String :=
  action ++ ":" ++ feature

/-- The part of a key after its last colon. -/
def featureOf? (key : String) : Option String :=
  (Text.afterLast? ':' key.toList).map String.ofList

def park (e : Elements) (action feature : String) : Elements :=
  { parked := e.parked.insert (keyOf action feature) () }

def isParked (e : Elements) (action feature : String) : Bool :=
  e.parked.contains (keyOf action feature)

def reactivate (e : Elements) (key : String) : Elements :=
  { parked := e.parked.erase key }

def keys (e : Elements) : List String :=
  e.parked.keys

def waitsFor (features : List String) (key : String) : Bool :=
  match featureOf? key with
  | some feature => features.contains feature
  | none => false

def wake (e : Elements) (features : List String) : Elements :=
  (e.keys.filter (waitsFor features)).foldl reactivate e

end Elements

end FeatureFlow
