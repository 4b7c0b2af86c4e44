import FeatureFlow.Node

/-!
# The type registry

An application hands over its catalogue of node types and providers once. The
registry builds nodes by the name of their type. A type that was declared
without a factory is dropped when a node of it is asked for.
-/

namespace FeatureFlow

inductive Role where
  | component
  | dataObject
deriving DecidableEq

def Role.name : Role → String
  | component => "Component"
  | dataObject => "DataObject"

def Role.admits : Role → Node → Bool
  | component, .component _ => true
  | dataObject, .dataObject _ => true
  | _, _ => false

structure Provider where
  typeName : String
  role : Role
  /-- Builds nodes from unresolved properties by itself. Without it the
  properties are resolved and the registry builds the node. -/
  direct : Option Factory

namespace Provider

def components : Provider :=
  { typeName := "ComponentProvider", role := .component, direct := none }

def serverData : Provider :=
  { typeName := "ServerDataProvider", role := .dataObject, direct := none }

end Provider

/-- The types of an application. Of types with one name the last one counts. -/
structure Catalogue where
  nodes : List (String × Option Factory)
  providers : List Provider

namespace Catalogue

def empty : Catalogue :=
  { nodes := [], providers := [] }

def append (a b : Catalogue) : Catalogue :=
  { nodes := a.nodes ++ b.nodes, providers := a.providers ++ b.providers }

instance : Append Catalogue := ⟨append⟩

end Catalogue

structure Registry where
  built : Bool
  /-- The factory of each type; a type without one is only declared. -/
  types : Table (Option Factory)
  providers : Table Provider

namespace Registry

def empty : Registry :=
  { built := false, types := ∅, providers := ∅ }

/-- Takes the types of a catalogue. Only the first catalogue counts. -/
def build (r : Registry) (catalogue : Catalogue) : Registry :=
  if r.built then r
  else
    { built := true
      types := .ofList catalogue.nodes
      providers := .ofList (catalogue.providers.map fun p => (p.typeName, p)) }

def ofCatalogue (catalogue : Catalogue) : Registry :=
  empty.build catalogue

def contains (r : Registry) (typeName : String) : Bool :=
  r.types.contains typeName

def typeNames (r : Registry) : List String :=
  r.types.keys

def provider? (r : Registry) (typeName : String) : Option Provider :=
  r.providers.get? typeName

/-- The node of a seed. A type that is only declared is dropped for good. -/
def create (r : Registry) (seed : Seed) : Option Node × Registry :=
  match r.types.get? seed.typeName with
  | none => (none, r)
  | some (some factory) => (factory seed, r)
  | some none => (none, { r with types := r.types.erase seed.typeName })

end Registry

end FeatureFlow
