import FeatureFlow.Expression
import FeatureFlow.Feature

/-!
# Building the nodes of a feature

A node is built by the provider of its manifest entry, from properties whose
tokens are resolved first. A token may name a data object that is not there yet:
it is built on the way, under the same payload, and shared from then on. While a
data object is being built its own key stands for nothing, so building ends.
-/

namespace FeatureFlow

/-- What building nodes changes: data objects appear, and types that cannot
build themselves disappear. -/
structure Inventory where
  objects : Table DataObject
  registry : Registry

abbrev Building := StateM Inventory

structure Scope where
  manifest : Manifest
  registration : Nat
  payload : Property

namespace Scope

def live (s : Scope) (key : String) (object : DataObject) : LiveObject :=
  { reference := { feature := s.manifest.feature, registration := s.registration, key }, object }

def resolved [Monad m] (s : Scope) (source : Source m) (d : NodeDefinition) : m Property :=
  Expression.resolve s.payload source d.properties

def seed (s : Scope) (d : NodeDefinition) (properties : Property) : Seed :=
  { key := d.key, typeName := d.typeName, feature := s.manifest.feature, properties }

/-- Builds a node through the registry. A node of another role is discarded. -/
def buildByType [Monad m] [MonadStateOf Inventory m] (s : Scope) (source : Source m) (role : Role)
    (d : NodeDefinition) : m (Option Node) := do
  let properties ← s.resolved source d
  let inventory ← get
  let (node, registry) := inventory.registry.create (s.seed d properties)
  set { inventory with registry }
  return node.filter role.admits

/-- Builds the node of an entry, none without a provider of the wanted role. -/
def build [Monad m] [MonadStateOf Inventory m] (s : Scope) (source : Source m) (role : Role)
    (d : NodeDefinition) (provider : Option ProviderDefinition) : m (Option Node) := do
  let inventory ← get
  match provider.bind fun p => inventory.registry.provider? p.typeName with
  | none => return none
  | some p =>
    if p.role = role then
      match p.direct with
      | some factory => return factory (s.seed d d.properties)
      | none => s.buildByType source role d
    else return none

/-- The data object of a key, built from the available definitions where it is
not there yet. -/
def dataObjectFrom (s : Scope) (available : Table DataObjectDefinition) (key : String) :
    Building (Option LiveObject) := do
  let inventory ← get
  match inventory.objects.get? key with
  | some object => return some (s.live key object)
  | none =>
    match _h : available.get? key with
    | none => return none
    | some d =>
      let node ← s.build (fun other => s.dataObjectFrom (available.erase key) other) .dataObject
        d.node (s.manifest.dataObjectProvider? d)
      match node.bind Node.dataObject? with
      | none => return none
      | some object =>
        modify fun inventory => { inventory with objects := inventory.objects.insert key object }
        return some (s.live key object)
termination_by available.size
decreasing_by exact Table.size_erase_lt _h

def dataObject (s : Scope) (key : String) : Building (Option LiveObject) :=
  s.dataObjectFrom s.manifest.dataObjectTable key

def component (s : Scope) (d : ComponentDefinition) : Building (Option Component) :=
  (·.bind Node.component?) <$>
    s.build s.dataObject .component d.node (s.manifest.componentProvider? d)

end Scope

end FeatureFlow
