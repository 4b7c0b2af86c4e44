import FeatureFlow.Json.Parse
import FeatureFlow.Manifest.Definition
import FeatureFlow.Node.BuiltIn
import FeatureFlow.Registry

/-!
# Feature manifests

A manifest lists the components, data objects and providers of one feature. An
entry that does not decode is left out and does not touch the others. Of entries
with one key the last one counts.
-/

namespace FeatureFlow

inductive NodeKind where
  | component
  | dataObject
  | provider
deriving DecidableEq

def NodeKind.name : NodeKind → String
  | component => "component"
  | dataObject => "data object"
  | provider => "provider"

inductive ManifestError where
  | notJson (feature : String)
  | notAnObject (feature : String)
deriving DecidableEq

def ManifestError.message : ManifestError → String
  | notJson feature => "manifest for `" ++ feature ++ "` is not valid JSON"
  | notAnObject feature => "manifest for `" ++ feature ++ "` must be a JSON object"

/-- A collection is none where the manifest has no list of it. -/
structure Manifest where
  feature : String
  components : Option (Table ComponentDefinition)
  dataObjects : Option (Table DataObjectDefinition)
  providers : Option (Table ProviderDefinition)
  /-- The provider keys in the order of their first entries. -/
  providerOrder : List String
  /-- The keys of entries that came after another one of their key. -/
  repeats : List (NodeKind × String)

namespace Manifest

-- ---------------------------------------------------------------------------
-- Reading
-- ---------------------------------------------------------------------------

def entries (decode : Json → Decoded α) (name : String) (root : Json.Object) : Option (List α) :=
  match Fields.get? name root with
  | some (.array items) => some (items.filterMap fun item => (decode item).toOption)
  | _ => none

/-- The keys that occur before in the list, once for each later occurrence. -/
def repeated (seen : List String) : List String → List String
  | [] => []
  | key :: rest =>
    if key ∈ seen then key :: repeated seen rest else repeated (key :: seen) rest

/-- A component that the server owns becomes a delegate, which is told its
feature by a property. Properties that can hold none give way. -/
def delegated (feature : String) (d : ComponentDefinition) : ComponentDefinition :=
  if d.node.isServerOwned then
    let named := d.node.properties.insert? BuiltIn.featureProperty (.text feature)
    { d with node := { d.node with
        typeName := BuiltIn.delegateType
        properties := named.getD (.map [(BuiltIn.featureProperty, .text feature)]) } }
  else d

def ofObject (feature : String) (root : Json.Object) : Manifest :=
  let components := (entries ComponentDefinition.decode ManifestDocument.componentsName root).map
    fun list => list.map (delegated feature)
  let dataObjects := entries DataObjectDefinition.decode ManifestDocument.dataObjectsName root
  let providers := entries ProviderDefinition.decode ManifestDocument.providersName root
  let componentKeys := (components.getD []).map ComponentDefinition.key
  let dataObjectKeys := (dataObjects.getD []).map DataObjectDefinition.key
  let providerKeys := (providers.getD []).map ProviderDefinition.key
  { feature
    components := components.map fun list => .ofList (list.map fun d => (d.key, d))
    dataObjects := dataObjects.map fun list => .ofList (list.map fun d => (d.key, d))
    providers := providers.map fun list => .ofList (list.map fun d => (d.key, d))
    providerOrder := providerKeys.eraseDups
    repeats :=
      (repeated [] componentKeys).map (.component, ·) ++
        (repeated [] dataObjectKeys).map (.dataObject, ·) ++
        (repeated [] providerKeys).map (.provider, ·) }

def ofJson (feature : String) : Json → Except ManifestError Manifest
  | .object root => .ok (ofObject feature root)
  | _ => .error (.notAnObject feature)

def parse (feature text : String) : Except ManifestError Manifest :=
  match Json.parse? text with
  | some root => ofJson feature root
  | none => .error (.notJson feature)

-- ---------------------------------------------------------------------------
-- Looking up
-- ---------------------------------------------------------------------------

def componentTable (m : Manifest) : Table ComponentDefinition :=
  m.components.getD ∅

def dataObjectTable (m : Manifest) : Table DataObjectDefinition :=
  m.dataObjects.getD ∅

def providerTable (m : Manifest) : Table ProviderDefinition :=
  m.providers.getD ∅

def component? (m : Manifest) (key : String) : Option ComponentDefinition :=
  m.componentTable.get? key

def dataObject? (m : Manifest) (key : String) : Option DataObjectDefinition :=
  m.dataObjectTable.get? key

def provider? (m : Manifest) (key : String) : Option ProviderDefinition :=
  m.providerTable.get? key

/-- The targets of a port, none where the component or the port is unknown. -/
def outputs? (m : Manifest) (source port : String) : Option (List String) :=
  (m.component? source).bind fun d => d.outputs.get? port

def targets (m : Manifest) (source port : String) : List String :=
  (m.outputs? source port).getD []

-- ---------------------------------------------------------------------------
-- Providers
-- ---------------------------------------------------------------------------

def orderedProviders (m : Manifest) : List ProviderDefinition :=
  m.providerOrder.filterMap m.provider?

def firstProvider? (m : Manifest) (typeName : String) : Option ProviderDefinition :=
  m.orderedProviders.find? (·.typeName == typeName)

def namedProvider? (m : Manifest) (key : Option String) : Option ProviderDefinition :=
  key.bind m.provider?

def componentProvider? (m : Manifest) (d : ComponentDefinition) : Option ProviderDefinition :=
  m.namedProvider? d.provider <|> m.firstProvider? Provider.components.typeName

def dataObjectProvider? (m : Manifest) (d : DataObjectDefinition) : Option ProviderDefinition :=
  m.namedProvider? d.provider <|> m.firstProvider? Provider.serverData.typeName

end Manifest

end FeatureFlow
