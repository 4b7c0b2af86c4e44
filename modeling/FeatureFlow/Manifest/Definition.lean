import FeatureFlow.Decode
import FeatureFlow.Property

/-!
# Manifest entries

The definitions of components, data objects and providers. Each contains the
fields that all nodes share and is written only as an object; its own fields are
checked before the shared ones.
-/

namespace FeatureFlow

structure NodeDefinition where
  key : String
  typeName : String
  properties : Property
  owner : Option String

namespace NodeDefinition

open Decode (rule)

def rules : List Decode.Rule :=
  [rule "keyName" .required Decode.text, rule "typeName" .defaulted Decode.text,
    rule "props" .defaulted Decode.any, rule "owner" .defaulted (Decode.optional Decode.text)]

def ofFields (fields : Json.Object) : Decoded NodeDefinition := do
  return { key := ← Decode.required fields "keyName" Decode.text
           typeName := ← Decode.defaulted fields "typeName" "" Decode.text
           properties := .ofJson (← Decode.defaulted fields "props" .null Decode.any)
           owner := ← Decode.defaulted fields "owner" none (Decode.optional Decode.text) }

def decode (value : Json) : Decoded NodeDefinition := do
  ofFields (← Decode.record "struct NodeDefinition" rules value)

def present (name : String) (write : α → Json) : Option α → List (String × Json)
  | some value => [(name, write value)]
  | none => []

def toFields (d : NodeDefinition) : List (String × Json) :=
  [("keyName", .text d.key), ("typeName", .text d.typeName)] ++
    (if d.properties.isNull then [] else [("props", d.properties.toJson)]) ++
    present "owner" .text d.owner

def toJson (d : NodeDefinition) : Json :=
  .record d.toFields

def isServerOwned (d : NodeDefinition) : Bool :=
  d.owner == some "server"

end NodeDefinition

structure ComponentDefinition where
  node : NodeDefinition
  provider : Option String
  /-- The components to perform next, by output port. -/
  outputs : Table (List String)
  devPanelVisible : Bool

namespace ComponentDefinition

open Decode (rule)

def decodeOutputs : Json → Decoded (Table (List String)) :=
  Decode.table "a map" (Decode.list Decode.text)

def rules : List Decode.Rule :=
  [rule "providerKey" .defaulted (Decode.optional Decode.text),
    rule "outputs" .defaulted decodeOutputs, rule "devPanelVisible" .defaulted Decode.boolean]

def decode (value : Json) : Decoded ComponentDefinition := do
  let fields ← Decode.extended "struct ComponentDefinition" rules NodeDefinition.rules value
  return { node := ← NodeDefinition.ofFields fields
           provider := ← Decode.defaulted fields "providerKey" none (Decode.optional Decode.text)
           outputs := ← Decode.defaulted fields "outputs" ∅ decodeOutputs
           devPanelVisible := ← Decode.defaulted fields "devPanelVisible" false Decode.boolean }

def toJson (d : ComponentDefinition) : Json :=
  .record (d.node.toFields ++ NodeDefinition.present "providerKey" .text d.provider ++
    [("outputs", .ofTable .texts d.outputs), ("devPanelVisible", .boolean d.devPanelVisible)])

def key (d : ComponentDefinition) : String :=
  d.node.key

def targets (d : ComponentDefinition) (port : String) : List String :=
  (d.outputs.get? port).getD []

end ComponentDefinition

structure DataObjectDefinition where
  node : NodeDefinition
  provider : Option String

namespace DataObjectDefinition

open Decode (rule)

def rules : List Decode.Rule :=
  [rule "providerKey" .defaulted (Decode.optional Decode.text)]

def decode (value : Json) : Decoded DataObjectDefinition := do
  let fields ← Decode.extended "struct DataObjectDefinition" rules NodeDefinition.rules value
  return { node := ← NodeDefinition.ofFields fields
           provider := ← Decode.defaulted fields "providerKey" none (Decode.optional Decode.text) }

def toJson (d : DataObjectDefinition) : Json :=
  .record (d.node.toFields ++ NodeDefinition.present "providerKey" .text d.provider)

def key (d : DataObjectDefinition) : String :=
  d.node.key

end DataObjectDefinition

structure ProviderDefinition where
  node : NodeDefinition

namespace ProviderDefinition

def decode (value : Json) : Decoded ProviderDefinition := do
  let fields ← Decode.extended "struct ProviderDefinition" [] NodeDefinition.rules value
  return { node := ← NodeDefinition.ofFields fields }

def toJson (d : ProviderDefinition) : Json :=
  d.node.toJson

def key (d : ProviderDefinition) : String :=
  d.node.key

def typeName (d : ProviderDefinition) : String :=
  d.node.typeName

end ProviderDefinition

/-- A manifest read as a whole, where every entry has to be good. -/
structure ManifestDocument where
  components : Option (List ComponentDefinition)
  dataObjects : Option (List DataObjectDefinition)
  providers : Option (List ProviderDefinition)

namespace ManifestDocument

open Decode (rule)

def componentsName : String := "componentConfigs"
def dataObjectsName : String := "dataObjectConfigs"
def providersName : String := "providerConfigs"

def rules : List Decode.Rule :=
  [rule componentsName .defaulted (Decode.optional (Decode.list ComponentDefinition.decode)),
    rule dataObjectsName .defaulted (Decode.optional (Decode.list DataObjectDefinition.decode)),
    rule providersName .defaulted (Decode.optional (Decode.list ProviderDefinition.decode))]

def decode (value : Json) : Decoded ManifestDocument := do
  let fields ← Decode.record "struct ManifestDocument" rules value
  return { components := ← Decode.defaulted fields componentsName none
             (Decode.optional (Decode.list ComponentDefinition.decode))
           dataObjects := ← Decode.defaulted fields dataObjectsName none
             (Decode.optional (Decode.list DataObjectDefinition.decode))
           providers := ← Decode.defaulted fields providersName none
             (Decode.optional (Decode.list ProviderDefinition.decode)) }

def list (name : String) (write : α → Json) (entries : Option (List α)) : List (String × Json) :=
  NodeDefinition.present name (fun items => .array (items.map write)) entries

def toJson (d : ManifestDocument) : Json :=
  .record (list componentsName ComponentDefinition.toJson d.components ++
    list dataObjectsName DataObjectDefinition.toJson d.dataObjects ++
    list providersName ProviderDefinition.toJson d.providers)

end ManifestDocument

end FeatureFlow
