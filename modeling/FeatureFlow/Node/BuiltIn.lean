import FeatureFlow.Node

/-!
# Built-in node types

The delegate passes its step on to the server, the relay passes a value on to
the components behind it, and the value object holds JSON.
-/

namespace FeatureFlow.BuiltIn

def delegateType : String := "ServerDelegateComponent"
def relayType : String := "RelayComponent"
def valueObjectType : String := "ValueDataObject"

/-- The property that names the feature a delegate speaks for. -/
def featureProperty : String := "featureName"

def delegateFeature (seed : Seed) : String :=
  ((seed.properties.get? featureProperty).bind Property.text?).getD seed.feature

def delegate (seed : Seed) : Component :=
  let feature := delegateFeature seed
  { key := seed.key, feature, properties := seed.properties
    perform := fun link payload log =>
      link.send (PerformComponentEvent.outbound feature seed.key payload log).toMessage }

/-- The texts of the list `ports`, then the text `port`; `next` where there are none. -/
def relayPorts (properties : Property) : List String :=
  let listed := (((properties.get? "ports").bind Property.list?).getD []).filterMap Property.text?
  let single := ((properties.get? "port").bind Property.text?).toList
  match listed ++ single with
  | [] => ["next"]
  | ports => ports

/-- The property `output` where there is one, else the payload. -/
def relayValue (properties payload : Property) : Property :=
  (properties.get? "output").getD payload

def relay (seed : Seed) : Component :=
  { key := seed.key, feature := seed.feature, properties := seed.properties
    perform := fun _ payload _ =>
      let value := relayValue seed.properties payload
      .emit ((relayPorts seed.properties).map fun port => (port, value)) }

def valueObject (seed : Seed) : DataObject :=
  .ofProperties seed.key seed.properties

end FeatureFlow.BuiltIn
