import FeatureFlow.Decode
import FeatureFlow.Property

/-!
# Server messages

A message is a name with JSON properties. Each kind of event that travels in a
message has its own record, a reader from the properties and, where the client
sends it, a writer to them.
-/

namespace FeatureFlow

-- ---------------------------------------------------------------------------
-- Messages
-- ---------------------------------------------------------------------------

structure ServerMessage where
  name : String
  properties : Json.Object

structure MalformedMessage where
  name : String
  reason : DecodeError

def MalformedMessage.message (e : MalformedMessage) : String :=
  "malformed `" ++ e.name ++ "` message: " ++ e.reason.message

namespace ServerMessage

open Decode (rule)

def syncFeatures : String := "sync_proton_features"
def performComponent : String := "perform_component"
def dataUpdated : String := "data_updated"

def rules : List Decode.Rule :=
  [rule "name" .required Decode.text, rule "properties" .defaulted Decode.object]

def decode (value : Json) : Decoded ServerMessage := do
  let fields ← Decode.record "struct ServerMessage" rules value
  return { name := ← Decode.required fields "name" Decode.text
           properties := ← Decode.defaulted fields "properties" [] Decode.object }

def toJson (m : ServerMessage) : Json :=
  .object [("name", .text m.name), ("properties", .object m.properties)]

def get? (m : ServerMessage) (key : String) : Option Json :=
  Fields.get? key m.properties

def readyKey : String := "proton_ready_list"

def readyList (ready : Table String) : ServerMessage :=
  { name := syncFeatures, properties := [(readyKey, .ofTable .text ready)] }

def ready? (m : ServerMessage) : Option (List String) :=
  if m.name = syncFeatures then ((m.get? readyKey).bind Json.object?).map Fields.keys else none

def activeFeatures (features : List String) : ServerMessage :=
  { name := syncFeatures, properties := [("active_features", .texts features)] }

def parse (decode : Json → Decoded α) (m : ServerMessage) : Except MalformedMessage α :=
  match decode (.object m.properties) with
  | .ok event => .ok event
  | .error reason => .error ⟨m.name, reason⟩

end ServerMessage

-- ---------------------------------------------------------------------------
-- What messages say
-- ---------------------------------------------------------------------------

structure PerformComponentEvent where
  feature : String
  component : String
  payload : Json.Object
  sampleFlow : Bool

namespace PerformComponentEvent

open Decode (rule)

def rules : List Decode.Rule :=
  [rule "featurename" .required Decode.text, rule "component_keyname" .required Decode.text,
    rule "payload_data" .defaulted Decode.object, rule "sample_flow" .defaulted Decode.boolean]

def decode (value : Json) : Decoded PerformComponentEvent := do
  let fields ← Decode.record "struct PerformComponentEvent" rules value
  return { feature := ← Decode.required fields "featurename" Decode.text
           component := ← Decode.required fields "component_keyname" Decode.text
           payload := ← Decode.defaulted fields "payload_data" [] Decode.object
           sampleFlow := ← Decode.defaulted fields "sample_flow" false Decode.boolean }

def toObject (e : PerformComponentEvent) : Json.Object :=
  [("component_keyname", .text e.component), ("featurename", .text e.feature),
    ("payload_data", .object e.payload), ("sample_flow", .boolean e.sampleFlow)]

def toJson (e : PerformComponentEvent) : Json :=
  .object e.toObject

/-- A payload on its way out: a map as it is, null as no fields, and any other
value under the field `value`. -/
def wrap (payload : Property) : Json.Object :=
  match payload.toJson with
  | .object fields => fields
  | .null => []
  | other => [("value", other)]

def outbound (feature component : String) (payload : Property) (sampleFlow : Bool) :
    PerformComponentEvent :=
  { feature, component, payload := wrap payload, sampleFlow }

def payloadValue (e : PerformComponentEvent) : Property :=
  .ofJson (.object e.payload)

def toMessage (e : PerformComponentEvent) : ServerMessage :=
  { name := ServerMessage.performComponent, properties := e.toObject }

end PerformComponentEvent

structure DataUpdatedEvent where
  feature : String
  key : String
  data : Json.Object

namespace DataUpdatedEvent

open Decode (rule)

def rules : List Decode.Rule :=
  [rule "featurename" .required Decode.text, rule "keyname" .required Decode.text,
    rule "data" .defaulted Decode.object]

def decode (value : Json) : Decoded DataUpdatedEvent := do
  let fields ← Decode.record "struct DataUpdatedEvent" rules value
  return { feature := ← Decode.required fields "featurename" Decode.text
           key := ← Decode.required fields "keyname" Decode.text
           data := ← Decode.defaulted fields "data" [] Decode.object }

def toJson (e : DataUpdatedEvent) : Json :=
  .object [("data", .object e.data), ("featurename", .text e.feature), ("keyname", .text e.key)]

end DataUpdatedEvent

/-- The server's answer to a ready list. -/
structure ActiveFeaturesPush where
  features : List String

namespace ActiveFeaturesPush

open Decode (rule)

def rules : List Decode.Rule :=
  [rule "active_features" .defaulted (Decode.list Decode.text)]

def decode (value : Json) : Decoded ActiveFeaturesPush := do
  let fields ← Decode.record "struct ActiveFeaturesPush" rules value
  return { features := ← Decode.defaulted fields "active_features" [] (Decode.list Decode.text) }

def toJson (p : ActiveFeaturesPush) : Json :=
  .object [("active_features", .texts p.features)]

end ActiveFeaturesPush

end FeatureFlow
