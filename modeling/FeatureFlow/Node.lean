import FeatureFlow.DataObject
import FeatureFlow.Message

/-!
# Runtime nodes

A component is performed with a payload and answers with values on named ports
and with messages for the server. A node is a component or a data object; a
seed holds everything that one is built from.
-/

namespace FeatureFlow

/-- The way to the server. Without one, or with a closed one, nothing is sent. -/
inductive Link where
  | absent
  | connected
  | closed
deriving DecidableEq

inductive NodeError where
  | invalidInput (reason : String)
  | executionFailed (reason : String)
  | connectionFailed (reason : String)
deriving DecidableEq

namespace NodeError

def message : NodeError → String
  | invalidInput reason => "Invalid input: " ++ reason
  | executionFailed reason => "Processing error: " ++ reason
  | connectionFailed reason => "Failed to reach the server: " ++ reason

def names : List String :=
  ["InvalidInput", "ExecutionFailed", "ConnectionFailed"]

def decode (value : Json) : Decoded NodeError := do
  let v ← Decode.variant names value
  let reason ← v.holding Decode.text
  return match v.name with
    | "InvalidInput" => invalidInput reason
    | "ConnectionFailed" => connectionFailed reason
    | _ => executionFailed reason

def toJson : NodeError → Json
  | invalidInput reason => .record [("InvalidInput", .text reason)]
  | executionFailed reason => .record [("ExecutionFailed", .text reason)]
  | connectionFailed reason => .record [("ConnectionFailed", .text reason)]

end NodeError

/-- Values by output port, in the order of emission. A port may occur twice. -/
abbrev Outputs := List (String × Property)

/-- What performing a component gives, and what it sent to the server meanwhile. -/
structure Performance where
  result : Except NodeError Outputs
  sent : List ServerMessage

namespace Performance

def emit (outputs : Outputs) : Performance :=
  { result := .ok outputs, sent := [] }

def fail (error : NodeError) : Performance :=
  { result := .error error, sent := [] }

end Performance

/-- Hands a message to the server. Nothing is emitted for it here. -/
def Link.send (link : Link) (message : ServerMessage) : Performance :=
  match link with
  | .absent => .fail (.connectionFailed "no server link configured")
  | .closed => .fail (.connectionFailed "server link closed")
  | .connected => { result := .ok [], sent := [message] }

structure Component where
  key : String
  feature : String
  /-- The resolved properties it was built with. -/
  properties : Property
  /-- The answer to a payload; the flag asks for the run to be logged. -/
  perform : Link → Property → Bool → Performance

inductive Node where
  | component (component : Component)
  | dataObject (object : DataObject)

namespace Node

def key : Node → String
  | component c => c.key
  | dataObject d => d.key

def component? : Node → Option Component
  | component c => some c
  | dataObject _ => none

def dataObject? : Node → Option DataObject
  | component _ => none
  | dataObject d => some d

end Node

structure Seed where
  key : String
  typeName : String
  feature : String
  properties : Property

/-- Builds a node of one type, or declines to. -/
abbrev Factory := Seed → Option Node

end FeatureFlow
