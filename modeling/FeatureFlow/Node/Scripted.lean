import FeatureFlow.Node.BuiltIn

/-!
# Scripted nodes

Components whose properties say what they do. They stand in for the components
of an application when a manifest is tried out without it.
-/

namespace FeatureFlow.Scripted

def scriptType : String := "ScriptComponent"
def pickyType : String := "PickyComponent"
def abstractType : String := "AbstractNode"

def failure? (properties : Property) : Option NodeError :=
  (properties.get? "fail").map fun reason =>
    match (properties.get? "fail_kind").bind Property.text? with
    | some "InvalidInput" => .invalidInput reason.display
    | some "ConnectionFailed" => .connectionFailed reason.display
    | _ => .executionFailed reason.display

def output (payload entry : Property) : String × Property :=
  (((entry.get? "port").bind Property.text?).getD "ok", (entry.get? "value").getD payload)

def outputs (properties payload : Property) : Outputs :=
  match (properties.get? "emit").bind Property.list? with
  | some entries => entries.map (output payload)
  | none => [("ok", payload)]

/-- Goes by the property `alias` where that is a text. -/
def script (seed : Seed) : Component :=
  { key := ((seed.properties.get? "alias").bind Property.text?).getD seed.key
    feature := seed.feature, properties := seed.properties
    perform := fun _ payload _ =>
      match failure? seed.properties with
      | some error => .fail error
      | none => .emit (outputs seed.properties payload) }

/-- A script that is not built where the property `reject` is true. -/
def picky (seed : Seed) : Option Component :=
  match (seed.properties.get? "reject").bind Property.boolean? with
  | some true => none
  | _ => some (script seed)

end FeatureFlow.Scripted
