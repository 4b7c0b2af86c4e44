import FeatureFlow.Manifest.Routing

/-!
# Diagnostics

What is odd about a manifest without keeping it from being used: repeated keys,
then names of things that are not there, then routing cycles.
-/

namespace FeatureFlow

inductive Diagnostic where
  | duplicateKey (kind : NodeKind) (key : String)
  | danglingTarget (source port target : String)
  | danglingProvider (node provider : String)
  | routingCycle (components : List String)
deriving DecidableEq

def Diagnostic.text : Diagnostic → String
  | duplicateKey kind key =>
    "duplicate " ++ kind.name ++ " key `" ++ key ++ "`, the last definition wins"
  | danglingTarget source port target =>
    "`" ++ source ++ "` routes port `" ++ port ++ "` to unknown component `" ++ target ++ "`"
  | danglingProvider node provider =>
    "`" ++ node ++ "` names unknown provider `" ++ provider ++ "`"
  | routingCycle components => "routing cycle through " ++ Text.join " -> " components

namespace Manifest

def danglingTargets (m : Manifest) (d : ComponentDefinition) : List Diagnostic :=
  d.outputs.entries.flatMap fun (port, targets) =>
    (targets.filter fun target => !m.componentTable.contains target).map
      (.danglingTarget d.key port ·)

def danglingProvider (m : Manifest) (node : String) (provider : Option String) : List Diagnostic :=
  (provider.toList.filter fun key => !m.providerTable.contains key).map (.danglingProvider node ·)

def dangling (m : Manifest) : List Diagnostic :=
  (m.componentTable.values.flatMap fun d =>
      m.danglingTargets d ++ m.danglingProvider d.key d.provider) ++
    m.dataObjectTable.values.flatMap fun d => m.danglingProvider d.key d.provider

def sortedByText (diagnostics : List Diagnostic) : List Diagnostic :=
  diagnostics.mergeSort fun a b => decide (a.text ≤ b.text)

def diagnostics (m : Manifest) : List Diagnostic :=
  m.repeats.map (fun (kind, key) => .duplicateKey kind key) ++
    sortedByText m.dangling ++
    sortedByText (m.routingCycles.map .routingCycle)

end Manifest

end FeatureFlow
