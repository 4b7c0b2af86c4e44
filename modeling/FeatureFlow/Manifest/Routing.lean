import FeatureFlow.Manifest

/-!
# Routing between components

The routes of a manifest lead from a component to the existing components that
its ports name. A routing cycle is a set of components that all reach each
other, by at least one route.
-/

namespace FeatureFlow.Manifest

/-- What is reached from the pending keys without leaving the remaining ones. -/
def visit (next : String → List String) : List String → List String → List String
  | _, [] => []
  | remaining, key :: pending =>
    if key ∈ remaining then key :: visit next (remaining.erase key) (next key ++ pending)
    else visit next remaining pending
termination_by remaining pending => (remaining.length, pending.length)
decreasing_by
  · rename_i h
    apply Prod.Lex.left
    have hpos := List.length_pos_of_mem h
    rw [List.length_erase_of_mem h]
    omega
  · exact Prod.Lex.right _ (Nat.lt_succ_self _)

def componentKeys (m : Manifest) : List String :=
  m.componentTable.keys

def routes (m : Manifest) (key : String) : List String :=
  match m.component? key with
  | some d => d.outputs.values.flatten.filter m.componentTable.contains
  | none => []

/-- The components that a component reaches by one route or more. -/
def reached (m : Manifest) (key : String) : List String :=
  visit m.routes m.componentKeys (m.routes key)

def mutuallyReached (m : Manifest) : List (String × List String) :=
  let reach : Table (List String) := .ofList (m.componentKeys.map fun key => (key, m.reached key))
  let reaches (a b : String) : Bool := ((reach.get? a).getD []).contains b
  m.componentKeys.map fun key =>
    (key, m.componentKeys.filter fun other => reaches key other && reaches other key)

def routingCycles (m : Manifest) : List (List String) :=
  m.mutuallyReached.filterMap fun (key, group) =>
    if group.head? = some key then some group else none

end FeatureFlow.Manifest
