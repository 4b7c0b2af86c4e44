import FeatureFlow.Manifest
import FeatureFlow.Proofs.Manifest.Written

/-!
# Delegates

A component that the server owns becomes a delegate: its properties are told the feature
(`told`), whatever they were before. All else about the entry stays.
-/

namespace FeatureFlow

namespace Manifest

variable {feature : String} {d : ComponentDefinition} {p : Property}

def told (feature : String) (p : Property) : Property :=
  (p.insert? BuiltIn.featureProperty (.text feature)).getD
    (.map [(BuiltIn.featureProperty, .text feature)])

theorem delegated_of_server (feature : String) (h : d.node.isServerOwned = true) :
    delegated feature d = { d with node := { d.node with
      typeName := BuiltIn.delegateType, properties := told feature d.node.properties } } :=
  if_pos h

theorem delegated_of_client (feature : String) (h : ¬ d.node.isServerOwned = true) :
    delegated feature d = d :=
  if_neg h

theorem key_delegated (feature : String) (d : ComponentDefinition) :
    (delegated feature d).key = d.key := by
  unfold delegated
  split <;> rfl

theorem delegate_of_isServerOwned (h : (delegated feature d).node.isServerOwned = true) :
    (delegated feature d).node.typeName = BuiltIn.delegateType ∧
      (delegated feature d).node.properties = told feature d.node.properties := by
  by_cases howner : d.node.isServerOwned = true
  · rw [delegated_of_server feature howner]
    exact ⟨rfl, rfl⟩
  · rw [delegated_of_client feature howner] at h
    exact absurd h howner

theorem told_eq_map (feature : String) (p : Property) :
    ∃ fields, told feature p = .map fields ∧
      Fields.get? BuiltIn.featureProperty fields = some (.text feature) := by
  cases p with
  | map fields =>
    exact ⟨_, rfl, Fields.get?_insert_self BuiltIn.featureProperty (.text feature) fields⟩
  | _ => exact ⟨_, rfl, if_pos rfl⟩

theorem insert?_told (feature : String) (p : Property) :
    (told feature p).insert? BuiltIn.featureProperty (.text feature) = some (told feature p) := by
  unfold told
  cases h : p.insert? BuiltIn.featureProperty (.text feature) with
  | none => simp [Property.insert?, Fields.insert]
  | some named => exact Property.insert?_of_insert? h

theorem isJson_told (feature : String) (h : p.IsJson) : (told feature p).IsJson := by
  unfold told
  cases hinsert : p.insert? BuiltIn.featureProperty (.text feature) with
  | none => exact ⟨.object [(BuiltIn.featureProperty, .text feature)], rfl⟩
  | some named => exact h.insert? hinsert

theorem isJson_delegated (feature : String) (h : d.node.properties.IsJson) :
    (delegated feature d).node.properties.IsJson := by
  by_cases howner : d.node.isServerOwned = true
  · rw [delegated_of_server feature howner]
    exact isJson_told feature h
  · rwa [delegated_of_client feature howner]

/-- A delegate that is read again stays what it is. -/
theorem delegated_delegated (feature : String) (d : ComponentDefinition) :
    delegated feature (delegated feature d) = delegated feature d := by
  by_cases howner : d.node.isServerOwned = true
  · have htold : told feature (told feature d.node.properties) = told feature d.node.properties := by
      rw [told, insert?_told, Option.getD_some]
    have hdelegate : (delegated feature d).node.isServerOwned = true := by
      rwa [delegated_of_server feature howner]
    rw [delegated_of_server feature hdelegate, delegated_of_server feature howner]
    simp only [htold]
  · rw [delegated_of_client feature howner, delegated_of_client feature howner]

end Manifest

end FeatureFlow
