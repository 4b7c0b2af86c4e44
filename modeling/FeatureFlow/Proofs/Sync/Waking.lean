import FeatureFlow.Proofs.Cutting
import FeatureFlow.Proofs.Sync.Pushes

/-!
# Elements that wake with their features

An element is kept under one text, its action and its feature with a colon between, and is
woken by what stands after the last colon of this text. So an action may hold colons, and
an element whose feature holds one is woken by the last part of that name
(`featureOf?_keyOf`). After a push, exactly the elements are still parked whose features,
taken in this way, the push did not activate (`isParked_push`).
-/

namespace FeatureFlow

-- ---------------------------------------------------------------------------
-- Elements
-- ---------------------------------------------------------------------------

namespace Elements

variable {e : Elements} {action feature key : String} {keys features : List String}

/-- The name that wakes the elements of a feature: what stands after its last colon, or all
of it. -/
def wakingName (feature : String) : String :=
  (featureOf? feature).getD feature

theorem wakingName_of_not_mem (h : ':' ∉ feature.toList) : wakingName feature = feature := by
  rw [wakingName, featureOf?, Text.afterLast?_of_not_mem h]
  rfl

theorem featureOf?_keyOf (action feature : String) :
    featureOf? (keyOf action feature) = some (wakingName feature) := by
  have hkey : (keyOf action feature).toList = action.toList ++ ':' :: feature.toList := by
    simp [keyOf]
  rw [wakingName, featureOf?, featureOf?, hkey, Text.afterLast?_append]
  cases Text.afterLast? ':' feature.toList with
  | some part => rfl
  | none => simp

theorem get?_foldl_reactivate (e : Elements) (keys : List String) (key : String) :
    (keys.foldl reactivate e).parked.get? key =
      if key ∈ keys then none else e.parked.get? key := by
  induction keys generalizing e with
  | nil => simp
  | cons first rest ih =>
    rw [List.foldl_cons, ih, reactivate, Table.get?_erase]
    by_cases hrest : key ∈ rest
    · simp [hrest]
    · by_cases hfirst : first = key
      · simp [hfirst]
      · simp [hrest, hfirst, Ne.symm hfirst]

theorem isParked_wake (e : Elements) (features : List String) (action feature : String) :
    (e.wake features).isParked action feature =
      (e.isParked action feature && !features.contains (wakingName feature)) := by
  have hwaits : waitsFor features (keyOf action feature) =
      features.contains (wakingName feature) := by
    rw [waitsFor, featureOf?_keyOf]
  simp only [isParked, Table.contains, wake, get?_foldl_reactivate, List.mem_filter, hwaits,
    Elements.keys, Table.mem_keys_iff]
  cases h : e.parked.get? (keyOf action feature) with
  | none => simp
  | some parked => cases features.contains (wakingName feature) <;> simp

def parkAll (e : Elements) (elements : List (String × String)) : Elements :=
  elements.foldl (fun e (action, feature) => e.park action feature) e

theorem isParked_park (e : Elements) (name other action feature : String) :
    (e.park name other).isParked action feature =
      (decide (keyOf name other = keyOf action feature) || e.isParked action feature) := by
  simp only [isParked, park, Table.contains, Table.get?_insert]
  by_cases hkey : keyOf name other = keyOf action feature <;> simp [hkey]

theorem isParked_parkAll (e : Elements) (elements : List (String × String)) :
    (e.parkAll elements).isParked action feature = true ↔
      e.isParked action feature = true ∨
        ∃ x ∈ elements, keyOf x.1 x.2 = keyOf action feature := by
  induction elements generalizing e with
  | nil => simp [parkAll]
  | cons x rest ih =>
    refine (ih (e.park x.1 x.2)).trans ?_
    rw [isParked_park, Bool.or_eq_true, decide_eq_true_iff, List.exists_mem_cons_iff]
    tauto

end Elements

-- ---------------------------------------------------------------------------
-- Pushes
-- ---------------------------------------------------------------------------

namespace Sync

open Elements (wakingName)

variable {s : Sync} {action feature : String}

theorem elements_push (s : Sync) (names : List String) :
    (s.push names).1.elements = s.elements.wake (s.push names).2 := by
  unfold push
  cases s.current with
  | none => rfl
  | some number =>
    simp only [finish]
    split <;> rfl

/-- A push wakes the parked elements whose waking name is one that it activates, and no
others. The waking name of a feature without a colon is its own, and all elements that
were parked are there up to the push. -/
theorem isParked_push (s : Sync) (elements : List (String × String)) (names : List String)
    (action feature : String) :
    let before := { s with elements := s.elements.parkAll elements }
    let after := (before.push names).1
    (after.elements.isParked action feature = true ↔
        before.elements.isParked action feature = true ∧
          wakingName feature ∉ (before.push names).2) ∧
      ((action, feature) ∈ elements → before.elements.isParked action feature = true) ∧
      (':' ∉ feature.toList → wakingName feature = feature) := by
  intro before after
  refine ⟨?_, fun hmem => ?_, Elements.wakingName_of_not_mem⟩
  · have helements : after.elements = _ := before.elements_push names
    rw [helements, Elements.isParked_wake]
    simp
  · exact (s.elements.isParked_parkAll elements).mpr (.inr ⟨_, hmem, rfl⟩)

def colonNamed : Sync :=
  let session := ((Session.ofExpected 2).markCached "a:b" "1" "{}").markCached "b" "1" "{}"
  { Sync.start (.ofHome ["home"]) ⟨"cache"⟩ (.ofRegistry .empty) .empty with
    sessions := [session], current := some 0, phase := .pendingSync }

/-- Two elements wait for the same feature, one of them under an action with colons, and a
third one waits for a feature that the push does not activate. -/
theorem isParked_push_actions :
    let elements := [("open", "b"), ("nav:open", "b"), ("open", "c")]
    let before := { colonNamed with elements := colonNamed.elements.parkAll elements }
    (before.push ["b", "c"]).2 = ["b"] ∧ ("nav:open", "b") ∈ elements ∧ ':' ∉ "b".toList ∧
      (before.push ["b", "c"]).1.elements.isParked "nav:open" "b" = false ∧
      (before.push ["b", "c"]).1.elements.isParked "open" "c" = true := by
  intro elements before
  have hactivated : (before.push ["b", "c"]).2 = ["b"] := by decide +kernel
  obtain ⟨hwoken, -, hname⟩ :=
    isParked_push colonNamed elements ["b", "c"] "nav:open" "b"
  obtain ⟨hkept, hparked, hother⟩ := isParked_push colonNamed elements ["b", "c"] "open" "c"
  refine ⟨hactivated, by decide, by decide, ?_, hkept.mpr ⟨hparked (by decide), ?_⟩⟩
  · refine Bool.eq_false_iff.mpr fun h => (hwoken.mp h).2 ?_
    rw [hname (by decide)]
    exact hactivated ▸ List.mem_singleton.mpr rfl
  · rw [hother (by decide)]
    exact hactivated ▸ by decide

/-- An element of a feature with a colon sleeps on when its feature is activated, and
wakes with another feature. -/
theorem parked_with_colon :
    (¬ ∀ (s : Sync) (elements : List (String × String)) (names : List String)
      (action feature : String), (action, feature) ∈ elements →
        let before := { s with elements := s.elements.parkAll elements }
        feature ∈ (before.push names).2 →
          (before.push names).1.elements.isParked action feature = false) ∧
      ¬ ∀ (s : Sync) (elements : List (String × String)) (names : List String)
        (action feature : String), (action, feature) ∈ elements →
          let before := { s with elements := s.elements.parkAll elements }
          feature ∉ (before.push names).2 →
            (before.push names).1.elements.isParked action feature = true := by
  have hmem : ("open", "a:b") ∈ [("open", "a:b")] := List.mem_singleton.mpr rfl
  refine ⟨fun h => ?own, fun h => ?other⟩
  case own =>
    have hwoken := h colonNamed [("open", "a:b")] ["a:b"] "open" "a:b" hmem (by decide +kernel)
    revert hwoken
    decide +kernel
  case other =>
    have hkept := h colonNamed [("open", "a:b")] ["b"] "open" "a:b" hmem (by decide +kernel)
    revert hkept
    decide +kernel

end Sync

end FeatureFlow
