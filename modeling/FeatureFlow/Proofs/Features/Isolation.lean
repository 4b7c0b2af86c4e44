import FeatureFlow.Proofs.Features.Locality
import FeatureFlow.Registry.Standard

/-!
# Features do not see each other

All features share a registry that building changes, and a trigger walks through all
of them. Still, a run shows a feature what its own operations would show it alone
(`shownAlong_filter`): the others can be taken out of the run or put into it.
-/

namespace FeatureFlow

namespace Orchestrator

variable {o p : Orchestrator} {g name : String}

-- ---------------------------------------------------------------------------
-- Triggers
-- ---------------------------------------------------------------------------

theorem triggered_of_not_mem {features : List String} (h : g ∉ features) (trigger : String)
    (o : Orchestrator) :
    sharesOf g (triggered trigger features o) = [] ∧
      Alike g o (triggerEach trigger features o).state := by
  induction features generalizing o with
  | nil => exact ⟨rfl, .refl g o⟩
  | cons name rest ih =>
    obtain ⟨hne, hrest⟩ := not_or.mp (mt List.mem_cons.mpr h)
    obtain ⟨hshares, halike⟩ := ih hrest (o.triggerIn name trigger).state
    refine ⟨?_, ((local_triggerIn name trigger).others o (Ne.symm hne)).trans halike⟩
    simpa [sharesOf, triggered, Ne.symm hne] using hshares

/-- A feature sees of a trigger what it would see if it were triggered alone. -/
theorem triggered_of_mem {features : List String} (hnodup : features.Nodup) (h : g ∈ features)
    (trigger : String) (o : Orchestrator) :
    sharesOf g (triggered trigger features o) = [seenFrom g (o.triggerIn g trigger)] ∧
      Alike g (o.triggerIn g trigger).state (triggerEach trigger features o).state := by
  induction features generalizing o with
  | nil => cases h
  | cons name rest ih =>
    obtain ⟨hfresh, hrest⟩ := List.nodup_cons.mp hnodup
    by_cases hname : name = g
    · subst hname
      obtain ⟨hshares, halike⟩ :=
        triggered_of_not_mem hfresh trigger (o.triggerIn name trigger).state
      refine ⟨?_, halike⟩
      simpa [sharesOf, triggered] using hshares
    · have hmem : g ∈ rest := (List.mem_cons.mp h).resolve_left (Ne.symm hname)
      obtain ⟨hshares, halike⟩ := ih hrest hmem (o.triggerIn name trigger).state
      have hfirst := (local_triggerIn g trigger).own ((local_triggerIn name trigger).others o hname)
      refine ⟨?_, hfirst.state.trans halike⟩
      rw [← hfirst.seenFrom_eq]
      simpa [sharesOf, triggered, hname] using hshares

theorem sharesOf_performTrigger (h : Alike g o p) (trigger : String) :
    sharesOf g (triggered trigger p.activeFeatures p) =
        sharesOf g (triggered trigger o.activeFeatures o) ∧
      Alike g (o.performTrigger trigger).state (p.performTrigger trigger).state := by
  have hactive : g ∈ p.activeFeatures ↔ g ∈ o.activeFeatures := by
    simp only [activeFeatures, Table.mem_keys_iff, h.found]
  by_cases hmem : g ∈ o.activeFeatures
  · obtain ⟨hfirst, hafterFirst⟩ := triggered_of_mem o.features.nodup_keys hmem trigger o
    obtain ⟨hsecond, hafterSecond⟩ :=
      triggered_of_mem p.features.nodup_keys (hactive.mpr hmem) trigger p
    have hsame := (local_triggerIn g trigger).own h
    refine ⟨?_, (hafterFirst.symm.trans hsame.state).trans hafterSecond⟩
    exact hsecond.trans ((congrArg ([·]) hsame.seenFrom_eq).trans hfirst.symm)
  · obtain ⟨hfirst, hafterFirst⟩ := triggered_of_not_mem hmem trigger o
    obtain ⟨hsecond, hafterSecond⟩ := triggered_of_not_mem (mt hactive.mp hmem) trigger p
    exact ⟨hsecond.trans hfirst.symm, (hafterFirst.symm.trans h).trans hafterSecond⟩

-- ---------------------------------------------------------------------------
-- Runs
-- ---------------------------------------------------------------------------

/-- What an operation shows of a feature: its answer, messages and reports for it, and
the feature with its data objects as they are then. -/
def shown (o : Orchestrator) (feature : String) (operation : Operation) :
    List (Outcome (Option Feature) Answer) :=
  sharesOf feature (o.outcomes operation)

def shownAlong (feature : String) : List Operation → Orchestrator →
    List (Outcome (Option Feature) Answer)
  | [], _ => []
  | operation :: rest, o =>
    o.shown feature operation ++ shownAlong feature rest (o.after operation)

theorem Local.shares {operation : Orchestrator → Outcome Orchestrator α}
    (h : Local name operation) (hop : Alike g o p) :
    sharesOf g [(name, operation p)] = sharesOf g [(name, operation o)] ∧
      Alike g (operation o).state (operation p).state := by
  by_cases hname : name = g
  · subst hname
    have hsame := h.own hop
    exact ⟨by simp [sharesOf, hsame.seenFrom_eq], hsame.state⟩
  · refine ⟨by simp [sharesOf, hname], ?_⟩
    exact ((h.others o hname).symm.trans hop).trans (h.others p hname)

theorem Alike.after (h : Alike g o p) (operation : Operation) :
    p.shown g operation = o.shown g operation ∧
      Alike g (o.after operation) (p.after operation) := by
  cases operation with
  | register feature root => exact ((local_register feature root).map fun _ => Answer.done).shares h
  | performStep feature payload key log =>
    exact ((local_performStep feature payload key log).map _).shares h
  | completePerform feature outputs source log =>
    exact ((local_completePerform feature outputs source log).map _).shares h
  | performTrigger trigger =>
    obtain ⟨hshares, hafter⟩ := sharesOf_performTrigger h trigger
    refine ⟨?_, hafter⟩
    simp only [shown, outcomes, sharesOf_map, hshares]
  | performComponent m =>
    cases hparse : m.parse PerformComponentEvent.decode with
    | error e =>
      simp only [shown, outcomes, Orchestrator.after, onPerformComponent, hparse]
      exact ⟨trivial, h⟩
    | ok e =>
      simp only [shown, outcomes, Orchestrator.after, onPerformComponent, hparse]
      exact (((local_performStep e.feature _ _ _).map _).map _).shares h
  | dataUpdated m =>
    cases hparse : m.parse DataUpdatedEvent.decode with
    | error e =>
      simp only [shown, outcomes, Orchestrator.after, onDataUpdated, hparse]
      exact ⟨trivial, h⟩
    | ok e =>
      simp only [shown, outcomes, Orchestrator.after, onDataUpdated, hparse]
      exact ((local_updateDataObject e).map _).shares h
  | changeLink link => exact ⟨rfl, h.found, h.registry, rfl, h.maxSteps⟩

theorem Local.shares_of_ne {operation : Orchestrator → Outcome Orchestrator α}
    (h : Local name operation) (hne : name ≠ g) (o : Orchestrator) :
    sharesOf g [(name, operation o)] = [] ∧ Alike g o (operation o).state :=
  ⟨by simp [sharesOf, hne], h.others o hne⟩

theorem alike_after {operation : Operation} (h : operation.concerns g = false) (o : Orchestrator) :
    o.shown g operation = [] ∧ Alike g o (o.after operation) := by
  cases operation with
  | register feature root =>
    exact ((local_register feature root).map fun _ => Answer.done).shares_of_ne
      (beq_eq_false_iff_ne.mp h) o
  | performStep feature payload key log =>
    exact ((local_performStep feature payload key log).map _).shares_of_ne
      (beq_eq_false_iff_ne.mp h) o
  | completePerform feature outputs source log =>
    exact ((local_completePerform feature outputs source log).map _).shares_of_ne
      (beq_eq_false_iff_ne.mp h) o
  | performTrigger trigger => cases h
  | performComponent m =>
    cases hparse : m.parse PerformComponentEvent.decode with
    | error e =>
      simp only [shown, outcomes, Orchestrator.after, onPerformComponent, hparse]
      exact ⟨rfl, .refl g o⟩
    | ok e =>
      simp only [Operation.concerns, hparse, beq_eq_false_iff_ne] at h
      simp only [shown, outcomes, Orchestrator.after, onPerformComponent, hparse]
      exact (((local_performStep e.feature _ _ _).map _).map _).shares_of_ne h o
  | dataUpdated m =>
    cases hparse : m.parse DataUpdatedEvent.decode with
    | error e =>
      simp only [shown, outcomes, Orchestrator.after, onDataUpdated, hparse]
      exact ⟨rfl, .refl g o⟩
    | ok e =>
      simp only [Operation.concerns, hparse, beq_eq_false_iff_ne] at h
      simp only [shown, outcomes, Orchestrator.after, onDataUpdated, hparse]
      exact ((local_updateDataObject e).map _).shares_of_ne h o
  | changeLink link => cases h

/-- To a feature, a run is what its own operations make of it. -/
theorem shownAlong_filter (h : Alike g o p) (operations : List Operation) :
    shownAlong g operations o = shownAlong g (operations.filter (·.concerns g)) p ∧
      Alike g (o.run operations) (p.run (operations.filter (·.concerns g))) := by
  induction operations generalizing o p with
  | nil => exact ⟨rfl, h⟩
  | cons operation rest ih =>
    cases hconcerns : operation.concerns g with
    | true =>
      obtain ⟨hshown, hafter⟩ := h.after operation
      obtain ⟨hrest, halike⟩ := ih hafter
      simp only [List.filter_cons, hconcerns, if_true, shownAlong, hshown, hrest]
      exact ⟨trivial, halike⟩
    | false =>
      obtain ⟨hnothing, hafter⟩ := alike_after hconcerns o
      obtain ⟨hrest, halike⟩ := ih (hafter.symm.trans h)
      simp only [List.filter_cons, hconcerns, Bool.false_eq_true, if_false, shownAlong, hnothing,
        List.nil_append, hrest]
      exact ⟨trivial, halike⟩

/-- Two runs with the same operations for a feature show the same of it, whatever they
do for other features, and leave it with the same data objects. -/
theorem shownAlong_eq_of_filter_eq (o : Orchestrator) (feature : String) {xs ys : List Operation}
    (h : xs.filter (·.concerns feature) = ys.filter (·.concerns feature)) :
    shownAlong feature xs o = shownAlong feature ys o ∧
      (∀ key, (o.run xs).dataObject? feature key = (o.run ys).dataObject? feature key) ∧
      ∀ r : Reference, r.feature = feature → (o.run xs).resolve? r = (o.run ys).resolve? r := by
  obtain ⟨hshown, hafter⟩ := shownAlong_filter (.refl feature o) xs
  obtain ⟨hshown', hafter'⟩ := shownAlong_filter (.refl feature o) ys
  rw [h] at hshown hafter
  have hfound := (hafter.trans hafter'.symm).found
  refine ⟨hshown.trans hshown'.symm, fun key => ?_, fun r hr => ?_⟩
  · simp only [dataObject?, hfound]
  · simp only [resolve?, hr, hfound]

/-- A step that reads a data object and leads to a type that is only declared. -/
def reading : Json.Object :=
  let node (key typeName : String) (more : Json.Object) : Json :=
    .object ([("keyName", .text key), ("typeName", .text typeName)] ++ more)
  [("componentConfigs", .array
      [node "start" "RelayComponent"
        [("props", .object [("output", .text "\x7bbox.text\x7d")]),
          ("outputs", .object [("next", .array [.text "odd", .text "end"])])],
        node "odd" "AbstractNode" [],
        node "end" "ScriptComponent" [("props", .object [("about", .text "\x7bbox\x7d")])]]),
    ("dataObjectConfigs", .array [node "box" "ValueDataObject" []]),
    ("providerConfigs", .array
      [node "components" "ComponentProvider" [], node "data" "ServerDataProvider" []])]

def updateOf (feature text : String) : ServerMessage :=
  { name := ServerMessage.dataUpdated
    properties := [("data", .object [("text", .text text)]), ("featurename", .text feature),
      ("keyname", .text "box")] }

def amidst : List Operation :=
  [.register "busy" reading, .register "calm" reading, .performStep "busy" .null "start" false,
    .dataUpdated (updateOf "busy" "b"), .dataUpdated (updateOf "calm" "c"),
    .register "busy" reading, .performTrigger "start", .dataUpdated (updateOf "busy" "d"),
    .performStep "calm" .null "start" true]

def alone : List Operation :=
  [.register "calm" reading, .dataUpdated (updateOf "calm" "c"), .performTrigger "start",
    .performStep "calm" .null "start" true]

theorem shownAlong_eq_amidst :
    let o := { ofRegistry (.ofCatalogue .trial) with link := .connected }
    amidst.filter (·.concerns "calm") = alone.filter (·.concerns "calm") ∧
      (o.run (amidst.take 3)).registry.contains Scripted.abstractType = false ∧
      (o.run (alone.take 2)).registry.contains Scripted.abstractType = true ∧
      ((o.run amidst).dataObject? "calm" "box").isSome = true ∧
      shownAlong "calm" amidst o = shownAlong "calm" alone o ∧
      (∀ key, (o.run amidst).dataObject? "calm" key = (o.run alone).dataObject? "calm" key) ∧
      ∀ r : Reference, r.feature = "calm" → (o.run amidst).resolve? r = (o.run alone).resolve? r :=
  ⟨rfl, by decide +kernel, by decide +kernel, by decide +kernel,
    shownAlong_eq_of_filter_eq _ "calm" rfl⟩

end Orchestrator

end FeatureFlow
