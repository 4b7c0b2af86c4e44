import FeatureFlow.Proofs.Reachable

/-!
# What operations give for a feature

An operation is addressed to one feature, to all of them or to none
(`Operation.concerns`). `outcomes` sorts what it gives by the features it is for;
for a trigger these are the outcomes in one feature after the other, and together
they are what the trigger gives (`performTrigger_eq_triggered`).
-/

namespace FeatureFlow

/-- The building that an update asks for: the data object is looked up, and changed
where there is one. -/
def Scope.updating (s : Scope) (key : String) (data : Json.Object) : Building Bool := do
  match ← s.dataObject key with
  | none => return false
  | some live =>
    modify fun inventory => { inventory with
      objects := inventory.objects.insert key (live.object.update (.object data)) }
    return true

namespace Orchestrator

variable {o : Orchestrator} {f : Feature}

def inventory (o : Orchestrator) (f : Feature) : Inventory :=
  { objects := f.objects, registry := o.registry }

theorem get?_within (o : Orchestrator) (name : String) (f : Feature) (action : Building α)
    (other : String) :
    (o.within name f action).2.features.get? other =
      if name = other then some { f with objects := (action.run (o.inventory f)).2.objects }
      else o.features.get? other :=
  Table.get?_insert ..

theorem updateDataObject_of_get? {e : DataUpdatedEvent} (h : o.features.get? e.feature = some f) :
    o.updateDataObject e =
      let (found, state) := o.within e.feature f
        (((o.setting f false).scope .null).updating e.key e.data)
      .quiet state found := by
  simp only [updateDataObject, h]
  rfl

-- ---------------------------------------------------------------------------
-- Operations by feature
-- ---------------------------------------------------------------------------

/-- Whether an operation is addressed to a feature. A trigger and a change of the
link are addressed to all, and a message that cannot be read to none. -/
def Operation.concerns (feature : String) : Operation → Bool
  | .register name _ | .performStep name _ _ _ | .completePerform name _ _ _ => name == feature
  | .performTrigger _ | .changeLink _ => true
  | .performComponent m =>
    match m.parse PerformComponentEvent.decode with
    | .ok e => e.feature == feature
    | .error _ => false
  | .dataUpdated m =>
    match m.parse DataUpdatedEvent.decode with
    | .ok e => e.feature == feature
    | .error _ => false

inductive Answer where
  | done
  | performed (node : Option Component) (report : Report)
  | completed (report : Report)
  | node (node : Option Component)
  | updated (found : Bool)

def triggered (trigger : String) :
    List String → Orchestrator → List (String × Outcome Orchestrator (Option Component))
  | [], _ => []
  | feature :: rest, o =>
    let outcome := o.triggerIn feature trigger
    (feature, outcome) :: triggered trigger rest outcome.state

def outcomes (o : Orchestrator) : Operation → List (String × Outcome Orchestrator Answer)
  | .register feature root => [(feature, .quiet (o.register (.ofObject feature root)) .done)]
  | .performStep feature payload key log =>
    [(feature, (o.performStep feature payload key log).map fun a => .performed a.1 a.2)]
  | .completePerform feature outputs source log =>
    [(feature, (o.completePerform feature outputs source log).map .completed)]
  | .performTrigger trigger =>
    (triggered trigger o.activeFeatures o).map fun (name, outcome) => (name, outcome.map .node)
  | .performComponent m =>
    match m.parse PerformComponentEvent.decode with
    | .ok e => [(e.feature, (o.onPerformComponent m).map .node)]
    | .error _ => []
  | .dataUpdated m =>
    match m.parse DataUpdatedEvent.decode with
    | .ok e => [(e.feature, (o.onDataUpdated m).map .updated)]
    | .error _ => []
  | .changeLink _ => []

theorem triggerEach_eq_triggered (trigger : String) (features : List String) (o : Orchestrator) :
    triggerEach trigger features o =
      let each := (triggered trigger features o).map (·.2)
      { answer := each.flatMap (·.answer.toList)
        state := (each.getLast?.map (·.state)).getD o
        sent := each.flatMap (·.sent)
        reports := each.flatMap (·.reports) } := by
  induction features generalizing o with
  | nil => rfl
  | cons feature rest ih =>
    simp only [triggerEach, triggered, ih, Outcome.andThen, Outcome.map, List.map_cons,
      List.flatMap_cons, List.getLast?_cons, Option.map_some, Option.getD_some]
    cases ((triggered trigger rest (o.triggerIn feature trigger).state).map (·.2)).getLast? <;> rfl

theorem performTrigger_eq_triggered (o : Orchestrator) (trigger : String) :
    o.performTrigger trigger =
      let each := (triggered trigger o.activeFeatures o).map (·.2)
      { answer := each.flatMap (·.answer.toList)
        state := (each.getLast?.map (·.state)).getD o
        sent := each.flatMap (·.sent)
        reports := each.flatMap (·.reports) } :=
  triggerEach_eq_triggered trigger o.activeFeatures o

end Orchestrator

end FeatureFlow
