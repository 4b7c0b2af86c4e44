import FeatureFlow.Outcome

/-!
# The orchestrator

Holds the active features and runs their cascades. Every operation gives the
orchestrator after it, the messages it sent and the reports of the cascades it
ran; an operation on a feature that is not active changes and reports nothing.
-/

namespace FeatureFlow

structure Orchestrator where
  features : Table Feature
  registry : Registry
  link : Link
  /-- The budget of each cascade. -/
  maxSteps : Nat

namespace Orchestrator

def defaultMaxSteps : Nat := 1024

-- ---------------------------------------------------------------------------
-- Features
-- ---------------------------------------------------------------------------

def ofRegistry (registry : Registry) : Orchestrator :=
  { features := ∅, registry, link := .absent, maxSteps := defaultMaxSteps }

def register (o : Orchestrator) (manifest : Manifest) : Orchestrator :=
  let feature := match o.features.get? manifest.feature with
    | some earlier => earlier.renew manifest
    | none => .ofManifest manifest
  { o with features := o.features.insert manifest.feature feature }

def activeFeatures (o : Orchestrator) : List String :=
  o.features.keys

def isActive (o : Orchestrator) (feature : String) : Bool :=
  o.features.contains feature

def manifest? (o : Orchestrator) (feature : String) : Option Manifest :=
  (o.features.get? feature).map (·.manifest)

def dataObject? (o : Orchestrator) (feature key : String) : Option LiveObject :=
  (o.features.get? feature).bind fun f =>
    (f.objects.get? key).map fun object => { reference := f.reference key, object }

def resolve? (o : Orchestrator) (r : Reference) : Option DataObject :=
  (o.features.get? r.feature).bind fun f => (f.objectsAt r.registration).get? r.key

-- ---------------------------------------------------------------------------
-- Cascades
-- ---------------------------------------------------------------------------

def within (o : Orchestrator) (name : String) (f : Feature) (action : Building α) :
    α × Orchestrator :=
  let (answer, inventory) := action.run { objects := f.objects, registry := o.registry }
  (answer, { o with
    features := o.features.insert name { f with objects := inventory.objects }
    registry := inventory.registry })

def setting (o : Orchestrator) (f : Feature) (log : Bool) : Cascade.Setting :=
  { manifest := f.manifest, registration := f.registration, link := o.link, log }

def cascade (o : Orchestrator) (name : String) (f : Feature) (trigger : String)
    (action : Building (α × Cascade.Trace)) : Outcome Orchestrator (α × Report) :=
  let ((answer, trace), state) := o.within name f action
  let report : Report :=
    { feature := name, trigger, records := trace.records, truncated := trace.truncated }
  { answer := (answer, report), state, sent := trace.sent, reports := [report] }

def performIn (o : Orchestrator) (name : String) (f : Feature) (payload : Property) (key : String)
    (log : Bool) : Outcome Orchestrator (Option Component × Report) :=
  o.cascade name f key <|
    match (o.setting f log).step? payload key with
    | none => return (none, .nothing)
    | some step => (o.setting f log).start o.maxSteps step

/-- Runs a component and everything routed from it. -/
def performStep (o : Orchestrator) (feature : String) (payload : Property) (key : String)
    (log : Bool) : Outcome Orchestrator (Option Component × Report) :=
  match o.features.get? feature with
  | none => .quiet o (none, .empty feature key)
  | some f => o.performIn feature f payload key log

/-- Follows outputs of a component that has been performed elsewhere. -/
def completePerform (o : Orchestrator) (feature : String) (outputs : Outputs) (source : String)
    (log : Bool) : Outcome Orchestrator Report :=
  match o.features.get? feature with
  | none => .quiet o (.empty feature source)
  | some f =>
    let setting := o.setting f log
    (o.cascade feature f source <|
      (((), ·) : Cascade.Trace → Unit × Cascade.Trace) <$>
        setting.run o.maxSteps (setting.follow source outputs)).map (·.2)

/-- Runs the component that the trigger names in one feature, with its declared
properties as the payload. -/
def triggerIn (o : Orchestrator) (feature trigger : String) :
    Outcome Orchestrator (Option Component) :=
  match o.features.get? feature with
  | none => .quiet o none
  | some f =>
    match f.manifest.component? trigger with
    | none => .quiet o none
    | some d => (o.performIn feature f d.node.properties trigger false).map (·.1)

def triggerEach (trigger : String) :
    List String → Orchestrator → Outcome Orchestrator (List Component)
  | [], o => .quiet o []
  | feature :: rest, o =>
    (o.triggerIn feature trigger).andThen fun node state =>
      (triggerEach trigger rest state).map (node.toList ++ ·)

/-- Runs the component named by the trigger in every active feature, in the
order of their names. -/
def performTrigger (o : Orchestrator) (trigger : String) : Outcome Orchestrator (List Component) :=
  triggerEach trigger o.activeFeatures o

-- ---------------------------------------------------------------------------
-- Messages of the server
-- ---------------------------------------------------------------------------

def onPerformComponent (o : Orchestrator) (m : ServerMessage) :
    Outcome Orchestrator (Option Component) :=
  match m.parse PerformComponentEvent.decode with
  | .error _ => .quiet o none
  | .ok e => (o.performStep e.feature e.payloadValue e.component e.sampleFlow).map (·.1)

/-- Updates a data object, which is built first where it is not there yet. The
answer says whether there was one to update. -/
def updateDataObject (o : Orchestrator) (e : DataUpdatedEvent) : Outcome Orchestrator Bool :=
  match o.features.get? e.feature with
  | none => .quiet o false
  | some f =>
    let scope := (o.setting f false).scope .null
    let (found, state) := o.within e.feature f do
      match ← scope.dataObject e.key with
      | none => return false
      | some live =>
        modify fun inventory => { inventory with
          objects := inventory.objects.insert e.key (live.object.update (.object e.data)) }
        return true
    .quiet state found

def onDataUpdated (o : Orchestrator) (m : ServerMessage) : Outcome Orchestrator Bool :=
  match m.parse DataUpdatedEvent.decode with
  | .error _ => .quiet o false
  | .ok e => o.updateDataObject e

end Orchestrator

end FeatureFlow
