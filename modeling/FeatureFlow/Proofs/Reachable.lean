import FeatureFlow.Proofs.Cascade.Walk

/-!
# Reachable orchestrators

An orchestrator starts with the catalogue of its application and goes through
operations in any order. None of them changes how the registry answers, and each
active manifest is one that was read from a document (`Sound`).
-/

namespace FeatureFlow

open Building (Keeps keeps_compositional)
open Cascade (Setting)

namespace Orchestrator

-- ---------------------------------------------------------------------------
-- Operations
-- ---------------------------------------------------------------------------

inductive Operation where
  | register (feature : String) (root : Json.Object)
  | performStep (feature : String) (payload : Property) (key : String) (log : Bool)
  | completePerform (feature : String) (outputs : Outputs) (source : String) (log : Bool)
  | performTrigger (trigger : String)
  | performComponent (message : ServerMessage)
  | dataUpdated (message : ServerMessage)
  | changeLink (link : Link)

def after (o : Orchestrator) : Operation → Orchestrator
  | .register feature root => o.register (.ofObject feature root)
  | .performStep feature payload key log => (o.performStep feature payload key log).state
  | .completePerform feature outputs source log =>
    (o.completePerform feature outputs source log).state
  | .performTrigger trigger => (o.performTrigger trigger).state
  | .performComponent message => (o.onPerformComponent message).state
  | .dataUpdated message => (o.onDataUpdated message).state
  | .changeLink link => { o with link }

def run (o : Orchestrator) (operations : List Operation) : Orchestrator :=
  operations.foldl after o

/-- The states that operations lead to. -/
inductive Reachable (catalogue : Catalogue) : Orchestrator → Prop
  | start (link : Link) (maxSteps : Nat) :
      Reachable catalogue { ofRegistry (.ofCatalogue catalogue) with link, maxSteps }
  | step (h : Reachable catalogue o) (operation : Operation) :
      Reachable catalogue (o.after operation)

-- ---------------------------------------------------------------------------
-- What operations keep
-- ---------------------------------------------------------------------------

variable {catalogue : Catalogue} {o : Orchestrator} {f : Feature}

structure Sound (catalogue : Catalogue) (o : Orchestrator) : Prop where
  registry : (Registry.ofCatalogue catalogue).Agrees o.registry
  manifest : ∀ name f, o.features.get? name = some f → ∃ root, f.manifest = .ofObject name root

theorem Sound.withFeature (h : Sound catalogue o) (registry : Registry)
    (hagrees : o.registry.Agrees registry) (hmanifest : ∃ root, f.manifest = .ofObject name root) :
    Sound catalogue { o with features := o.features.insert name f, registry } := by
  refine ⟨h.registry.trans hagrees, fun other g hg => ?_⟩
  simp only [Table.get?_insert] at hg
  split at hg
  · rename_i hname
    obtain rfl := Option.some.inj hg
    exact hname ▸ hmanifest
  · exact h.manifest other g hg

theorem Sound.register (h : Sound catalogue o) (feature : String) (root : Json.Object) :
    Sound catalogue (o.register (.ofObject feature root)) := by
  refine h.withFeature o.registry (.refl _) ⟨root, ?_⟩
  cases o.features.get? (Manifest.ofObject feature root).feature <;> rfl

theorem Sound.within (h : Sound catalogue o) (hf : o.features.get? name = some f)
    {action : Building α} (haction : Keeps (fun a b => a.registry.Agrees b.registry) _ action) :
    Sound catalogue (o.within name f action).2 :=
  h.withFeature _ (haction { objects := f.objects, registry := o.registry }) (h.manifest name f hf)

theorem agrees_of_grows {m : Manifest} {action : Building α}
    (h : Keeps (Inventory.Grows m) _ action) :
    Keeps (fun a b => a.registry.Agrees b.registry) _ action :=
  fun a => (h a).agrees

theorem Sound.performIn (h : Sound catalogue o) (hf : o.features.get? name = some f)
    (payload : Property) (key : String) (log : Bool) :
    Sound catalogue (o.performIn name f payload key log).state := by
  refine h.within hf (agrees_of_grows (m := f.manifest) ?_)
  split
  · exact fun _ => .refl
  · exact (o.setting f log).grows_start o.maxSteps _

theorem Sound.performStep (h : Sound catalogue o) (feature : String) (payload : Property)
    (key : String) (log : Bool) :
    Sound catalogue (o.performStep feature payload key log).state := by
  unfold Orchestrator.performStep
  split
  · exact h
  · rename_i hf
    exact h.performIn hf payload key log

theorem Sound.completePerform (h : Sound catalogue o) (feature : String) (outputs : Outputs)
    (source : String) (log : Bool) :
    Sound catalogue (o.completePerform feature outputs source log).state := by
  unfold Orchestrator.completePerform
  split
  · exact h
  · rename_i f hf
    exact h.within hf (agrees_of_grows ((o.setting f log).grows_run o.maxSteps _))

theorem Sound.triggerIn (h : Sound catalogue o) (feature trigger : String) :
    Sound catalogue (o.triggerIn feature trigger).state := by
  unfold Orchestrator.triggerIn
  split
  · exact h
  · rename_i hf
    split
    · exact h
    · exact h.performIn hf _ trigger false

theorem Sound.triggerEach (h : Sound catalogue o) (trigger : String) (features : List String) :
    Sound catalogue (triggerEach trigger features o).state := by
  induction features generalizing o with
  | nil => exact h
  | cons feature rest ih => exact ih (h.triggerIn feature trigger)

theorem Sound.updateDataObject (h : Sound catalogue o) (e : DataUpdatedEvent) :
    Sound catalogue (o.updateDataObject e).state := by
  unfold Orchestrator.updateDataObject
  split
  · exact h
  · rename_i f hf
    dsimp only [Outcome.quiet]
    refine h.within hf ?_
    refine (keeps_compositional (fun _ => .refl _) fun _ _ _ => .trans).bind ?_ fun found => ?_
    · exact agrees_of_grows (Scope.grows_dataObject _ e.key)
    · cases found with
      | none => exact fun _ => .refl _
      | some live => exact fun _ => .refl _

theorem Sound.after (h : Sound catalogue o) (operation : Operation) :
    Sound catalogue (o.after operation) := by
  cases operation with
  | register feature root => exact h.register feature root
  | performStep feature payload key log => exact h.performStep feature payload key log
  | completePerform feature outputs source log =>
    exact h.completePerform feature outputs source log
  | performTrigger trigger => exact h.triggerEach trigger _
  | performComponent message =>
    unfold Orchestrator.after onPerformComponent
    dsimp only
    split
    · exact h
    · exact h.performStep _ _ _ _
  | dataUpdated message =>
    unfold Orchestrator.after onDataUpdated
    dsimp only
    split
    · exact h
    · exact h.updateDataObject _
  | changeLink link => exact ⟨h.registry, h.manifest⟩

theorem Reachable.sound (h : Reachable catalogue o) : Sound catalogue o := by
  induction h with
  | start link maxSteps => exact ⟨.refl _, fun _ _ hf => by simp [ofRegistry] at hf⟩
  | step _ operation ih => exact ih.after operation

end Orchestrator

end FeatureFlow
