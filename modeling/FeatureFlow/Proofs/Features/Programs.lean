import FeatureFlow.Proofs.Features.Isolation

/-!
# What an operation runs on a feature

Apart from registrations and updates, an operation does one thing to an active feature
(`after_of_concerns`): it runs a program on its data objects that is put together from the
building of components (`runsOn_after`). What all such programs keep is kept by the operation.
-/

namespace FeatureFlow

def Feature.scope (f : Feature) (payload : Property) : Scope :=
  { manifest := f.manifest, registration := f.registration, payload }

namespace Orchestrator

def Operation.registers (feature : String) : Operation → Bool
  | .register name _ => name == feature
  | _ => false

def Operation.changes (feature key : String) : Operation → List Json.Object
  | .dataUpdated m =>
    match m.parse DataUpdatedEvent.decode with
    | .ok e => if e.feature = feature ∧ e.key = key then [e.data] else []
    | .error _ => []
  | _ => []

variable {o p q : Orchestrator} {g key : String} {f : Feature} {operation : Operation}
  {P : (α : Type) → Building α → Prop}

theorem exists_changes (h : ¬∀ key, operation.changes g key = []) :
    ∃ m e, operation = .dataUpdated m ∧ m.parse DataUpdatedEvent.decode = .ok e ∧
      e.feature = g := by
  obtain ⟨key, hkey⟩ := Classical.not_forall.mp h
  cases operation with
  | dataUpdated m =>
    cases hparse : m.parse DataUpdatedEvent.decode with
    | error e => simp [Operation.changes, hparse] at hkey
    | ok e =>
      have haddressed : e.feature = g ∧ e.key = key := by
        simpa [Operation.changes, hparse] using hkey
      exact ⟨m, e, rfl, hparse, haddressed.1⟩
  | _ => exact absurd rfl hkey

/-- All that an operation addressed to a feature can do, registrations apart. -/
theorem after_of_concerns (hconcerns : operation.concerns g = true)
    (hregisters : operation.registers g = false) (o : Orchestrator) :
    (∃ payload key log, o.after operation = (o.performStep g payload key log).state) ∨
      (∃ outputs source log, o.after operation = (o.completePerform g outputs source log).state) ∨
      (∃ trigger, o.after operation = (o.performTrigger trigger).state) ∨
      (∃ e, e.feature = g ∧ operation.changes g e.key = [e.data] ∧
        o.after operation = (o.updateDataObject e).state) ∨
      ∃ link, o.after operation = { o with link } := by
  cases operation with
  | register feature root => exact absurd (hregisters.symm.trans hconcerns) Bool.false_ne_true
  | performStep feature payload key log =>
    obtain rfl := beq_iff_eq.mp hconcerns
    exact .inl ⟨payload, key, log, rfl⟩
  | completePerform feature outputs source log =>
    obtain rfl := beq_iff_eq.mp hconcerns
    exact .inr (.inl ⟨outputs, source, log, rfl⟩)
  | performTrigger trigger => exact .inr (.inr (.inl ⟨trigger, rfl⟩))
  | performComponent m =>
    cases hparse : m.parse PerformComponentEvent.decode with
    | error e => simp only [Operation.concerns, hparse, Bool.false_eq_true] at hconcerns
    | ok e =>
      simp only [Operation.concerns, hparse, beq_iff_eq] at hconcerns
      obtain rfl := hconcerns
      refine .inl ⟨e.payloadValue, e.component, e.sampleFlow, ?_⟩
      simp only [Orchestrator.after, onPerformComponent, hparse]
      rfl
  | dataUpdated m =>
    cases hparse : m.parse DataUpdatedEvent.decode with
    | error e => simp only [Operation.concerns, hparse, Bool.false_eq_true] at hconcerns
    | ok e =>
      simp only [Operation.concerns, hparse, beq_iff_eq] at hconcerns
      refine .inr (.inr (.inr (.inl ⟨e, hconcerns, ?_, ?_⟩)))
      · simp only [Operation.changes, hparse, hconcerns, and_self, if_true]
      · simp only [Orchestrator.after, onDataUpdated, hparse]
  | changeLink link => exact .inr (.inr (.inr (.inr ⟨link, rfl⟩)))

/-- The feature is what a program of the kind leaves of it, and the registry answers as the
program leaves it. -/
def RunsOn (P : (α : Type) → Building α → Prop) (g : String) (f : Feature)
    (o p : Orchestrator) : Prop :=
  ∃ program : Building Unit, P Unit program ∧
    p.features.get? g = some { f with objects := (program.run (o.inventory f)).2.objects } ∧
    (program.run (o.inventory f)).2.registry.Agrees p.registry

theorem RunsOn.of_alike (h : RunsOn P g f o p) (halike : Alike g p q) : RunsOn P g f o q := by
  obtain ⟨program, hprogram, hfound, hagrees⟩ := h
  exact ⟨program, hprogram, halike.found.trans hfound, hagrees.trans halike.registry⟩

section

variable (hP : Compositional P)
include hP

theorem runsOn_within {action : Building α} (haction : P α action) :
    RunsOn P g f o (o.within g f action).2 :=
  ⟨(fun _ => ()) <$> action, hP.map _ haction, (get?_within ..).trans (if_pos rfl), .refl _⟩

variable (hf : o.features.get? g = some f)
include hf

theorem runsOn_same (hfound : p.features.get? g = o.features.get? g)
    (hagrees : o.registry.Agrees p.registry) : RunsOn P g f o p :=
  ⟨pure (), hP.pure (), hfound.trans hf, hagrees⟩

variable (hcomponent : ∀ payload d, P _ ((f.scope payload).component d))
include hcomponent

omit hf in
theorem runsOn_performIn (payload : Property) (key : String) (log : Bool) :
    RunsOn P g f o (o.performIn g f payload key log).state := by
  have hsetting (other : Property) (d : ComponentDefinition) :
      P _ (((o.setting f log).scope other).component d) := hcomponent other d
  refine runsOn_within hP ?_
  split
  · exact hP.pure _
  · exact Cascade.Setting.compositional_start hP hsetting o.maxSteps _

theorem runsOn_performStep (payload : Property) (key : String) (log : Bool) :
    RunsOn P g f o (o.performStep g payload key log).state := by
  simp only [performStep, hf]
  exact runsOn_performIn hP hcomponent payload key log

theorem runsOn_completePerform (outputs : Outputs) (source : String) (log : Bool) :
    RunsOn P g f o (o.completePerform g outputs source log).state := by
  have hsetting (payload : Property) (d : ComponentDefinition) :
      P _ (((o.setting f log).scope payload).component d) := hcomponent payload d
  simp only [completePerform, hf]
  have hrun := Cascade.Setting.compositional_run hP hsetting o.maxSteps
    ((o.setting f log).follow source outputs)
  exact runsOn_within hP hrun

theorem runsOn_triggerIn (trigger : String) :
    RunsOn P g f o (o.triggerIn g trigger).state := by
  simp only [triggerIn, hf]
  split
  · exact runsOn_same hP hf rfl (.refl _)
  · exact runsOn_performIn hP hcomponent _ trigger false

theorem runsOn_performTrigger (trigger : String) :
    RunsOn P g f o (o.performTrigger trigger).state := by
  have hmem : g ∈ o.activeFeatures := Table.mem_keys_iff.mpr (Option.isSome_of_eq_some hf)
  obtain ⟨-, halike⟩ := triggered_of_mem o.features.nodup_keys hmem trigger o
  exact (runsOn_triggerIn hP hf hcomponent trigger).of_alike halike

/-- An operation that neither registers the feature nor has data for its objects runs a
program of any kind that the building of components is of. -/
theorem runsOn_after (hregisters : operation.registers g = false)
    (hchanges : ∀ key, operation.changes g key = []) :
    RunsOn P g f o (o.after operation) := by
  cases hconcerns : operation.concerns g with
  | false =>
    have halike := (alike_after hconcerns o).2
    exact runsOn_same hP hf halike.found halike.registry
  | true =>
    obtain ⟨payload, key, log, hafter⟩ | ⟨outputs, source, log, hafter⟩ | ⟨trigger, hafter⟩ |
      ⟨e, -, hchange, -⟩ | ⟨link, hafter⟩ := after_of_concerns hconcerns hregisters o
    · exact hafter ▸ runsOn_performStep hP hf hcomponent payload key log
    · exact hafter ▸ runsOn_completePerform hP hf hcomponent outputs source log
    · exact hafter ▸ runsOn_performTrigger hP hf hcomponent trigger
    · cases (hchanges e.key).symm.trans hchange
    · exact hafter ▸ runsOn_same hP hf rfl (.refl _)

end

theorem inactive_after (h : operation.registers g = false) (hnone : o.features.get? g = none) :
    (o.after operation).features.get? g = none := by
  cases hconcerns : operation.concerns g with
  | false => exact (alike_after hconcerns o).2.found.trans hnone
  | true =>
    obtain ⟨payload, key, log, hafter⟩ | ⟨outputs, source, log, hafter⟩ | ⟨trigger, hafter⟩ |
      ⟨e, rfl, -, hafter⟩ | ⟨link, hafter⟩ := after_of_concerns hconcerns h o
    · simp only [hafter, performStep, hnone, Outcome.quiet]
    · simp only [hafter, completePerform, hnone, Outcome.quiet]
    · have hmem : g ∉ o.activeFeatures := by
        rw [activeFeatures, Table.mem_keys_iff, hnone]
        exact Bool.false_ne_true
      rw [hafter]
      exact (triggered_of_not_mem hmem trigger o).2.found.trans hnone
    · simp only [hafter, updateDataObject, hnone, Outcome.quiet]
    · rw [hafter]
      exact hnone

end Orchestrator

end FeatureFlow
