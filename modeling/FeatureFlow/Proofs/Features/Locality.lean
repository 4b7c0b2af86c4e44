import FeatureFlow.Proofs.Features.Operations

/-!
# Operations that are local to a feature

What an operation on a feature gives and what it leaves of the feature depends on
nothing but the feature itself, the link and how the registry answers
(`Orchestrator.Alike`), and other features cannot tell that it took place
(`Orchestrator.Local`). The registry is shared, but all that building does to it is
to drop types that could not be built before either (`Building.Respects`).
-/

namespace FeatureFlow

open Building (Keeps keeps_compositional run_bind)

-- ---------------------------------------------------------------------------
-- Building from registries that answer alike
-- ---------------------------------------------------------------------------

/-- The same objects, and a registry that answers alike. -/
structure Inventory.Alike (a b : Inventory) : Prop where
  objects : b.objects = a.objects
  registry : a.registry.Agrees b.registry

/-- The program keeps how the registry answers, and from alike inventories it gives
the same answer and the same objects. -/
structure Building.Respects (α : Type) (program : Building α) : Prop where
  registry : Keeps (fun a b => a.registry.Agrees b.registry) α program
  same : ∀ a b, a.Alike b → (program.run b).1 = (program.run a).1 ∧
    (program.run b).2.objects = (program.run a).2.objects

open Building (Respects)

namespace Building.Respects

variable {program : Building α} {a b : Inventory}

theorem alike (h : Respects _ program) (hab : a.Alike b) :
    (program.run a).2.Alike (program.run b).2 :=
  ⟨(h.same a b hab).2, (h.registry a).symm.trans (hab.registry.trans (h.registry b))⟩

theorem compositional : Compositional Respects where
  pure _ := ⟨fun _ => .refl _, fun _ _ h => ⟨rfl, h.objects⟩⟩
  bind {α β x f} hx hf := by
    refine ⟨fun a => (hx.registry a).trans ((hf _).registry _), fun a b hab => ?_⟩
    rw [run_bind, run_bind, (hx.same a b hab).1]
    exact (hf _).same _ _ (hx.alike hab)

end Building.Respects

namespace Scope

variable {s : Scope} {source : Source Building}

theorem respects_buildByType (hsource : ∀ key, Respects _ (source key)) (role : Role)
    (d : NodeDefinition) : Respects _ (s.buildByType source role d) := by
  have hresolved : Respects _ (s.resolved source d) :=
    Respects.compositional.resolve hsource d.properties
  refine ⟨fun a => (hresolved.registry a).trans (Registry.agrees_create _ _), fun a b hab => ?_⟩
  obtain ⟨hproperties, hobjects⟩ := hresolved.same a b hab
  have hcreate := (hresolved.alike hab).registry.create
  rw [run_buildByType, run_buildByType]
  simp only [hproperties, hcreate]
  exact ⟨trivial, hobjects⟩

theorem respects_build (hsource : ∀ key, Respects _ (source key)) (role : Role)
    (d : NodeDefinition) (provider : Option ProviderDefinition) :
    Respects _ (s.build source role d provider) := by
  have hbyType := respects_buildByType (s := s) hsource role d
  constructor
  · intro a
    rw [run_build]
    split
    · exact .refl _
    · split
      · split
        · exact .refl _
        · exact hbyType.registry a
      · exact .refl _
  · intro a b hab
    rw [run_build, run_build]
    simp only [hab.registry.provider]
    split
    · exact ⟨rfl, hab.objects⟩
    · split
      · split
        · exact ⟨rfl, hab.objects⟩
        · exact hbyType.same a b hab
      · exact ⟨rfl, hab.objects⟩

theorem respects_dataObjectFrom (s : Scope) (available : Table DataObjectDefinition)
    (key : String) : Respects _ (s.dataObjectFrom available key) := by
  induction available, key using dataObjectFrom.induct with
  | case1 available key ih =>
    have hbuild (d : DataObjectDefinition) (hd : available.get? key = some d) :=
      respects_build (s := s) (fun other => ih d hd other) .dataObject d.node
        (s.manifest.dataObjectProvider? d)
    constructor
    · intro a
      rw [run_dataObjectFrom]
      split
      · exact .refl _
      · split
        · exact .refl _
        · rename_i d hd
          have hkept := (hbuild d hd).registry a
          dsimp only
          split
          · exact hkept
          · exact hkept
    · intro a b hab
      rw [run_dataObjectFrom, run_dataObjectFrom, hab.objects]
      split
      · exact ⟨rfl, hab.objects⟩
      · split
        · exact ⟨rfl, hab.objects⟩
        · rename_i d hd
          obtain ⟨hnode, hobjects⟩ := (hbuild d hd).same a b hab
          dsimp only
          rw [hnode]
          split
          · exact ⟨rfl, hobjects⟩
          · exact ⟨rfl, by rw [hobjects]⟩

theorem respects_dataObject (s : Scope) (key : String) : Respects _ (s.dataObject key) :=
  s.respects_dataObjectFrom _ key

theorem respects_component (s : Scope) (d : ComponentDefinition) : Respects _ (s.component d) :=
  Respects.compositional.map _ (respects_build s.respects_dataObject .component d.node _)

theorem respects_updating (s : Scope) (key : String) (data : Json.Object) :
    Respects _ (s.updating key data) := by
  refine Respects.compositional.bind (s.respects_dataObject key) fun found => ?_
  cases found with
  | none => exact Respects.compositional.pure false
  | some live =>
    refine ⟨fun a => .refl _, fun a b hab => ⟨rfl, ?_⟩⟩
    exact congrArg (·.insert key (live.object.update (.object data))) hab.objects

end Scope

namespace Cascade.Setting

theorem respects_run (s : Setting) (budget : Nat) (pending : List Step) :
    Respects _ (s.run budget pending) :=
  compositional_run Respects.compositional (fun payload => (s.scope payload).respects_component)
    budget pending

theorem respects_start (s : Setting) (budget : Nat) (step : Step) :
    Respects _ (s.start budget step) :=
  compositional_start Respects.compositional (fun payload => (s.scope payload).respects_component)
    budget step

end Cascade.Setting

namespace Orchestrator

-- ---------------------------------------------------------------------------
-- Orchestrators that look alike to a feature
-- ---------------------------------------------------------------------------

structure Alike (feature : String) (o p : Orchestrator) : Prop where
  found : p.features.get? feature = o.features.get? feature
  registry : o.registry.Agrees p.registry
  link : p.link = o.link
  maxSteps : p.maxSteps = o.maxSteps

variable {o p q : Orchestrator} {g name : String} {f : Feature}

theorem Alike.refl (g : String) (o : Orchestrator) : Alike g o o :=
  ⟨rfl, .refl _, rfl, rfl⟩

theorem Alike.symm (h : Alike g o p) : Alike g p o :=
  ⟨h.found.symm, h.registry.symm, h.link.symm, h.maxSteps.symm⟩

theorem Alike.trans (hop : Alike g o p) (hpq : Alike g p q) : Alike g o q :=
  ⟨hpq.found.trans hop.found, hop.registry.trans hpq.registry, hpq.link.trans hop.link,
    hpq.maxSteps.trans hop.maxSteps⟩

theorem Alike.setting (h : Alike g o p) (f : Feature) (log : Bool) :
    p.setting f log = o.setting f log := by
  simp only [Orchestrator.setting, h.link]

structure AlikeOutcomes (g : String) (x y : Outcome Orchestrator α) : Prop where
  answer : y.answer = x.answer
  sent : y.sent = x.sent
  reports : y.reports = x.reports
  state : Alike g x.state y.state

def seenFrom (feature : String) (outcome : Outcome Orchestrator α) : Outcome (Option Feature) α :=
  outcome.lift (·.features.get? feature)

def sharesOf (feature : String) (outcomes : List (String × Outcome Orchestrator α)) :
    List (Outcome (Option Feature) α) :=
  outcomes.filterMap fun (name, outcome) =>
    if name = feature then some (seenFrom feature outcome) else none

theorem sharesOf_map (feature : String) (k : α → β)
    (outcomes : List (String × Outcome Orchestrator α)) :
    sharesOf feature (outcomes.map fun (name, outcome) => (name, outcome.map k)) =
      (sharesOf feature outcomes).map (·.map k) := by
  induction outcomes with
  | nil => rfl
  | cons head rest ih =>
    obtain ⟨name, outcome⟩ := head
    unfold sharesOf at ih ⊢
    by_cases hname : name = feature
    · simp only [List.map_cons, List.filterMap_cons, if_pos hname, ih]
      rfl
    · simp only [List.map_cons, List.filterMap_cons, if_neg hname, ih]

theorem AlikeOutcomes.seenFrom_eq {x y : Outcome Orchestrator α} (h : AlikeOutcomes g x y) :
    seenFrom g y = seenFrom g x := by
  simp only [seenFrom, Outcome.lift, h.answer, h.sent, h.reports, h.state.found]

-- ---------------------------------------------------------------------------
-- Operations that are local to a feature
-- ---------------------------------------------------------------------------

/-- The operation depends on nothing but what its own feature can tell apart, and the
others cannot tell that it took place. -/
structure Local (name : String) (operation : Orchestrator → Outcome Orchestrator α) : Prop where
  own : ∀ {o p}, Alike name o p → AlikeOutcomes name (operation o) (operation p)
  others : ∀ o {g}, name ≠ g → Alike g o (operation o).state

namespace Local

variable {operation : Orchestrator → Outcome Orchestrator α}

theorem quiet (name : String) (answer : α) : Local name (.quiet · answer) :=
  ⟨fun h => ⟨rfl, rfl, rfl, h⟩, fun o _ _ => .refl _ o⟩

theorem map (h : Local name operation) (k : α → β) : Local name fun o => (operation o).map k where
  own hop := ⟨congrArg k (h.own hop).answer, (h.own hop).sent, (h.own hop).reports,
    (h.own hop).state⟩
  others o _ hne := h.others o hne

theorem whenActive {inactive : α} {active : Feature → Orchestrator → Outcome Orchestrator α}
    (h : ∀ f, Local name (active f)) :
    Local name fun o => match o.features.get? name with
      | none => .quiet o inactive
      | some f => active f o where
  own {o p} hop := by
    rw [hop.found]
    split
    · exact (quiet name inactive).own hop
    · exact (h _).own hop
  others o g hne := by
    split
    · exact .refl g o
    · exact (h _).others o hne

theorem within (f : Feature) (give : α → Outcome Unit β) {action : Orchestrator → Building α}
    (hsame : ∀ {o p}, Alike name o p → action p = action o) (haction : ∀ o, Respects _ (action o)) :
    Local name fun o =>
      let (answer, state) := o.within name f (action o)
      (give answer).lift fun _ => state where
  own {o p} hop := by
    have hinventory : (o.inventory f).Alike (p.inventory f) := ⟨rfl, hop.registry⟩
    have hanswer : (p.within name f (action p)).1 = (o.within name f (action o)).1 :=
      hsame hop ▸ ((haction o).same _ _ hinventory).1
    have hobjects := ((haction o).same _ _ hinventory).2
    have hregistry := ((haction o).alike hinventory).registry
    refine ⟨congrArg (fun a => (give a).answer) hanswer, congrArg (fun a => (give a).sent) hanswer,
      congrArg (fun a => (give a).reports) hanswer, ⟨?_, ?_, hop.link, hop.maxSteps⟩⟩
    · show (p.within name f (action p)).2.features.get? name =
        (o.within name f (action o)).2.features.get? name
      rw [get?_within, get?_within, if_pos rfl, if_pos rfl, hsame hop, hobjects]
    · exact hsame hop ▸ hregistry
  others o g hne :=
    ⟨(get?_within ..).trans (if_neg hne), (haction o).registry (o.inventory f), rfl, rfl⟩

theorem cascade (f : Feature) (trigger : String)
    {action : Orchestrator → Building (α × Cascade.Trace)}
    (hsame : ∀ {o p}, Alike name o p → action p = action o) (haction : ∀ o, Respects _ (action o)) :
    Local name fun o => o.cascade name f trigger (action o) :=
  let reported (a : α × Cascade.Trace) : Outcome Unit (α × Report) :=
    let report : Report :=
      { feature := name, trigger, records := a.2.records, truncated := a.2.truncated }
    { answer := (a.1, report), state := (), sent := a.2.sent, reports := [report] }
  Local.within f reported hsame haction

end Local

-- ---------------------------------------------------------------------------
-- The operations
-- ---------------------------------------------------------------------------

theorem local_performIn (name : String) (f : Feature) (payload : Property) (key : String)
    (log : Bool) : Local name (·.performIn name f payload key log) := by
  refine .cascade f key (fun hop => ?_) fun o => ?_
  · rw [hop.setting, hop.maxSteps]
  · split
    · exact Respects.compositional.pure _
    · exact Cascade.Setting.respects_start ..

theorem local_performStep (name : String) (payload : Property) (key : String) (log : Bool) :
    Local name (·.performStep name payload key log) :=
  .whenActive fun f => local_performIn name f payload key log

theorem local_completePerform (name : String) (outputs : Outputs) (source : String) (log : Bool) :
    Local name (·.completePerform name outputs source log) := by
  refine .whenActive fun f => .map (.cascade f source (fun hop => ?_) fun o => ?_) _
  · rw [hop.setting, hop.maxSteps]
  · exact Respects.compositional.map _ (Cascade.Setting.respects_run ..)

theorem local_triggerIn (name trigger : String) : Local name (·.triggerIn name trigger) := by
  refine .whenActive fun f => ?_
  cases f.manifest.component? trigger with
  | none => exact .quiet name none
  | some d => exact (local_performIn name f d.node.properties trigger false).map _

theorem local_updateDataObject (e : DataUpdatedEvent) : Local e.feature (·.updateDataObject e) := by
  refine .whenActive fun f => ?_
  let action (o : Orchestrator) := ((o.setting f false).scope .null).updating e.key e.data
  have hsame {o p : Orchestrator} (hop : Alike e.feature o p) : action p = action o := by
    simp only [action, hop.setting]
  exact .within f (.quiet ()) hsame fun o => Scope.respects_updating ..

theorem local_register (name : String) (root : Json.Object) :
    Local name fun o => .quiet (o.register (.ofObject name root)) () where
  own {o p} hop := by
    refine ⟨rfl, rfl, rfl, ?_, hop.registry, hop.link, hop.maxSteps⟩
    simp only [Outcome.quiet, register, Table.get?_insert]
    rw [show (Manifest.ofObject name root).feature = name from rfl, hop.found]
  others o g hne :=
    ⟨(Table.get?_insert ..).trans (if_neg hne), .refl _, rfl, rfl⟩

end Orchestrator

end FeatureFlow
