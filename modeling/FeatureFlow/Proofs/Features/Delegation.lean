import FeatureFlow.Proofs.Cascade.Tree
import FeatureFlow.Proofs.Manifest.Reading
import FeatureFlow.Proofs.Tokens

/-!
# Delegates and their features

A delegate asks the server for the component whose key it has, in the feature that its
properties name. They are told the name of their own feature, but are resolved after
that (`asks_of_perform`). So a delegate speaks for its feature unless the name of the
feature is a text that a payload or a data object may fill in.
-/

namespace FeatureFlow

open Expression (Fillable Reads)

-- ---------------------------------------------------------------------------
-- Catalogues with the delegate
-- ---------------------------------------------------------------------------

/-- Under the type of delegates nothing but the delegate is built, also by providers that
build on their own. -/
structure Catalogue.Delegates (c : Catalogue) : Prop where
  nodes : ∀ factory, (BuiltIn.delegateType, some factory) ∈ c.nodes →
    ∀ seed node, factory seed = some node → node = .component (BuiltIn.delegate seed)
  providers : ∀ p ∈ c.providers, ∀ factory, p.direct = some factory →
    ∀ seed component, seed.typeName = BuiltIn.delegateType →
      factory seed = some (.component component) → component = BuiltIn.delegate seed

theorem Catalogue.delegates_trial : trial.Delegates where
  nodes factory h seed node hnode := by
    change _ ∈ builtIn.nodes ++ scripted.nodes ++ [] at h
    simp only [builtIn, scripted, List.append_nil, List.cons_append, List.nil_append,
      List.mem_cons, Prod.mk.injEq, Option.some.injEq, reduceCtorEq, and_false,
      List.not_mem_nil, or_false] at h
    obtain ⟨-, rfl⟩ | ⟨hname, -⟩ | ⟨hname, -⟩ | ⟨hname, -⟩ | ⟨hname, -⟩ := h
    · exact (Option.some.inj hnode).symm
    all_goals exact absurd hname (by decide)
  providers p hp factory hdirect seed component _ hnode := by
    change p ∈ [.components, .serverData, lyingProvider] at hp
    simp only [List.mem_cons, List.not_mem_nil, or_false] at hp
    obtain rfl | rfl | rfl := hp
    · cases hdirect
    · cases hdirect
    · obtain rfl := Option.some.inj hdirect
      cases hnode

namespace Registry

structure Delegates (r : Registry) : Prop where
  create : ∀ seed node, seed.typeName = BuiltIn.delegateType → (r.create seed).1 = some node →
    node = .component (BuiltIn.delegate seed)
  direct : ∀ typeName p factory, r.provider? typeName = some p → p.direct = some factory →
    ∀ seed component, seed.typeName = BuiltIn.delegateType →
      factory seed = some (.component component) → component = BuiltIn.delegate seed

theorem Delegates.of_agrees {r other : Registry} (h : r.Delegates) (hagrees : r.Agrees other) :
    other.Delegates where
  create seed node htype hnode := h.create seed node htype ((hagrees.create seed).symm.trans hnode)
  direct typeName p factory hp :=
    h.direct typeName p factory ((hagrees.provider typeName).symm.trans hp)

theorem delegates_ofCatalogue (h : catalogue.Delegates) : (ofCatalogue catalogue).Delegates where
  create seed node htype hnode := by
    obtain ⟨factory, hfactory, hmade⟩ := exists_factory_of_create hnode
    exact h.nodes factory (htype ▸ hfactory) seed node hmade
  direct typeName p factory hp := h.providers p (mem_of_provider? hp) factory

end Registry

-- ---------------------------------------------------------------------------
-- Building delegates
-- ---------------------------------------------------------------------------

/-- The feature that delegates read off their properties is the given one after resolving. -/
def TellsFeature (payload : Property) (source : Source Building) (feature : String)
    (properties : Property) : Prop :=
  ∃ value, properties.get? BuiltIn.featureProperty = some value ∧
    Expression.Renders payload source feature value

theorem TellsFeature.reads (seed : Seed)
    (h : TellsFeature payload source seed.feature seed.properties) :
    Reads payload source seed.feature (BuiltIn.delegateFeature seed) := by
  obtain ⟨value, hvalue, hrenders⟩ := h
  rw [BuiltIn.delegateFeature, hvalue]
  exact hrenders

theorem Scope.delegate_component {s : Scope} {d : ComponentDefinition} {a : Inventory}
    (hr : a.registry.Delegates) (htype : d.node.typeName = BuiltIn.delegateType)
    (hproperties : d.node.properties = Manifest.told feature earlier)
    (h : ((s.component d).run a).1 = some c) :
    ∃ properties, c = BuiltIn.delegate (s.seed d.node properties) ∧
      TellsFeature s.payload s.dataObject feature properties := by
  obtain ⟨fields, htold, hfield⟩ := Manifest.told_eq_map feature earlier
  obtain ⟨node, hnode, hkind⟩ := Option.bind_eq_some_iff.mp h
  obtain rfl := Node.component?_eq_some.mp hkind
  change ((s.build s.dataObject .component d.node (s.manifest.componentProvider? d)).run a).1 =
    some (.component c) at hnode
  rw [run_build] at hnode
  split at hnode
  · cases hnode
  · rename_i p hp
    obtain ⟨_, -, hprovider⟩ := Option.bind_eq_some_iff.mp hp
    split at hnode
    · split at hnode
      · -- a provider that builds on its own takes the properties as they are
        rename_i factory hdirect
        refine ⟨d.node.properties, hr.direct _ p factory hprovider hdirect _ c htype hnode, ?_⟩
        rw [hproperties, htold]
        exact ⟨.text feature, hfield, .same⟩
      · rw [run_buildByType] at hnode
        have hmade := (Option.filter_eq_some_iff.mp hnode).1
        have hagrees := (grows_resolved (d := d.node) s.grows_dataObject a).agrees
        refine ⟨_, Node.component.inj ((hr.of_agrees hagrees).create _ _ htype hmade), ?_⟩
        rw [resolved, hproperties, htold]
        exact Expression.yields_resolve hfield a
    · cases hnode

-- ---------------------------------------------------------------------------
-- Performing delegates
-- ---------------------------------------------------------------------------

namespace Cascade.Setting

variable {s : Setting} {a b : Inventory}

/-- A performed step asks the server for the component of its key, in the feature that the
name of its own feature is read as. -/
def Asks (s : Setting) (step : Step) (p : Performed) : Prop :=
  ∃ spoken, p.performance = s.link.send
      (PerformComponentEvent.outbound spoken step.key step.payload s.log).toMessage ∧
    Reads step.payload (s.scope step.payload).dataObject s.manifest.feature spoken

theorem asks_of_perform (hmanifest : s.manifest = .ofObject feature root)
    (hr : a.registry.Delegates) (hknown : s.Known step)
    (howner : step.definition.node.isServerOwned = true)
    (hperform : (s.perform step).run a = (some p, b)) : s.Asks step p := by
  obtain ⟨c, hc, rfl⟩ := Option.map_eq_some_iff.mp (congrArg (·.1) hperform)
  obtain rfl : s.manifest.feature = feature := congrArg Manifest.feature hmanifest
  have hkey : (Manifest.ofObject s.manifest.feature root).component? step.key =
      some step.definition := hmanifest ▸ hknown
  -- the entry was told its feature when the manifest was read
  obtain ⟨e, -, he⟩ := (Manifest.component?_ofObject ..).mp hkey
  obtain ⟨htype, hproperties⟩ := Manifest.delegate_of_isServerOwned (he ▸ howner)
  rw [he] at htype hproperties
  obtain ⟨properties, rfl, htells⟩ := Scope.delegate_component hr htype hproperties hc
  refine ⟨_, congrArg (fun key => s.link.send (PerformComponentEvent.outbound _ key
    step.payload s.log).toMessage) (Manifest.key_of_component? hkey), ?_⟩
  exact TellsFeature.reads ((s.scope step.payload).seed step.definition.node properties) htells

theorem perform_of_mem_built (budget : Nat) (hpending : ∀ step ∈ pending, s.Known step)
    (h : (step, p) ∈ built ((s.walk budget pending).run a).1.attempts) :
    s.Known step ∧ ∃ before after, a.registry.Agrees before.registry ∧
      (s.perform step).run before = (some p, after) := by
  obtain ⟨taken, htaken, hbuilt⟩ := List.mem_filterMap.mp h
  obtain ⟨_, hperformed, heq⟩ := Option.map_eq_some_iff.mp hbuilt
  obtain ⟨rfl, rfl⟩ := Prod.mk.inj heq
  obtain ⟨before, after, hagrees, hperform⟩ := exists_perform_of_mem_attempts budget htaken
  exact ⟨known_attempts budget hpending taken htaken, before, after, hagrees,
    hperformed ▸ hperform⟩

end Cascade.Setting

-- ---------------------------------------------------------------------------
-- Cascades
-- ---------------------------------------------------------------------------

namespace Orchestrator

open Cascade (Attempt Setting)

variable {catalogue : Catalogue} {o : Orchestrator} {f : Feature}

def followed (o : Orchestrator) (feature : String) (outputs : Outputs) (source : String)
    (log : Bool) : List Attempt :=
  ((o.features.get? feature).map fun f =>
    (((o.setting f log).walk o.maxSteps ((o.setting f log).follow source outputs)).run
      { objects := f.objects, registry := o.registry }).1.attempts).getD []

theorem sent_completePerform (o : Orchestrator) (feature : String) (outputs : Outputs)
    (source : String) (log : Bool) :
    (o.completePerform feature outputs source log).sent =
      Setting.messages (Setting.built (o.followed feature outputs source log)) := by
  unfold completePerform followed
  cases o.features.get? feature with
  | none => rfl
  | some f =>
    dsimp only [Option.map_some, Option.getD_some]
    rw [Setting.run_eq_walk]
    rfl

/-- Of the performed components, those that the server owns have asked the server for
themselves, by their keys in the manifest. They did so in their feature, unless a payload
or a data object may fill in its name; in any case it was the name and no other property
that decided. -/
def AsksServer (feature : String) (f : Feature) (s : Setting)
    (performed : List (Cascade.Step × Setting.Performed)) : Prop :=
  ∀ step p, (step, p) ∈ performed → step.definition.node.isServerOwned = true →
    f.manifest.component? step.key = some step.definition ∧
      ∃ spoken, p.performance.sent =
          [(PerformComponentEvent.outbound spoken step.key step.payload s.log).toMessage] ∧
        Reads step.payload (s.scope step.payload).dataObject feature spoken ∧
        (¬ Fillable feature → spoken = feature)

/-- With an open link, whatever the payloads and the data objects are, components that the
server owns ask the server for themselves, in cascades that start at a component and in
those that follow outputs. -/
theorem asksServer_of_connected (ho : Reachable catalogue o) (hdelegates : catalogue.Delegates)
    (hf : o.features.get? feature = some f) (hlink : o.link = .connected) (log : Bool) :
    (∀ payload key, AsksServer feature f (o.setting f log)
        (Setting.built (o.attempts feature payload key log))) ∧
      ∀ outputs source, AsksServer feature f (o.setting f log)
        (Setting.built (o.followed feature outputs source log)) := by
  let s := o.setting f log
  obtain ⟨root, hroot⟩ := ho.sound.manifest feature f hf
  have hr : o.registry.Delegates :=
    (Registry.delegates_ofCatalogue hdelegates).of_agrees ho.sound.registry
  have hwalk (pending : List Cascade.Step) (hpending : ∀ step ∈ pending, s.Known step) :
      AsksServer feature f s (Setting.built ((s.walk o.maxSteps pending).run
        { objects := f.objects, registry := o.registry }).1.attempts) := by
    intro step p hstep howner
    obtain ⟨hknown, before, after, hagrees, hperform⟩ :=
      Setting.perform_of_mem_built o.maxSteps hpending hstep
    obtain ⟨spoken, hperformance, hreads⟩ :=
      Setting.asks_of_perform hroot (hr.of_agrees hagrees) hknown howner hperform
    have hfeature : s.manifest.feature = feature := congrArg Manifest.feature hroot
    rw [hfeature] at hreads
    refine ⟨hknown, spoken, ?_, hreads, fun h => hreads.eq_of_not_fillable h⟩
    rw [hperformance, show s.link = .connected from hlink]
    rfl
  constructor
  · intro payload key
    have hattempts : o.attempts feature payload key log =
        (o.walkIn f payload key log).1.attempts := by
      simp [attempts, hf]
    rw [hattempts]
    exact hwalk _ fun step hstep => Setting.known_of_step? (Option.mem_toList.mp hstep)
  · intro outputs source
    have hfollowed : o.followed feature outputs source log =
        ((s.walk o.maxSteps (s.follow source outputs)).run
          { objects := f.objects, registry := o.registry }).1.attempts := by
      simp [followed, hf, s]
    rw [hfollowed]
    exact hwalk _ fun step hstep => Setting.known_follow hstep

/-- A component of the server, whose properties name another feature, behind one of the client. -/
def saving : Json.Object :=
  let component (key : String) (more : List (String × Json)) : Json :=
    .record (("keyName", .text key) :: more)
  Fields.ofList
    [(ManifestDocument.componentsName, .array
      [component "edit" [("typeName", .text BuiltIn.relayType),
          ("outputs", .record [("next", .texts ["save"])])],
        component "save" [("owner", .text "server"), ("props", .record
          [(BuiltIn.featureProperty, .text "other"), ("note", .text "by \x7bpayload.name\x7d")])]]),
    (ManifestDocument.providersName, .array
      [component "components" [("typeName", .text Provider.components.typeName)]])]

def savingAs (feature : String) : Orchestrator :=
  (({ ofRegistry (.ofCatalogue .trial) with link := .absent, maxSteps := 8 } : Orchestrator).after
    (.register feature saving)).after (.changeLink .connected)

theorem reachable_savingAs (feature : String) : Reachable .trial (savingAs feature) :=
  .step (.step (.start .absent 8) (.register feature saving)) (.changeLink .connected)

theorem asksServer_savingAs :
    let o := savingAs "notes"
    let payload : Property := .map [("name", .text "elsewhere")]
    let f : Feature := .ofManifest (.ofObject "notes" saving)
    Reachable .trial o ∧ Catalogue.trial.Delegates ∧ o.features.get? "notes" = some f ∧
      o.link = .connected ∧ ¬ Fillable "notes" ∧
      (Setting.built (o.attempts "notes" payload "edit" false)).map (·.1.key) =
        ["edit", "save"] ∧
      AsksServer "notes" f (o.setting f false)
        (Setting.built (o.attempts "notes" payload "edit" false)) := by
  have hf : (savingAs "notes").features.get? "notes" =
      some (.ofManifest (.ofObject "notes" saving)) :=
    Table.get?_insert_self ∅ "notes" _
  obtain ⟨hasks, -⟩ := asksServer_of_connected (reachable_savingAs "notes")
    Catalogue.delegates_trial hf rfl false
  exact ⟨reachable_savingAs "notes", Catalogue.delegates_trial, hf, rfl,
    Expression.not_fillable_of_not_mem (by decide), by decide +kernel, hasks _ _⟩

/-- A feature that is named like a token lets a payload choose whom a delegate speaks for. -/
theorem performStep_savingAs_token :
    let feature := "\x7bpayload.name\x7d"
    let payload : Property := .map [("name", .text "elsewhere")]
    let outcome := (savingAs feature).performStep feature payload "save" false
    let told (name : String) := outcome.sent.map fun m => (m.get? name).bind Json.text?
    Fillable feature ∧ told "component_keyname" = [some "save"] ∧
      told "featurename" = [some "elsewhere"] ∧ told "featurename" ≠ [some feature] := by
  have htold : ((savingAs "\x7bpayload.name\x7d").performStep "\x7bpayload.name\x7d"
      (.map [("name", .text "elsewhere")]) "save" false).sent.map
        (fun m => (m.get? "featurename").bind Json.text?) = [some "elsewhere"] := by
    decide +kernel
  refine ⟨?_, by decide +kernel, htold, ?_⟩
  · have hbody : Expression.wholeToken? "\x7bpayload.name\x7d".toList =
        some "payload.name".toList := by decide
    exact .payloadField hbody (by decide : _ = [Expression.payloadName, "name"])
  · exact fun h => absurd (htold.symm.trans h) (by decide)

end Orchestrator

end FeatureFlow
