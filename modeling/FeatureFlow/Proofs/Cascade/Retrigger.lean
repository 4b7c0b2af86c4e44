import FeatureFlow.Proofs.Reachable
import FeatureFlow.Registry.Standard

/-!
# Running a cascade again

The first run of a cascade leaves data objects behind and drops types that are
only declared. A second run sees neither: an object that the first one found or
built is still there, and what it could not build can never be built
(`Replaying.dataObject`). So every program that only builds gives its answer
again when it runs after itself, and a cascade is such a program.
-/

namespace FeatureFlow

open Building (Keeps keeps_compositional run_bind)

-- ---------------------------------------------------------------------------
-- Steady registries
-- ---------------------------------------------------------------------------

/-- Whether a type makes data objects does not depend on their properties. -/
def Registry.Steady (r : Registry) : Prop :=
  ∀ seed properties object, (r.create seed).1 = some (.dataObject object) →
    ∃ other, (r.create { seed with properties }).1 = some (.dataObject other)

theorem Registry.Steady.of_agrees {r other : Registry} (h : r.Steady) (hagrees : r.Agrees other) :
    other.Steady := by
  intro seed properties object hobject
  rw [hagrees.create] at hobject ⊢
  exact h seed properties object hobject

theorem Catalogue.steady_trial : (Registry.ofCatalogue .trial).Steady := by
  intro seed properties object hobject
  unfold Registry.create at hobject ⊢
  dsimp only at hobject ⊢
  split at hobject
  · simp at hobject
  · rename_i factory hfactory
    have hmem := Table.mem_of_get?_ofList hfactory
    change _ ∈ builtIn.nodes ++ scripted.nodes ++ [] at hmem
    simp only [builtIn, scripted, List.append_nil, List.cons_append, List.nil_append,
      List.mem_cons, Prod.mk.injEq, Option.some.injEq, reduceCtorEq, and_false,
      List.not_mem_nil, or_false] at hmem
    -- value objects are always made, and nothing else makes data objects
    obtain ⟨-, rfl⟩ | ⟨-, rfl⟩ | ⟨-, rfl⟩ | ⟨-, rfl⟩ | ⟨-, rfl⟩ := hmem
    · simp at hobject
    · simp at hobject
    · exact ⟨_, rfl⟩
    · simp at hobject
    · simp at hobject
  · simp at hobject

-- ---------------------------------------------------------------------------
-- Data objects
-- ---------------------------------------------------------------------------

namespace Scope

variable {s : Scope} {key : String} {a : Inventory}

theorem dataObject_of_builds (hr : a.registry.Steady) (h : s.manifest.Builds a.registry key) :
    ∃ live, ((s.dataObject key).run a).1 = some live := by
  obtain ⟨d, p, object, hd, hp, hrole, hmakes⟩ := h
  rw [dataObject, run_dataObjectFrom]
  split
  · exact ⟨_, rfl⟩
  · rw [show s.manifest.dataObjectTable.get? key = some d from hd]
    have hbuilt : ∃ other, ((s.build (s.dataObjectFrom (s.manifest.dataObjectTable.erase key))
        .dataObject d.node (s.manifest.dataObjectProvider? d)).run a).1 =
          some (.dataObject other) := by
      rw [run_build, hp]
      simp only [hrole, if_true]
      cases hmakes with
      | direct hdirect hnode =>
        rw [hdirect]
        exact ⟨object, hnode⟩
      | byType hdirect hnode =>
        rw [hdirect, run_buildByType]
        have hsource (other : String) : Keeps (Inventory.Grows s.manifest) _
            (s.dataObjectFrom (s.manifest.dataObjectTable.erase key) other) :=
          s.grows_dataObjectFrom (fun _ _ hk => Table.get?_of_get?_erase hk) other
        have hagrees := (grows_resolved (d := d.node) hsource a).agrees
        obtain ⟨other, hother⟩ := hr _ _ object hnode
        refine ⟨other, ?_⟩
        dsimp only
        rw [hagrees.create, Option.filter_eq_some_iff]
        exact ⟨hother, rfl⟩
    obtain ⟨other, hother⟩ := hbuilt
    simp [hother, Node.dataObject?]

end Scope

-- ---------------------------------------------------------------------------
-- Programs that answer alike when they run again
-- ---------------------------------------------------------------------------

/-- The program only builds nodes of the manifest, and it gives its answer again
whenever it runs after itself, however much was built in between. -/
structure Replaying (m : Manifest) (α : Type) (program : Building α) : Prop where
  grows : Keeps (Inventory.Grows m) α program
  again : ∀ a later, a.registry.Steady → Inventory.Grows m (program.run a).2 later →
    (program.run later).1 = (program.run a).1

namespace Replaying

variable {m : Manifest} {s : Scope} {source : Source Building}

theorem compositional (m : Manifest) : Compositional (Replaying m) where
  pure value := ⟨fun _ => .refl, fun _ _ _ _ => rfl⟩
  bind {α β x f} hx hf := by
    have hgrows := (keeps_compositional (R := Inventory.Grows m) (fun _ => .refl)
      fun _ _ _ => .trans).bind hx.grows fun value => (hf value).grows
    refine ⟨hgrows, fun a later hr hlater => ?_⟩
    have hrest := (hf (x.run a).1).grows (x.run a).2
    have hfirst := hx.again a later hr (hrest.trans hlater)
    rw [run_bind, run_bind, hfirst]
    refine (hf _).again (x.run a).2 (x.run later).2 ?_ (hlater.trans (hx.grows later))
    exact hr.of_agrees (hx.grows a).agrees

theorem dataObject (s : Scope) (key : String) : Replaying s.manifest _ (s.dataObject key) := by
  refine ⟨s.grows_dataObject key, fun a later hr hlater => ?_⟩
  have hgrows := s.grows_dataObject key a
  cases hrun : ((s.dataObject key).run a).1 with
  | some live =>
    obtain ⟨object, rfl, hobject⟩ := Scope.get?_of_dataObject hrun
    rw [s.run_dataObject_of_get? (hlater.get? hobject)]
  | none =>
    -- what was not built is not there later and cannot be built then
    have hnever : ¬ s.manifest.Builds a.registry key := by
      intro hbuilds
      obtain ⟨live, hlive⟩ := Scope.dataObject_of_builds hr hbuilds
      simp [hrun] at hlive
    have hfree : a.objects.get? key = none := by
      cases hobject : a.objects.get? key with
      | none => rfl
      | some object => simp [s.run_dataObject_of_get? hobject] at hrun
    have hall := hgrows.trans hlater
    cases hagain : ((s.dataObject key).run later).1 with
    | none => rfl
    | some live =>
      obtain ⟨object, -, hobject⟩ := Scope.get?_of_dataObject hagain
      have hend := hall.trans (s.grows_dataObject key later)
      exact absurd (Inventory.Grows.builds hend hfree hobject) hnever

theorem resolved (hsource : ∀ key, Replaying s.manifest _ (source key)) (d : NodeDefinition) :
    Replaying s.manifest _ (s.resolved source d) :=
  (compositional s.manifest).resolve hsource d.properties

theorem build (hsource : ∀ key, Replaying s.manifest _ (source key)) (role : Role)
    (d : NodeDefinition) (provider : Option ProviderDefinition) :
    Replaying s.manifest _ (s.build source role d provider) := by
  have hgrows : Keeps (Inventory.Grows s.manifest) _ (s.build source role d provider) :=
    Scope.keeps_build (fun _ => .refl) (fun _ _ _ => .trans) (fun _ seed => .single (.ask seed))
      fun key => (hsource key).grows
  refine ⟨hgrows, fun a later hr hlater => ?_⟩
  have hagrees := Inventory.Grows.agrees ((hgrows a).trans hlater)
  simp only [Scope.run_build, hagrees.provider] at hlater ⊢
  split
  · rfl
  · rename_i p hp
    simp only [hp] at hlater
    split
    · rename_i hrole
      simp only [hrole, if_true] at hlater
      split
      · rfl
      · rename_i hdirect
        simp only [hdirect, Scope.run_buildByType] at hlater ⊢
        -- between resolving and the later run, the type itself was asked for once
        have hbetween := (Relation.ReflTransGen.single (.ask _)).trans hlater
        have hproperties := (resolved hsource d).again a later hr hbetween
        have hend := hbetween.trans ((resolved hsource d).grows later)
        rw [hproperties, (Inventory.Grows.agrees hend).create]
    · rfl

theorem component (s : Scope) (d : ComponentDefinition) :
    Replaying s.manifest _ (s.component d) :=
  (compositional s.manifest).map _ (build (fun key => dataObject s key) .component d.node _)

end Replaying

-- ---------------------------------------------------------------------------
-- Cascades
-- ---------------------------------------------------------------------------

namespace Cascade.Setting

theorem replaying_walk (s : Setting) (budget : Nat) (pending : List Step) :
    Replaying s.manifest _ (s.walk budget pending) :=
  compositional_walk (Replaying.compositional s.manifest) (fun payload => .component (s.scope payload))
    budget pending

end Cascade.Setting

namespace Orchestrator

open Cascade (Setting)

variable {o : Orchestrator}

/-- A cascade walks the same way when it starts again from what it left. -/
theorem walkIn_again (hr : o.registry.Steady) (f : Feature) (payload : Property) (key : String)
    (log : Bool) {walk : Cascade.Walk} {after : Inventory}
    (hwalk : o.walkIn f payload key log = (walk, after)) (features : Table Feature) :
    (({ o with features, registry := after.registry } : Orchestrator).walkIn
      { f with objects := after.objects } payload key log).1 = walk := by
  have hagain := ((o.setting f log).replaying_walk o.maxSteps
    ((o.setting f log).step? payload key).toList).again
      { objects := f.objects, registry := o.registry } after hr
  change Inventory.Grows _ (o.walkIn f payload key log).2 after → _ =
    (o.walkIn f payload key log).1 at hagain
  rw [hwalk] at hagain
  exact hagain .refl

theorem Reachable.steady (ho : Reachable .trial o) : o.registry.Steady :=
  Catalogue.steady_trial.of_agrees ho.sound.registry

/-- With a steady registry, a cascade that runs twice in a row gives the same node, report and
messages both times. -/
theorem performStep_again (hr : o.registry.Steady) (feature : String) (payload : Property)
    (key : String) (log : Bool) :
    let first := o.performStep feature payload key log
    let second := first.state.performStep feature payload key log
    second.answer = first.answer ∧ second.sent = first.sent ∧ second.reports = first.reports := by
  cases hf : o.features.get? feature with
  | none =>
    have hquiet : o.performStep feature payload key log =
        .quiet o (none, .empty feature key) := by
      simp only [performStep, hf]
    simp [hquiet, Outcome.quiet]
  | some f =>
    cases hwalk : o.walkIn f payload key log with
    | mk walk after =>
      have hfirst : o.performStep feature payload key log =
          { answer := (Setting.first? walk.attempts, o.reportOf feature f key log walk)
            state := { o with
              features := o.features.insert feature { f with objects := after.objects }
              registry := after.registry }
            sent := Setting.messages (Setting.built walk.attempts)
            reports := [o.reportOf feature f key log walk] } := by
        simp only [performStep, hf, performIn_eq_walk, hwalk]
      rw [hfirst]
      simp only [performStep, Table.get?_insert_self, performIn_eq_walk,
        walkIn_again hr f payload key log hwalk]
      exact ⟨rfl, trivial, rfl⟩

/-- A cascade that changes what it runs on: two data objects name each other, and
a target has a type that is only declared. -/
def entangled : Json.Object :=
  let node (key typeName : String) (more : Json.Object) : Json :=
    .object ([("keyName", .text key), ("typeName", .text typeName)] ++ more)
  [("componentConfigs", .array
      [node "start" "RelayComponent"
        [("props", .object [("output", .text "\x7bleft.name\x7d")]),
          ("outputs", .object [("next", .array [.text "odd", .text "end"])])],
        node "odd" "AbstractNode" [],
        node "end" "ScriptComponent" [("props", .object [("about", .text "\x7bright\x7d")])]]),
    ("dataObjectConfigs", .array
      [node "left" "ValueDataObject" [("props", .object [("name", .text "\x7bright.name\x7d")])],
        node "right" "ValueDataObject" [("props", .object [("name", .text "\x7bleft\x7d")])]]),
    ("providerConfigs", .array
      [node "components" "ComponentProvider" [], node "data" "ServerDataProvider" []])]

def entangling : Orchestrator :=
  (ofRegistry (.ofCatalogue .trial)).after (.register "knot" entangled)

theorem reachable_entangling : Reachable .trial entangling :=
  .step (.start .absent defaultMaxSteps) (.register "knot" entangled)

theorem performStep_again_entangling :
    let first := entangling.performStep "knot" .null "start" false
    let second := first.state.performStep "knot" .null "start" false
    Reachable .trial entangling ∧ entangling.registry.Steady ∧
      first.answer.2.executed = ["start", "end"] ∧
      entangling.registry.contains Scripted.abstractType = true ∧
      first.state.registry.contains Scripted.abstractType = false ∧
      (entangling.dataObject? "knot" "right").isNone = true ∧
      (first.state.dataObject? "knot" "right").isSome = true ∧
      second.answer = first.answer ∧ second.sent = first.sent ∧ second.reports = first.reports :=
  ⟨reachable_entangling, reachable_entangling.steady, by decide +kernel, by decide +kernel,
    by decide +kernel, by decide +kernel, by decide +kernel,
    performStep_again reachable_entangling.steady "knot" .null "start" false⟩

end Orchestrator

end FeatureFlow
