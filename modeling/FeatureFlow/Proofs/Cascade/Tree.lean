import FeatureFlow.Proofs.Reachable
import FeatureFlow.Registry.Standard

/-!
# The tree of a cascade

The steps of a cascade form a tree: below a performed step hang the steps that
its outputs ask for, port by port in the order of emission and target by target
in the order of routing. `Setting.Grown` describes the trees without a budget and
without a list of pending steps. A cascade that is not truncated visits exactly
them, in preorder (`grown_of_walk`).
-/

namespace FeatureFlow

-- ---------------------------------------------------------------------------
-- Keys
-- ---------------------------------------------------------------------------

/-- Nodes go by the key of the entry that they are built for. -/
structure Catalogue.KeepsKeys (c : Catalogue) : Prop where
  nodes : ∀ typeName factory, (typeName, some factory) ∈ c.nodes →
    ∀ seed node, factory seed = some node → node.key = seed.key
  providers : ∀ p ∈ c.providers, ∀ factory, p.direct = some factory →
    ∀ seed node, factory seed = some node → node.key = seed.key

theorem Catalogue.keepsKeys_builtIn : builtIn.KeepsKeys where
  nodes typeName factory h seed node hnode := by
    simp only [builtIn, List.mem_cons, Prod.mk.injEq, Option.some.injEq, List.not_mem_nil,
      or_false] at h
    obtain ⟨-, rfl⟩ | ⟨-, rfl⟩ | ⟨-, rfl⟩ := h <;> cases hnode <;> rfl
  providers p hp factory hdirect := by
    simp only [builtIn, List.mem_cons, List.not_mem_nil, or_false] at hp
    obtain rfl | rfl := hp <;> cases hdirect

namespace Registry

structure KeepsKeys (r : Registry) : Prop where
  create : ∀ seed node, (r.create seed).1 = some node → node.key = seed.key
  direct : ∀ typeName p factory, r.provider? typeName = some p → p.direct = some factory →
    ∀ seed node, factory seed = some node → node.key = seed.key

theorem KeepsKeys.of_agrees {r other : Registry} (h : r.KeepsKeys) (hagrees : r.Agrees other) :
    other.KeepsKeys where
  create seed node hnode := h.create seed node ((hagrees.create seed).symm.trans hnode)
  direct typeName p factory hp :=
    h.direct typeName p factory ((hagrees.provider typeName).symm.trans hp)

theorem keepsKeys_ofCatalogue (h : catalogue.KeepsKeys) : (ofCatalogue catalogue).KeepsKeys where
  create seed node hnode := by
    obtain ⟨factory, hfactory, hmade⟩ := exists_factory_of_create hnode
    exact h.nodes _ factory hfactory seed node hmade
  direct typeName p factory hp := h.providers p (mem_of_provider? hp) factory

end Registry

theorem Provider.Makes.key_eq {p : Provider} {typeName : String} (h : p.Makes r m d node)
    (hr : r.KeepsKeys) (hp : r.provider? typeName = some p) : node.key = d.key := by
  cases h with
  | direct hdirect hnode => exact hr.direct typeName p _ hp hdirect _ node hnode
  | byType _ hnode => exact hr.create _ node hnode

theorem Scope.key_component {s : Scope} {d : ComponentDefinition} {a : Inventory}
    (hr : a.registry.KeepsKeys) (h : ((s.component d).run a).1 = some c) : c.key = d.key := by
  obtain ⟨node, hnode, hkind⟩ := Option.bind_eq_some_iff.mp h
  obtain rfl := Node.component?_eq_some.mp hkind
  obtain ⟨p, hp, -, hmakes⟩ := makes_of_build s.grows_dataObject hnode
  obtain ⟨_, -, hprovider⟩ := Option.bind_eq_some_iff.mp hp
  exact hmakes.key_eq hr hprovider

theorem Manifest.key_of_component? {feature : String}
    (h : (ofObject feature root).component? key = some d) : d.key = key := by
  unfold component? componentTable ofObject at h
  dsimp only at h
  cases hlist : entries ComponentDefinition.decode ManifestDocument.componentsName root with
  | none => simp [hlist] at h
  | some list =>
    simp only [hlist, Option.map_some, Option.getD_some] at h
    obtain ⟨e, -, he⟩ := List.mem_map.mp (Table.mem_of_get?_ofList h)
    obtain ⟨rfl, rfl⟩ := Prod.mk.inj he
    rfl

namespace Cascade

-- ---------------------------------------------------------------------------
-- Trees
-- ---------------------------------------------------------------------------

/-- A performed step with the steps that follow from its outputs. -/
inductive StepTree where
  | node (step : Step) (performed : Setting.Performed) (children : List StepTree)

namespace StepTree

mutual
def preorder : StepTree → List (Step × Setting.Performed)
  | node step performed children => (step, performed) :: preorderAll children
def preorderAll : List StepTree → List (Step × Setting.Performed)
  | [] => []
  | tree :: rest => preorder tree ++ preorderAll rest
end

theorem preorderAll_append (first more : List StepTree) :
    preorderAll (first ++ more) = preorderAll first ++ preorderAll more := by
  induction first with
  | nil => rfl
  | cons tree rest ih => simp [preorderAll, ih]

end StepTree

open StepTree (preorderAll)

namespace Setting

/-- The components that a result asks for, each with the value it is to get. -/
def requested (s : Setting) (source : String) :
    Except NodeError Outputs → List (String × Property)
  | .ok outputs => outputs.flatMap fun (port, value) =>
      (s.manifest.targets source port).map (·, value)
  | .error _ => []

/-- The trees that requests grow into, one after another, and what they make of
the inventory. A component that is missing or cannot be built grows no tree. -/
inductive Grown (s : Setting) :
    Inventory → List (String × Property) → List StepTree → Inventory → Prop
  | nil : Grown s a [] [] a
  | missing (hkey : s.manifest.component? key = none) (rest : Grown s a requests trees b) :
      Grown s a ((key, value) :: requests) trees b
  | unbuilt (hkey : s.manifest.component? key = some definition)
      (hperform : (s.perform { key, definition, payload := value }).run a = (none, middle))
      (rest : Grown s middle requests trees b) :
      Grown s a ((key, value) :: requests) trees b
  | performed (hkey : s.manifest.component? key = some definition)
      (hperform : (s.perform { key, definition, payload := value }).run a = (some p, middle))
      (below : Grown s middle (s.requested key p.performance.result) children after)
      (rest : Grown s after requests trees b) :
      Grown s a ((key, value) :: requests)
        (.node { key, definition, payload := value } p children :: trees) b

variable {s : Setting} {a b : Inventory} {requests : List (String × Property)}
  {trees : List StepTree}

theorem Grown.unique (h : s.Grown a requests trees b) :
    ∀ {others after}, s.Grown a requests others after → others = trees ∧ after = b := by
  induction h with
  | nil =>
    intro others after hother
    cases hother
    exact ⟨rfl, rfl⟩
  | missing hkey _ ih =>
    intro others after hother
    cases hother with
    | missing _ rest => exact ih rest
    | unbuilt hother => simp [hkey] at hother
    | performed hother => simp [hkey] at hother
  | unbuilt hkey hperform _ ih =>
    intro others after hother
    cases hother with
    | missing hother => simp [hkey] at hother
    | unbuilt hother hrun rest =>
      obtain rfl := Option.some.inj (hkey.symm.trans hother)
      obtain ⟨-, rfl⟩ := Prod.mk.inj (hperform.symm.trans hrun)
      exact ih rest
    | performed hother hrun =>
      obtain rfl := Option.some.inj (hkey.symm.trans hother)
      cases hperform.symm.trans hrun
  | performed hkey hperform _ _ ihbelow ih =>
    intro others after hother
    cases hother with
    | missing hother => simp [hkey] at hother
    | unbuilt hother hrun =>
      obtain rfl := Option.some.inj (hkey.symm.trans hother)
      cases hperform.symm.trans hrun
    | performed hother hrun below rest =>
      obtain rfl := Option.some.inj (hkey.symm.trans hother)
      obtain ⟨hp, rfl⟩ := Prod.mk.inj (hperform.symm.trans hrun)
      obtain rfl := Option.some.inj hp
      obtain ⟨rfl, rfl⟩ := ihbelow below
      obtain ⟨rfl, rfl⟩ := ih rest
      exact ⟨rfl, rfl⟩

theorem Grown.split {more : List (String × Property)} (h : s.Grown a (requests ++ more) trees b) :
    ∃ first second middle, trees = first ++ second ∧ s.Grown a requests first middle ∧
      s.Grown middle more second b := by
  induction requests generalizing a trees with
  | nil => exact ⟨[], trees, a, rfl, .nil, h⟩
  | cons request requests ih =>
    cases h with
    | missing hkey rest =>
      obtain ⟨first, second, middle, rfl, hfirst, hsecond⟩ := ih rest
      exact ⟨first, second, middle, rfl, .missing hkey hfirst, hsecond⟩
    | unbuilt hkey hperform rest =>
      obtain ⟨first, second, middle, rfl, hfirst, hsecond⟩ := ih rest
      exact ⟨first, second, middle, rfl, .unbuilt hkey hperform hfirst, hsecond⟩
    | performed hkey hperform below rest =>
      obtain ⟨first, second, middle, rfl, hfirst, hsecond⟩ := ih rest
      exact ⟨_ :: first, second, middle, rfl, .performed hkey hperform below hfirst, hsecond⟩

-- ---------------------------------------------------------------------------
-- Walks
-- ---------------------------------------------------------------------------

def known (s : Setting) (requests : List (String × Property)) : List Step :=
  requests.filterMap fun (key, value) => s.step? value key

theorem known_append (requests more : List (String × Property)) :
    s.known (requests ++ more) = s.known requests ++ s.known more :=
  List.filterMap_append ..

theorem next_eq_known (s : Setting) (p : Performed) :
    s.next p = s.known (s.requested p.component.key p.performance.result) := by
  unfold next requested
  cases p.performance.result with
  | error e => rfl
  | ok outputs =>
    simp only [known, follow, List.filterMap_flatMap, List.filterMap_map]
    rfl

theorem key_perform {step : Step} (hr : a.registry.KeepsKeys)
    (h : (s.perform step).run a = (some p, b)) : p.component.key = step.definition.key := by
  obtain ⟨c, hc, rfl⟩ := Option.map_eq_some_iff.mp (congrArg (·.1) h)
  exact Scope.key_component hr hc

theorem grown_of_known_nil (h : s.known requests = []) : s.Grown a requests [] a := by
  induction requests with
  | nil => exact .nil
  | cons request requests ih =>
    obtain ⟨key, value⟩ := request
    obtain ⟨hstep, hrest⟩ := List.append_eq_nil_iff.mp
      ((s.known_append [(key, value)] requests).symm.trans h)
    refine .missing ?_ (ih hrest)
    cases hkey : s.manifest.component? key with
    | none => rfl
    | some d => simp [known, step?, hkey] at hstep

/-- A walk that leaves nothing pending has gone through the trees of its requests. -/
theorem grown_of_walk (hkeys : ∀ key d, s.manifest.component? key = some d → d.key = key)
    (budget : Nat) (hr : a.registry.KeepsKeys)
    (hrun : (s.walk budget (s.known requests)).run a = ({ attempts, pending := [] }, b)) :
    ∃ trees, s.Grown a requests trees b ∧ built attempts = preorderAll trees := by
  induction budget generalizing a requests attempts with
  | zero =>
    obtain ⟨hwalk, rfl⟩ := Prod.mk.inj hrun
    obtain ⟨rfl, hnone⟩ := Walk.mk.inj hwalk
    exact ⟨[], grown_of_known_nil hnone, rfl⟩
  | succ budget ih =>
    induction requests with
    | nil =>
      rw [show s.known [] = [] from rfl, run_walk_nil] at hrun
      obtain ⟨hwalk, rfl⟩ := Prod.mk.inj hrun
      obtain ⟨rfl, -⟩ := Walk.mk.inj hwalk
      exact ⟨[], .nil, rfl⟩
    | cons request requests ihrest =>
      obtain ⟨key, value⟩ := request
      cases hkey : s.manifest.component? key with
      | none =>
        rw [show s.known ((key, value) :: requests) = s.known requests by
          simp [known, step?, hkey]] at hrun
        obtain ⟨trees, htrees, hbuilt⟩ := ihrest hrun
        exact ⟨trees, .missing hkey htrees, hbuilt⟩
      | some definition =>
        rw [show s.known ((key, value) :: requests) =
          { key, definition, payload := value } :: s.known requests by
            simp [known, step?, hkey], run_walk_cons] at hrun
        generalize hperform : (s.perform { key, definition, payload := value }).run a = outcome
          at hrun
        obtain ⟨performed, middle⟩ := outcome
        have hagrees := (s.grows_perform { key, definition, payload := value } a).agrees
        rw [hperform] at hagrees
        dsimp only at hrun
        generalize hrest : (s.walk budget _).run middle = rest at hrun
        obtain ⟨⟨later, left⟩, after⟩ := rest
        obtain ⟨hwalk, rfl⟩ := Prod.mk.inj hrun
        obtain ⟨rfl, rfl⟩ := Walk.mk.inj hwalk
        cases performed with
        | none =>
          obtain ⟨trees, htrees, hbuilt⟩ := ih (hr.of_agrees hagrees) hrest
          exact ⟨trees, .unbuilt hkey hperform htrees, hbuilt⟩
        | some p =>
          -- a component goes by the key of its step, so its routes are those of the step
          have hp : p.component.key = key := (key_perform hr hperform).trans (hkeys key _ hkey)
          have hnext : s.following { step := { key, definition, payload := value }
                                     performed := some p } ++ s.known requests =
              s.known (s.requested key p.performance.result ++ requests) := by
            rw [known_append, ← hp, ← next_eq_known]
            rfl
          rw [hnext] at hrest
          obtain ⟨trees, htrees, hbuilt⟩ := ih (hr.of_agrees hagrees) hrest
          obtain ⟨children, siblings, between, rfl, hbelow, hsiblings⟩ := htrees.split
          refine ⟨_, .performed hkey hperform hbelow hsiblings, ?_⟩
          simpa [built, preorderAll, StepTree.preorder, StepTree.preorderAll_append] using hbuilt

end Setting

end Cascade

-- ---------------------------------------------------------------------------
-- Cascades
-- ---------------------------------------------------------------------------

namespace Orchestrator

open Cascade (Setting StepTree)

/-- A cascade that is not truncated reports the preorder of the tree that grows
from its first step, sends the messages of that tree and leaves what growing it
leaves. -/
theorem performStep_preorder (ho : Reachable catalogue o) (hkeys : catalogue.KeepsKeys)
    (hf : o.features.get? feature = some f) (payload : Property) (key : String) (log : Bool)
    (hwhole : (o.performStep feature payload key log).answer.2.truncated = false) :
    let outcome := o.performStep feature payload key log
    let s := o.setting f log
    let before : Inventory := { objects := f.objects, registry := o.registry }
    ∃ trees after, s.Grown before [(key, payload)] trees after ∧
      (∀ others left, s.Grown before [(key, payload)] others left →
        others = trees ∧ left = after) ∧
      outcome.answer.2.records = s.records (StepTree.preorderAll trees) ∧
      outcome.sent = Setting.messages (StepTree.preorderAll trees) ∧
      outcome.state = { o with
        features := o.features.insert feature { f with objects := after.objects }
        registry := after.registry } := by
  simp only [performStep, hf, performIn_eq_walk] at hwhole ⊢
  obtain ⟨root, hroot⟩ := ho.sound.manifest feature f hf
  have hmanifest : ∀ key d, (o.setting f log).manifest.component? key = some d → d.key = key := by
    intro key d hd
    rw [show (o.setting f log).manifest = f.manifest from rfl, hroot] at hd
    exact Manifest.key_of_component? hd
  have hr : o.registry.KeepsKeys :=
    (Registry.keepsKeys_ofCatalogue hkeys).of_agrees ho.sound.registry
  generalize hwalk : o.walkIn f payload key log = walk at hwhole ⊢
  obtain ⟨⟨attempts, pending⟩, after⟩ := walk
  obtain rfl : pending = [] := by simpa [reportOf] using hwhole
  have hone : ((o.setting f log).step? payload key).toList =
      (o.setting f log).known [(key, payload)] := by
    cases h : (o.setting f log).step? payload key <;> simp [Setting.known, h]
  rw [walkIn, hone] at hwalk
  obtain ⟨trees, htrees, hbuilt⟩ := Setting.grown_of_walk hmanifest o.maxSteps hr hwalk
  refine ⟨trees, after, htrees, fun _ _ hother => htrees.unique hother, ?_, ?_, rfl⟩
  · simp [reportOf, hbuilt]
  · simp [hbuilt]

/-- A start with two ports: a target is missing, one cannot be built, one fails
and one is asked for twice. -/
def fanOut : Json.Object :=
  let component (key typeName : String) (more : Json.Object) : Json :=
    .object ([("keyName", .text key), ("typeName", .text typeName)] ++ more)
  let texts (items : List String) : Json := .array (items.map .text)
  [("componentConfigs", .array
      [component "start" "RelayComponent"
        [("props", .object [("ports", texts ["left", "right"])]),
          ("outputs", .object [("left", texts ["missing", "leaf"]),
            ("right", texts ["odd", "ask", "leaf"])])],
        component "leaf" "RelayComponent" [],
        component "odd" "UnknownComponent" [],
        component "ask" "" [("owner", .text "server")]]),
    ("providerConfigs", .array [component "components" "ComponentProvider" []])]

def fanningOut : Orchestrator :=
  (ofRegistry (.ofCatalogue .builtIn)).after (.register "fan" fanOut)

theorem reachable_fanningOut : Reachable .builtIn fanningOut :=
  .step (.start .absent defaultMaxSteps) (.register "fan" fanOut)

theorem performStep_preorder_fanningOut :
    let outcome := fanningOut.performStep "fan" .null "start" false
    Reachable .builtIn fanningOut ∧ Catalogue.builtIn.KeepsKeys ∧
      outcome.answer.2.truncated = false ∧
      outcome.answer.2.executed = ["start", "leaf", "ask", "leaf"] ∧
      ∃ f, fanningOut.features.get? "fan" = some f ∧
        ∃ trees after, (fanningOut.setting f false).Grown
            { objects := f.objects, registry := fanningOut.registry } [("start", .null)] trees
            after ∧
          outcome.answer.2.records =
            (fanningOut.setting f false).records (StepTree.preorderAll trees) := by
  have hf : fanningOut.features.get? "fan" = some (.ofManifest (.ofObject "fan" fanOut)) :=
    Table.get?_insert_self ∅ "fan" _
  have hwhole : (fanningOut.performStep "fan" .null "start" false).answer.2.truncated = false := by
    decide +kernel
  obtain ⟨trees, after, htrees, -, hrecords, -⟩ := performStep_preorder reachable_fanningOut
    Catalogue.keepsKeys_builtIn hf .null "start" false hwhole
  exact ⟨reachable_fanningOut, Catalogue.keepsKeys_builtIn, hwhole, by decide +kernel, _, hf,
    trees, after, htrees, hrecords⟩

end Orchestrator

end FeatureFlow
