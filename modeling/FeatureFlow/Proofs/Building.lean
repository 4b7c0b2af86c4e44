import FeatureFlow.Feature.Construction
import FeatureFlow.Proofs.Resolution
import Mathlib.Logic.Relation

/-!
# What building changes

Building nodes of a manifest does two things to an inventory: a type is asked
for, which drops it where it is only declared, and a data object is added under
a key that was free. `Inventory.Grows` is the closure of these two changes. All
building grows the inventory (`Scope.grows_component`), so what it keeps is read
off the two changes: objects stay as they are (`Grows.get?`) and the registry
answers as before (`Grows.agrees`).
-/

namespace FeatureFlow

open Relation (ReflTransGen)

-- ---------------------------------------------------------------------------
-- Registries that answer alike
-- ---------------------------------------------------------------------------

namespace Registry

/-- The other registry has the same providers and makes the same nodes. It may
have dropped types that are only declared. -/
structure Agrees (r other : Registry) : Prop where
  provider : ∀ typeName, other.provider? typeName = r.provider? typeName
  create : ∀ seed, (other.create seed).1 = (r.create seed).1

theorem Agrees.refl (r : Registry) : r.Agrees r :=
  ⟨fun _ => rfl, fun _ => rfl⟩

theorem Agrees.symm {a b : Registry} (h : a.Agrees b) : b.Agrees a :=
  ⟨fun t => (h.provider t).symm, fun s => (h.create s).symm⟩

theorem Agrees.trans {a b c : Registry} (hab : a.Agrees b) (hbc : b.Agrees c) : a.Agrees c :=
  ⟨fun t => (hbc.provider t).trans (hab.provider t), fun s => (hbc.create s).trans (hab.create s)⟩

/-- A node of one type does not depend on which types were asked for before. -/
theorem agrees_create (r : Registry) (seed : Seed) : r.Agrees (r.create seed).2 := by
  unfold create
  split
  · exact .refl r
  · exact .refl r
  · rename_i hdeclared
    refine ⟨fun _ => rfl, fun other => ?_⟩
    by_cases h : seed.typeName = other.typeName
    · rw [h] at hdeclared
      simp [create, Table.get?_erase, h, hdeclared]
    · simp only [create, Table.get?_erase, if_neg h]
      split <;> simp_all

variable {catalogue : Catalogue}

theorem exists_factory_of_create (h : ((ofCatalogue catalogue).create seed).1 = some node) :
    ∃ factory, (seed.typeName, some factory) ∈ catalogue.nodes ∧ factory seed = some node := by
  unfold create at h
  split at h
  · cases h
  · rename_i factory hfactory
    exact ⟨factory, Table.mem_of_get?_ofList hfactory, h⟩
  · cases h

theorem mem_of_provider? (h : (ofCatalogue catalogue).provider? typeName = some p) :
    p ∈ catalogue.providers := by
  obtain ⟨q, hq, heq⟩ := List.mem_map.mp (Table.mem_of_get?_ofList h)
  obtain ⟨-, rfl⟩ := Prod.mk.inj heq
  exact hq

end Registry

-- ---------------------------------------------------------------------------
-- Nodes of a kind
-- ---------------------------------------------------------------------------

namespace Node

theorem dataObject?_eq_some {node : Node} :
    node.dataObject? = some object ↔ node = .dataObject object := by
  cases node <;> simp [dataObject?]

theorem component?_eq_some {node : Node} {c : Component} :
    node.component? = some c ↔ node = .component c := by
  cases node <;> simp [component?]

end Node

-- ---------------------------------------------------------------------------
-- Data objects that can be built
-- ---------------------------------------------------------------------------

def Manifest.seed (m : Manifest) (d : NodeDefinition) (properties : Property) : Seed :=
  { key := d.key, typeName := d.typeName, feature := m.feature, properties }

/-- A provider makes a node of an entry, either by itself or through the registry
from some properties. -/
inductive Provider.Makes (p : Provider) (r : Registry) (m : Manifest) (d : NodeDefinition)
    (node : Node) : Prop
  | direct (hp : p.direct = some factory) (hnode : factory (m.seed d d.properties) = some node)
  | byType (hp : p.direct = none) (hnode : (r.create (m.seed d properties)).1 = some node)

/-- The manifest declares a data object under the key, with a provider that can
make it. -/
def Manifest.Builds (m : Manifest) (r : Registry) (key : String) : Prop :=
  ∃ d p object, m.dataObject? key = some d ∧
    (m.dataObjectProvider? d).bind (fun p => r.provider? p.typeName) = some p ∧
    p.role = .dataObject ∧ p.Makes r m d.node (.dataObject object)

theorem Manifest.Builds.of_agrees {m : Manifest} {r other : Registry} (h : r.Agrees other) :
    m.Builds other key → m.Builds r key := by
  rintro ⟨d, p, object, hd, hp, hrole, hmakes⟩
  refine ⟨d, p, object, hd, ?_, hrole, ?_⟩
  · simpa only [h.provider] using hp
  · cases hmakes with
    | direct hnone hnode => exact .direct hnone hnode
    | byType hnone hnode => exact .byType hnone ((h.create _).symm.trans hnode)

-- ---------------------------------------------------------------------------
-- Growing inventories
-- ---------------------------------------------------------------------------

namespace Inventory

inductive Change (m : Manifest) : Inventory → Inventory → Prop
  | ask (seed : Seed) : Change m a { a with registry := (a.registry.create seed).2 }
  | add (key : String) (object : DataObject) (hfree : a.objects.get? key = none)
      (hbuilds : m.Builds a.registry key) :
      Change m a { a with objects := a.objects.insert key object }

abbrev Grows (m : Manifest) : Inventory → Inventory → Prop :=
  ReflTransGen (Change m)

variable {m : Manifest} {a b : Inventory}

theorem Change.agrees (h : Change m a b) : a.registry.Agrees b.registry := by
  cases h with
  | ask seed => exact a.registry.agrees_create seed
  | add => exact .refl _

theorem Grows.agrees (h : Grows m a b) : a.registry.Agrees b.registry := by
  induction h with
  | refl => exact .refl _
  | tail _ hlast ih => exact ih.trans hlast.agrees

theorem Change.get? (h : Change m a b) (hk : a.objects.get? key = some object) :
    b.objects.get? key = some object := by
  cases h with
  | ask seed => exact hk
  | add added _ hfree hbuilds =>
    have hne : added ≠ key := by
      rintro rfl
      simp [hfree] at hk
    simpa [Table.get?_insert, hne] using hk

/-- An object that is there stays what it is. -/
theorem Grows.get? (h : Grows m a b) (hk : a.objects.get? key = some object) :
    b.objects.get? key = some object := by
  induction h with
  | refl => exact hk
  | tail _ hlast ih => exact hlast.get? ih

/-- A key that is new could be built from the start. -/
theorem Grows.builds (h : Grows m a b) (ha : a.objects.get? key = none)
    (hb : b.objects.get? key = some object) : m.Builds a.registry key := by
  induction h with
  | refl => simp [ha] at hb
  | @tail middle final hrest hlast ih =>
    cases hlast with
    | ask seed => exact ih hb
    | add added _ hfree hbuilds =>
      by_cases hk : added = key
      · exact hk ▸ hbuilds.of_agrees (Grows.agrees hrest)
      · exact ih (by simpa [Table.get?_insert, hk] using hb)

end Inventory

-- ---------------------------------------------------------------------------
-- Programs that keep a relation
-- ---------------------------------------------------------------------------

namespace Building

def Keeps (R : Inventory → Inventory → Prop) (α : Type) (program : Building α) : Prop :=
  ∀ a, R a (program.run a).2

theorem run_bind (x : Building α) (f : α → Building β) (a : Inventory) :
    (x >>= f).run a = (f (x.run a).1).run (x.run a).2 := rfl

/-- Building with a state of its own, which has no result where it may not go on. -/
abbrev Limited (σ : Type) := StateT σ (StateT Inventory Option)

def Limited.ofBuilding (x : Building α) : Limited σ α :=
  fun state a => some (((x.run a).1, state), (x.run a).2)

theorem Limited.run_bind_of_run {x : Limited σ α} {f : α → Limited σ β}
    (h : (x.run state).run a = some ((result, later), b)) :
    ((x >>= f).run state).run a = ((f result).run later).run b := by
  rw [StateT.run_bind, StateT.run_bind, h]
  rfl

theorem Limited.run_bind_congr {x y : Limited σ α} (f : α → Limited σ β)
    (h : (x.run state).run a = (y.run other).run b) :
    ((x >>= f).run state).run a = ((y >>= f).run other).run b := by
  simp only [StateT.run_bind, h]

theorem keeps_compositional {R : Inventory → Inventory → Prop} (hrefl : ∀ a, R a a)
    (htrans : ∀ a b c, R a b → R b c → R a c) : Compositional (Keeps R) where
  pure _ a := hrefl a
  bind hx hf a := htrans _ _ _ (hx a) (hf _ _)

end Building

namespace Scope

open Building (Keeps keeps_compositional run_bind)

variable {s : Scope} {source : Source Building} {role : Role} {d : NodeDefinition}
  {provider : Option ProviderDefinition} {a : Inventory}

-- ---------------------------------------------------------------------------
-- Runs of the builders
-- ---------------------------------------------------------------------------

theorem run_buildByType (s : Scope) (source : Source Building) (role : Role) (d : NodeDefinition)
    (a : Inventory) :
    (s.buildByType source role d).run a =
      let resolved := (s.resolved source d).run a
      let created := resolved.2.registry.create (s.seed d resolved.1)
      (created.1.filter role.admits, { resolved.2 with registry := created.2 }) := rfl

theorem run_build (s : Scope) (source : Source Building) (role : Role) (d : NodeDefinition)
    (provider : Option ProviderDefinition) (a : Inventory) :
    (s.build source role d provider).run a =
      match provider.bind fun p => a.registry.provider? p.typeName with
      | none => (none, a)
      | some p =>
        if p.role = role then
          match p.direct with
          | some factory => (factory (s.seed d d.properties), a)
          | none => (s.buildByType source role d).run a
        else (none, a) := by
  rw [build, run_bind]
  show StateT.run (match provider.bind fun p => a.registry.provider? p.typeName with
    | none => _
    | some p => _) a = _
  split
  · rfl
  · rename_i p _
    by_cases hrole : p.role = role
    · simp only [hrole, if_true]
      cases p.direct <;> rfl
    · simp only [hrole, if_false]
      rfl

theorem run_dataObjectFrom (s : Scope) (available : Table DataObjectDefinition) (key : String)
    (a : Inventory) :
    (s.dataObjectFrom available key).run a =
      match a.objects.get? key with
      | some object => (some (s.live key object), a)
      | none =>
        match available.get? key with
        | none => (none, a)
        | some d =>
          let built := (s.build (s.dataObjectFrom (available.erase key)) .dataObject d.node
            (s.manifest.dataObjectProvider? d)).run a
          match built.1.bind Node.dataObject? with
          | none => (none, built.2)
          | some object =>
            (some (s.live key object),
              { built.2 with objects := built.2.objects.insert key object }) := by
  rw [dataObjectFrom, run_bind]
  show StateT.run (match a.objects.get? key with
    | some object => _
    | none => _) a = _
  split
  · rfl
  · split
    · rename_i hnone
      simp only [hnone]
      rfl
    · rename_i d hd
      simp only [hd, run_bind]
      split <;> rename_i hbuilt <;> simp only [hbuilt] <;> rfl

theorem run_dataObjectFrom_of_get? (s : Scope) (available : Table DataObjectDefinition)
    (h : a.objects.get? key = some object) :
    (s.dataObjectFrom available key).run a = (some (s.live key object), a) := by
  rw [run_dataObjectFrom, h]

theorem run_dataObject_of_get? (s : Scope) (h : a.objects.get? key = some object) :
    (s.dataObject key).run a = (some (s.live key object), a) :=
  s.run_dataObjectFrom_of_get? _ h

-- ---------------------------------------------------------------------------
-- What the builders keep
-- ---------------------------------------------------------------------------

theorem keeps_build {R : Inventory → Inventory → Prop} (hrefl : ∀ a, R a a)
    (htrans : ∀ a b c, R a b → R b c → R a c)
    (hask : ∀ (a : Inventory) seed, R a { a with registry := (a.registry.create seed).2 })
    (hsource : ∀ key, Keeps R _ (source key)) : Keeps R _ (s.build source role d provider) := by
  intro a
  rw [run_build]
  split
  · exact hrefl a
  · split
    · split
      · exact hrefl a
      · have hresolved : Keeps R _ (s.resolved source d) :=
          (keeps_compositional hrefl htrans).resolve hsource d.properties
        rw [run_buildByType]
        exact htrans _ _ _ (hresolved a) (hask _ _)
    · exact hrefl a

/-- Growing that touches no key outside the available definitions. -/
structure GrowsWithin (m : Manifest) (available : Table DataObjectDefinition)
    (a b : Inventory) : Prop where
  grows : Inventory.Grows m a b
  outside : ∀ key, available.get? key = none → b.objects.get? key = a.objects.get? key

theorem GrowsWithin.refl (m : Manifest) (available : Table DataObjectDefinition) (a : Inventory) :
    GrowsWithin m available a a :=
  ⟨.refl, fun _ _ => rfl⟩

theorem GrowsWithin.trans {m : Manifest} {available : Table DataObjectDefinition}
    {a b c : Inventory} (hab : GrowsWithin m available a b) (hbc : GrowsWithin m available b c) :
    GrowsWithin m available a c :=
  ⟨hab.grows.trans hbc.grows, fun key h => (hbc.outside key h).trans (hab.outside key h)⟩

theorem GrowsWithin.ask (m : Manifest) (available : Table DataObjectDefinition) (a : Inventory)
    (seed : Seed) :
    GrowsWithin m available a { a with registry := (a.registry.create seed).2 } :=
  ⟨.single (.ask seed), fun _ _ => rfl⟩

theorem grows_resolved (hsource : ∀ key, Keeps (Inventory.Grows s.manifest) _ (source key)) :
    Keeps (Inventory.Grows s.manifest) _ (s.resolved source d) :=
  (keeps_compositional (fun _ => .refl) fun _ _ _ => .trans).resolve hsource d.properties

theorem makes_of_build (hsource : ∀ key, Keeps (Inventory.Grows s.manifest) _ (source key))
    (hnode : ((s.build source role d provider).run a).1 = some node) :
    ∃ p, provider.bind (fun p => a.registry.provider? p.typeName) = some p ∧
      p.role = role ∧ p.Makes a.registry s.manifest d node := by
  rw [run_build] at hnode
  split at hnode
  · simp at hnode
  · rename_i p hp
    split at hnode
    · rename_i hrole
      refine ⟨p, hp, hrole, ?_⟩
      split at hnode
      · rename_i factory hdirect
        exact .direct hdirect hnode
      · rename_i hdirect
        rw [run_buildByType] at hnode
        have hagrees := (grows_resolved (d := d) hsource a).agrees
        have hmade := (Option.filter_eq_some_iff.mp hnode).1
        exact .byType hdirect ((hagrees.create _).symm.trans hmade)
    · simp at hnode

theorem growsWithin_dataObjectFrom (s : Scope) (available : Table DataObjectDefinition)
    (key : String)
    (hsub : ∀ k d, available.get? k = some d → s.manifest.dataObject? k = some d) :
    Keeps (GrowsWithin s.manifest available) _ (s.dataObjectFrom available key) := by
  induction available, key using dataObjectFrom.induct with
  | case1 available key ih =>
    intro a
    rw [run_dataObjectFrom]
    split
    · exact .refl ..
    · rename_i hfree
      split
      · exact .refl ..
      · rename_i d hd
        -- while the object is built, its own key is not available
        have hsource : ∀ other, Keeps (GrowsWithin s.manifest (available.erase key)) _
            (s.dataObjectFrom (available.erase key) other) := by
          intro other
          exact ih d hd other fun k e hk => hsub k e (Table.get?_of_get?_erase hk)
        have hbuild : Keeps (GrowsWithin s.manifest (available.erase key)) _
            (s.build (s.dataObjectFrom (available.erase key)) .dataObject d.node
              (s.manifest.dataObjectProvider? d)) :=
          keeps_build (GrowsWithin.refl s.manifest _) (fun _ _ _ => GrowsWithin.trans)
            (GrowsWithin.ask s.manifest _) hsource
        have houtside : ∀ k, available.get? k = none →
            ((s.build (s.dataObjectFrom (available.erase key)) .dataObject d.node
              (s.manifest.dataObjectProvider? d)).run a).2.objects.get? k =
              a.objects.get? k := by
          intro k hk
          refine (hbuild a).outside k ?_
          simp [Table.get?_erase, hk]
        dsimp only
        split
        · exact ⟨(hbuild a).grows, houtside⟩
        · rename_i object hobject
          obtain ⟨node, hnode, hkind⟩ := Option.bind_eq_some_iff.mp hobject
          obtain rfl : node = .dataObject object := Node.dataObject?_eq_some.mp hkind
          obtain ⟨p, hp, hrole, hmakes⟩ := makes_of_build (fun k b => (hsource k b).grows) hnode
          have hstill := ((hbuild a).outside key (by simp [Table.get?_erase])).trans hfree
          have hbuilds : s.manifest.Builds a.registry key :=
            ⟨d, p, object, hsub key d hd, hp, hrole, hmakes⟩
          have hadd := hbuilds.of_agrees (hbuild a).grows.agrees.symm
          refine ⟨(hbuild a).grows.tail (.add key object hstill hadd), fun k hk => ?_⟩
          have hne : key ≠ k := by
            rintro rfl
            simp [hk] at hd
          simpa [Table.get?_insert, hne] using houtside k hk

theorem grows_dataObjectFrom (s : Scope) {available : Table DataObjectDefinition}
    (hsub : ∀ k d, available.get? k = some d → s.manifest.dataObject? k = some d) (key : String) :
    Keeps (Inventory.Grows s.manifest) _ (s.dataObjectFrom available key) :=
  fun a => (s.growsWithin_dataObjectFrom available key hsub a).grows

/-- Looking a data object up builds what is missing and changes nothing else. -/
theorem grows_dataObject (s : Scope) (key : String) :
    Keeps (Inventory.Grows s.manifest) _ (s.dataObject key) :=
  s.grows_dataObjectFrom (fun _ _ h => h) key

theorem answer_dataObjectFrom (s : Scope) {available : Table DataObjectDefinition}
    (hsub : ∀ k d, available.get? k = some d → s.manifest.dataObject? k = some d) (key : String)
    (a : Inventory) :
    ((s.dataObjectFrom available key).run a).1 =
      (((s.dataObjectFrom available key).run a).2.objects.get? key).map (s.live key) := by
  rw [run_dataObjectFrom]
  split
  · rename_i object hobject
    simp [hobject]
  · rename_i hfree
    split
    · simp [hfree]
    · rename_i d hd
      have hbuild : Keeps (GrowsWithin s.manifest (available.erase key)) _
          (s.build (s.dataObjectFrom (available.erase key)) .dataObject d.node
            (s.manifest.dataObjectProvider? d)) :=
        keeps_build (GrowsWithin.refl s.manifest _) (fun _ _ _ => GrowsWithin.trans)
          (GrowsWithin.ask s.manifest _) fun other =>
            s.growsWithin_dataObjectFrom (available.erase key) other
              fun k e hk => hsub k e (Table.get?_of_get?_erase hk)
      have hstill := ((hbuild a).outside key (by simp [Table.get?_erase])).trans hfree
      dsimp only
      split
      · simp [hstill]
      · simp

theorem answer_dataObject (s : Scope) (key : String) (a : Inventory) :
    ((s.dataObject key).run a).1 =
      (((s.dataObject key).run a).2.objects.get? key).map (s.live key) :=
  s.answer_dataObjectFrom (fun _ _ h => h) key a

theorem get?_of_dataObject {live : LiveObject} (h : ((s.dataObject key).run a).1 = some live) :
    ∃ object, live = s.live key object ∧
      ((s.dataObject key).run a).2.objects.get? key = some object := by
  rw [answer_dataObject, Option.map_eq_some_iff] at h
  obtain ⟨object, hobject, rfl⟩ := h
  exact ⟨object, rfl, hobject⟩

theorem grows_component (s : Scope) (d : ComponentDefinition) :
    Keeps (Inventory.Grows s.manifest) _ (s.component d) := by
  refine (keeps_compositional (fun _ => .refl) fun _ _ _ => .trans).map _ ?_
  exact keeps_build (fun _ => .refl) (fun _ _ _ => .trans) (fun _ seed => .single (.ask seed))
    s.grows_dataObject

end Scope

end FeatureFlow
