import FeatureFlow.Proofs.Building
import FeatureFlow.Proofs.Tokens.Payload
import Mathlib.Data.Fintype.EquivFin
import Mathlib.Data.Fintype.Sets

/-!
# References between data objects

A data object refers to those that the tokens of its properties name. Where no such
references form a cycle and no token stands for the payload (`Manifest.Static`), each key
denotes the same object whenever and in whatever order objects are looked up: a lookup gives
what it would have given first of all, and leaves an inventory in which all objects are those
(`Scope.gives_dataObject`).
-/

namespace FeatureFlow

open Building (Keeps keeps_compositional run_bind)
open Relation (ReflTransGen TransGen)

-- ---------------------------------------------------------------------------
-- References
-- ---------------------------------------------------------------------------

namespace Manifest

variable {m : Manifest} {key other : String} {available : Table DataObjectDefinition}

/-- A token in the properties of one data object asks for the other one. -/
def Refers (m : Manifest) (key other : String) : Prop :=
  ∃ d, m.dataObject? key = some d ∧
    other ∈ (Expression.texts d.node.properties).flatMap Expression.keysOf

/-- The data objects take nothing from a payload, and none of them refers to itself, be it by
way of others. -/
structure Static (m : Manifest) : Prop where
  payload : ∀ key d, m.dataObject? key = some d →
    ∀ text ∈ Expression.texts d.node.properties, ¬Expression.NamesPayload text
  acyclic : ∀ key, ¬TransGen m.Refers key key

theorem Refers.mem_keys (h : m.Refers key other) : key ∈ m.dataObjectTable.keys := by
  obtain ⟨d, hd, -⟩ := h
  exact Table.mem_keys_iff.mpr (Option.isSome_of_eq_some hd)

theorem Static.wellFounded (h : m.Static) : WellFounded fun other key => m.Refers key other := by
  -- among the finitely many keys, a relation without cycles is well founded
  let before (a b : { key // key ∈ m.dataObjectTable.keys }) : Prop :=
    TransGen m.Refers b.1 a.1
  have htrans : IsTrans _ before := ⟨fun _ _ _ hab hbc => hbc.trans hab⟩
  have hirrefl : Std.Irrefl before := ⟨fun a => h.acyclic a.1⟩
  have hknown := Finite.wellFounded_of_trans_of_irrefl before
  have hacc (key : { key // key ∈ m.dataObjectTable.keys }) :
      Acc (fun other key => m.Refers key other) key.1 := by
    induction key using hknown.induction with
    | h key ih =>
      refine .intro _ fun other hother => ?_
      by_cases hmem : other ∈ m.dataObjectTable.keys
      · exact ih ⟨other, hmem⟩ (.single hother)
      · exact .intro _ fun last hlast => absurd hlast.mem_keys hmem
  exact ⟨fun key => .intro _ fun other hother => by
    by_cases hmem : other ∈ m.dataObjectTable.keys
    · exact hacc ⟨other, hmem⟩
    · exact .intro _ fun last hlast => absurd hlast.mem_keys hmem⟩

theorem Static.of_rank (rank : String → Nat)
    (h : ∀ entry ∈ m.dataObjectTable.entries, ∀ text ∈ Expression.texts entry.2.node.properties,
      ¬Expression.NamesPayload text ∧ ∀ other ∈ Expression.keysOf text, rank other < rank entry.1) :
    m.Static := by
  have hentry {key : String} {d : DataObjectDefinition} (hd : m.dataObject? key = some d) :
      (key, d) ∈ m.dataObjectTable.entries := Fields.mem_of_get? hd
  refine ⟨fun key d hd text htext => (h _ (hentry hd) text htext).1, fun key hcycle => ?_⟩
  have hstep {key other : String} (hrefers : m.Refers key other) : rank other < rank key := by
    obtain ⟨d, hd, hasked⟩ := hrefers
    obtain ⟨text, htext, hother⟩ := List.mem_flatMap.mp hasked
    exact (h _ (hentry hd) text htext).2 _ hother
  have hdown {key other : String} (hleads : TransGen m.Refers key other) :
      rank other < rank key := by
    induction hleads with
    | single hrefers => exact hstep hrefers
    | tail _ hrefers ih => exact (hstep hrefers).trans ih
  exact absurd (hdown hcycle) (Nat.lt_irrefl _)

/-- A key and all that it leads to are defined as in the manifest. -/
def Covers (m : Manifest) (available : Table DataObjectDefinition) (key : String) : Prop :=
  ∀ other, ReflTransGen m.Refers key other → available.get? other = m.dataObject? other

theorem covers_all (m : Manifest) (key : String) : m.Covers m.dataObjectTable key :=
  fun _ _ => rfl

/-- While a data object is built, all that it refers to is still there. -/
theorem Static.covers_erase (h : m.Static) (hcovers : m.Covers available key)
    (hrefers : m.Refers key other) : m.Covers (available.erase key) other := by
  intro last hlast
  have hne : key ≠ last := by
    rintro rfl
    exact h.acyclic key (.head' hrefers hlast)
  rw [Table.get?_erase, if_neg hne]
  exact hcovers last (hlast.head hrefers)

end Manifest

-- ---------------------------------------------------------------------------
-- Settled inventories
-- ---------------------------------------------------------------------------

namespace Scope

variable {s : Scope} {a b : Inventory} {key : String} {object : DataObject} {value : α}
  {payload : Property} {available : Table DataObjectDefinition}

/-- What a lookup gives first of all. -/
def denoted (s : Scope) (a : Inventory) (key : String) : Option LiveObject :=
  ((s.dataObject key).run a).1

/-- From the first inventory to the other one, objects have been looked up in some order, and
all of them are what their keys denote. -/
structure Settled (s : Scope) (a b : Inventory) : Prop where
  registry : a.registry.Agrees b.registry
  kept : ∀ key object, a.objects.get? key = some object → b.objects.get? key = some object
  denoted : ∀ key object, b.objects.get? key = some object →
    s.denoted a key = some (s.live key object)

theorem Settled.refl (s : Scope) (a : Inventory) : s.Settled a a :=
  ⟨.refl _, fun _ _ h => h, fun _ _ h => congrArg Prod.fst (s.run_dataObject_of_get? h)⟩

theorem Settled.of_agrees {registry : Registry} (h : s.Settled a b)
    (hagrees : b.registry.Agrees registry) : s.Settled a { b with registry } :=
  ⟨h.registry.trans hagrees, h.kept, h.denoted⟩

theorem Settled.insert (h : s.Settled a b) (hfree : a.objects.get? key = none)
    (hdenoted : s.denoted a key = some (s.live key object)) :
    s.Settled a { b with objects := b.objects.insert key object } := by
  refine ⟨h.registry, fun other found hfound => ?_, fun other found hfound => ?_⟩
  · have hne : key ≠ other := by
      rintro rfl
      simp [hfree] at hfound
    rw [Table.get?_insert, if_neg hne]
    exact h.kept other found hfound
  · rw [Table.get?_insert] at hfound
    split at hfound
    · rename_i heq
      obtain rfl := Option.some.inj hfound
      exact heq ▸ hdenoted
    · exact h.denoted other found hfound

-- ---------------------------------------------------------------------------
-- Programs with one answer
-- ---------------------------------------------------------------------------

/-- From every settled inventory the program gives this answer, and leaves a settled one. -/
def Gives (s : Scope) (a : Inventory) (value : α) (program : Building α) : Prop :=
  ∀ b, s.Settled a b → (program.run b).1 = value ∧ s.Settled a (program.run b).2

theorem Gives.pure (value : α) : s.Gives a value (Pure.pure value) :=
  fun _ h => ⟨rfl, h⟩

theorem Gives.bind {x : Building α} {f : α → Building β} {result : β} (hx : s.Gives a value x)
    (hf : s.Gives a result (f value)) : s.Gives a result (x >>= f) := by
  intro b hb
  obtain ⟨hvalue, hsettled⟩ := hx b hb
  rw [run_bind, hvalue]
  exact hf _ hsettled

theorem Gives.map {x : Building α} (hx : s.Gives a value x) (f : α → β) :
    s.Gives a (f value) (f <$> x) := by
  rw [← bind_pure_comp]
  exact hx.bind (.pure _)

theorem Gives.mapM {items : List ι} {value : ι → α} {f : ι → Building α}
    (h : ∀ item ∈ items, s.Gives a (value item) (f item)) :
    s.Gives a (items.map value) (items.mapM f) := by
  induction items with
  | nil =>
    rw [List.mapM_nil]
    exact .pure []
  | cons item rest ih =>
    rw [List.mapM_cons]
    have hrest := ih fun other hother => h other (List.mem_cons_of_mem _ hother)
    exact (h item List.mem_cons_self).bind (hrest.bind (.pure _))

theorem exists_gives_resolve (s : Scope) (a : Inventory) (payload p : Property)
    (answer : String → Option LiveObject) :
    ∃ value, ∀ source : Source Building,
      (∀ key ∈ (Expression.texts p).flatMap Expression.keysOf,
        s.Gives a (answer key) (source key)) →
      s.Gives a value (Expression.resolve payload source p) := by
  obtain ⟨conclude, hasks⟩ := Expression.asks_resolve payload p
  refine ⟨conclude (((Expression.texts p).flatMap Expression.keysOf).map answer),
    fun source hsource => ?_⟩
  have hresolve := hasks Building source
  dsimp only at hresolve
  rw [hresolve]
  exact (Gives.mapM hsource).map conclude

/-- An entry without tokens of the payload becomes one node, whatever the payload is and
however its references are answered. -/
theorem exists_gives_build (s : Scope) (a : Inventory) (role : Role) {d : NodeDefinition}
    (provider : Option ProviderDefinition)
    (hpayload : ∀ text ∈ Expression.texts d.properties, ¬Expression.NamesPayload text)
    (answer : String → Option LiveObject) :
    ∃ node, ∀ (payload : Property) (source : Source Building),
      (∀ key ∈ (Expression.texts d.properties).flatMap Expression.keysOf,
        s.Gives a (answer key) (source key)) →
      s.Gives a node (({ s with payload } : Scope).build source role d provider) := by
  obtain ⟨properties, hproperties⟩ := s.exists_gives_resolve a s.payload d.properties answer
  have hresolved (payload : Property) (source : Source Building)
      (hsource : ∀ key ∈ (Expression.texts d.properties).flatMap Expression.keysOf,
        s.Gives a (answer key) (source key)) :
      s.Gives a properties (({ s with payload } : Scope).resolved source d) := by
    rw [resolved, Expression.resolve_congr hpayload payload s.payload]
    exact hproperties source hsource
  cases hprovider : provider.bind fun p => a.registry.provider? p.typeName with
  | none =>
    refine ⟨none, fun payload source _ b hb => ?_⟩
    rw [run_build]
    simp only [hb.registry.provider, hprovider]
    exact ⟨trivial, hb⟩
  | some p =>
    by_cases hrole : p.role = role
    · cases hdirect : p.direct with
      | some factory =>
        refine ⟨factory (s.seed d d.properties), fun payload source _ b hb => ?_⟩
        rw [run_build]
        simp only [hb.registry.provider, hprovider, hrole, if_true, hdirect]
        exact ⟨rfl, hb⟩
      | none =>
        refine ⟨(a.registry.create (s.seed d properties)).1.filter role.admits,
          fun payload source hsource b hb => ?_⟩
        obtain ⟨hvalue, hsettled⟩ := hresolved payload source hsource b hb
        rw [run_build]
        simp only [hb.registry.provider, hprovider, hrole, if_true, hdirect, run_buildByType,
          hvalue, hsettled.registry.create]
        exact ⟨rfl, hsettled.of_agrees (Registry.agrees_create _ _)⟩
    · refine ⟨none, fun payload source _ b hb => ?_⟩
      rw [run_build]
      simp only [hb.registry.provider, hprovider, hrole, if_false]
      exact ⟨trivial, hb⟩

-- ---------------------------------------------------------------------------
-- Lookups
-- ---------------------------------------------------------------------------

theorem denoted_of_unknown (hfree : a.objects.get? key = none)
    (hd : s.manifest.dataObject? key = none) : s.denoted a key = none := by
  rw [Manifest.dataObject?] at hd
  rw [denoted, dataObject, run_dataObjectFrom, hfree]
  simp only [hd]

theorem denoted_of_build {d : DataObjectDefinition} {node : Option Node}
    (hfree : a.objects.get? key = none) (hd : s.manifest.dataObject? key = some d)
    (hbuild : ((s.build (s.dataObjectFrom (s.manifest.dataObjectTable.erase key)) .dataObject
      d.node (s.manifest.dataObjectProvider? d)).run a).1 = node) :
    s.denoted a key = (node.bind Node.dataObject?).map (s.live key) := by
  rw [Manifest.dataObject?] at hd
  rw [denoted, dataObject, run_dataObjectFrom, hfree]
  simp only [hd, hbuild]
  cases node.bind Node.dataObject? <;> rfl

variable (hstatic : s.manifest.Static)
include hstatic

/-- By induction along the references: all that a data object refers to is given as it would
be first of all, so the object becomes what it would have become. -/
theorem gives_dataObjectFrom (a : Inventory) (payload : Property)
    (hcovers : s.manifest.Covers available key) :
    s.Gives a (s.denoted a key)
      (({ s with payload } : Scope).dataObjectFrom available key) := by
  induction key using hstatic.wellFounded.induction generalizing payload available with
  | h key ih =>
    intro b hb
    rw [run_dataObjectFrom]
    cases hthere : b.objects.get? key with
    | some object => exact ⟨(hb.denoted key object hthere).symm, hb⟩
    | none =>
      have hfree : a.objects.get? key = none := by
        refine Option.eq_none_iff_forall_ne_some.mpr fun object hobject => ?_
        simp [hb.kept key object hobject] at hthere
      rw [hcovers key .refl]
      cases hd : s.manifest.dataObject? key with
      | none => exact ⟨(denoted_of_unknown hfree hd).symm, hb⟩
      | some d =>
        obtain ⟨node, hnode⟩ := s.exists_gives_build a .dataObject
          (s.manifest.dataObjectProvider? d) (hstatic.payload key d hd) (s.denoted a)
        have hbuild (payload : Property) (available : Table DataObjectDefinition)
            (hcovers : s.manifest.Covers available key) :=
          hnode payload (({ s with payload } : Scope).dataObjectFrom (available.erase key))
            fun other hother => ih other ⟨d, hd, hother⟩ payload
              (hstatic.covers_erase hcovers ⟨d, hd, hother⟩)
        obtain ⟨hfirst, -⟩ :=
          hbuild s.payload s.manifest.dataObjectTable (s.manifest.covers_all key) a (.refl s a)
        have hdenoted := denoted_of_build hfree hd hfirst
        obtain ⟨hbuilt, hsettled⟩ := hbuild payload available hcovers b hb
        dsimp only
        rw [hbuilt, hdenoted]
        cases hobject : node.bind Node.dataObject? with
        | none => exact ⟨rfl, hsettled⟩
        | some object =>
          rw [hobject] at hdenoted
          exact ⟨rfl, hsettled.insert hfree hdenoted⟩

theorem gives_dataObject (a : Inventory) (payload : Property) (key : String) :
    s.Gives a (s.denoted a key) (({ s with payload } : Scope).dataObject key) :=
  gives_dataObjectFrom hstatic a payload (s.manifest.covers_all key)

theorem settled_component (a : Inventory) (payload : Property) (d : ComponentDefinition) :
    Keeps (fun b c => s.Settled a b → s.Settled a c) _
      (({ s with payload } : Scope).component d) := by
  have hrefl : ∀ b, s.Settled a b → s.Settled a b := fun _ h => h
  have htrans : ∀ b c d, (s.Settled a b → s.Settled a c) → (s.Settled a c → s.Settled a d) →
      s.Settled a b → s.Settled a d := fun _ _ _ hbc hcd h => hcd (hbc h)
  refine (keeps_compositional hrefl htrans).map _ (keeps_build hrefl htrans ?_ fun key b hb => ?_)
  · exact fun b seed hb => hb.of_agrees (b.registry.agrees_create seed)
  · exact (gives_dataObject hstatic a payload key b hb).2

end Scope

end FeatureFlow
