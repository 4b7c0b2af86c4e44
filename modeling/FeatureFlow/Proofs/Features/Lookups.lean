import FeatureFlow.Proofs.Building
import FeatureFlow.Proofs.Tokens.Questions
import FeatureFlow.Proofs.Tokens.Spared
import FeatureFlow.Registry.Standard
import Mathlib.Data.Finset.Card

/-!
# Lookups in progress

Looking up a data object may build it, which looks up others. `Scope.lookUp` keeps the keys
that are being built in a set, adds a key before its data object is built and takes it out
afterwards, and has no result where data objects nest deeper than it is allowed. It goes the
same way as `Scope.dataObject`, which takes the definitions in progress out of its table
instead (`Scope.mirrors_lookUp`). So it always ends, with the set that it began with.
-/

namespace FeatureFlow

open Building (Limited)

-- ---------------------------------------------------------------------------
-- Lookups with a set of keys in progress
-- ---------------------------------------------------------------------------

/-- A lookup that has ended, with the keys that were in progress. -/
structure Lookup where
  building : Finset String
  key : String
  answer : Option LiveObject

structure Progress where
  building : Finset String
  ended : List Lookup

abbrev Nesting := Limited Progress

namespace Scope

/-- The data object of a key that is there, and otherwise what becomes of its definition. -/
def find (s : Scope) (key : String)
    (construct : DataObjectDefinition → Nesting (Option LiveObject)) :
    Nesting (Option LiveObject) := do
  let inventory ← getThe Inventory
  match inventory.objects.get? key with
  | some object => return some (s.live key object)
  | none =>
    match s.manifest.dataObject? key with
    | none => return none
    | some d =>
      let progress ← get
      if key ∈ progress.building then return none else construct d

/-- Builds a data object while its key is in progress. One that is there by then stays. -/
def construct (s : Scope) (source : Source Nesting) (key : String) (d : DataObjectDefinition) :
    Nesting (Option LiveObject) := do
  modify fun progress => { progress with building := insert key progress.building }
  let node ← s.build source .dataObject d.node (s.manifest.dataObjectProvider? d)
  modify fun progress => { progress with building := progress.building.erase key }
  match node.bind Node.dataObject? with
  | none => return none
  | some object =>
    let inventory ← getThe Inventory
    match inventory.objects.get? key with
    | some there => return some (s.live key there)
    | none =>
      modifyThe Inventory fun inventory =>
        { inventory with objects := inventory.objects.insert key object }
      return some (s.live key object)

def noted (key : String) (lookup : Nesting (Option LiveObject)) : Nesting (Option LiveObject) := do
  let { building, .. } ← get
  let answer ← lookup
  modify fun progress => { progress with ended := progress.ended ++ [⟨building, key, answer⟩] }
  return answer

/-- Looks up a data object, with as many built inside each other as `depth` allows. -/
def lookUp (s : Scope) : Nat → Source Nesting
  | 0, key => noted key (s.find key fun _ => failure)
  | depth + 1, key => noted key (s.find key (s.construct (s.lookUp depth) key))

end Scope

-- ---------------------------------------------------------------------------
-- Runs
-- ---------------------------------------------------------------------------

variable {s : Scope} {building : Finset String} {key : String} {a b : Inventory}
  {progress later : Progress}

namespace Scope

theorem run_find (s : Scope) (key : String)
    (construct : DataObjectDefinition → Nesting (Option LiveObject)) (progress : Progress)
    (a : Inventory) :
    ((s.find key construct).run progress).run a =
      match a.objects.get? key with
      | some object => some ((some (s.live key object), progress), a)
      | none =>
        match s.manifest.dataObject? key with
        | none => some ((none, progress), a)
        | some d =>
          if key ∈ progress.building then some ((none, progress), a)
          else ((construct d).run progress).run a := by
  show StateT.run (StateT.run (match a.objects.get? key with
    | some object => _
    | none => _) progress) a = _
  split
  · rfl
  · split
    · rfl
    · show StateT.run (StateT.run (if key ∈ progress.building then _ else _) progress) a = _
      split <;> rfl

theorem run_construct_of_run (progress : Progress) {source : Source Nesting}
    {d : DataObjectDefinition} {node : Option Node}
    (hbuild : ((s.build source .dataObject d.node (s.manifest.dataObjectProvider? d)).run
      { progress with building := insert key progress.building }).run a =
        some ((node, later), b))
    (hfree : b.objects.get? key = none) :
    ((s.construct source key d).run progress).run a =
      some (match node.bind Node.dataObject? with
      | none => ((none, { later with building := later.building.erase key }), b)
      | some object =>
        ((some (s.live key object), { later with building := later.building.erase key }),
          { b with objects := b.objects.insert key object })) := by
  refine (Limited.run_bind_of_run rfl).trans ((Limited.run_bind_of_run hbuild).trans ?_)
  show StateT.run (StateT.run (match node.bind Node.dataObject? with
    | none => _
    | some object => _) _) b = _
  split
  · rfl
  · show StateT.run (StateT.run (match b.objects.get? key with
      | some there => _
      | none => _) _) b = _
    simp only [hfree]
    rfl

theorem run_noted_of_run {lookup : Nesting (Option LiveObject)}
    (h : (lookup.run progress).run a = some ((answer, later), b)) :
    ((noted key lookup).run progress).run a =
      some ((answer, { later with
        ended := later.ended ++ [⟨progress.building, key, answer⟩] }), b) := by
  refine (Limited.run_bind_of_run rfl).trans ?_
  exact (Limited.run_bind_of_run h).trans rfl

end Scope

-- ---------------------------------------------------------------------------
-- Programs that go the same way
-- ---------------------------------------------------------------------------

/-- A key in progress had no answer. -/
def Lookup.Withheld (l : Lookup) : Prop :=
  l.key ∈ l.building → l.answer = none

def Inventory.Lacks (a : Inventory) (keys : Finset String) : Prop :=
  ∀ key ∈ keys, a.objects.get? key = none

/-- From this inventory and with these keys in progress, the program has the result of the other
one. It leaves the keys and their data objects alone, and gives no answer for a key in
progress. -/
def MirrorsAt (building : Finset String) (a : Inventory) (x : Nesting α) (y : Building α) : Prop :=
  ∀ ended, ∃ more,
    (x.run { building, ended }).run a =
      some (((y.run a).1, { building, ended := ended ++ more }), (y.run a).2) ∧
    (∀ key ∈ building, (y.run a).2.objects.get? key = a.objects.get? key) ∧
    (a.Lacks building → ∀ l ∈ more, l.Withheld)

def Mirrors (building : Finset String) (x : Nesting α) (y : Building α) : Prop :=
  ∀ a, MirrorsAt building a x y

variable {x : Nesting α} {y : Building α}

theorem MirrorsAt.of_run
    (hrun : ∀ ended, (x.run { building, ended }).run a =
      some (((y.run a).1, { building, ended }), (y.run a).2))
    (hobjects : (y.run a).2.objects = a.objects) : MirrorsAt building a x y := by
  refine fun ended => ⟨[], ?_, fun key _ => by rw [hobjects], fun _ => nofun⟩
  rw [List.append_nil]
  exact hrun ended

namespace Mirrors

theorem pure (result : α) : Mirrors building (Pure.pure result) (Pure.pure result) :=
  fun _ => .of_run (fun _ => rfl) rfl

theorem get : Mirrors building (getThe Inventory) (getThe Inventory) :=
  fun _ => .of_run (fun _ => rfl) rfl

theorem bind {f : α → Nesting β} {g : α → Building β} (hx : Mirrors building x y)
    (hf : ∀ result, Mirrors building (f result) (g result)) :
    Mirrors building (x >>= f) (y >>= g) := by
  intro a ended
  obtain ⟨first, hrun, hkept, hfirst⟩ := hx a ended
  obtain ⟨second, hrun', hkept', hsecond⟩ := hf (y.run a).1 (y.run a).2 (ended ++ first)
  rw [List.append_assoc] at hrun'
  refine ⟨first ++ second, (Limited.run_bind_of_run hrun).trans hrun', fun key hkey => ?_, ?_⟩
  · exact (hkept' key hkey).trans (hkept key hkey)
  · intro hlacks l hl
    have hlacks' : (y.run a).2.Lacks building :=
      fun key hkey => (hkept key hkey).trans (hlacks key hkey)
    rcases List.mem_append.mp hl with hl | hl
    · exact hfirst hlacks l hl
    · exact hsecond hlacks' l hl

theorem map (hx : Mirrors building x y) (f : α → β) : Mirrors building (f <$> x) (f <$> y) := by
  rw [map_eq_pure_bind, map_eq_pure_bind]
  exact hx.bind fun result => .pure (f result)

theorem mapM {f : ι → Nesting α} {g : ι → Building α}
    (h : ∀ item, Mirrors building (f item) (g item)) (items : List ι) :
    Mirrors building (items.mapM f) (items.mapM g) := by
  induction items with
  | nil => exact .pure []
  | cons item rest ih =>
    rw [List.mapM_cons, List.mapM_cons]
    exact (h item).bind fun result => ih.bind fun results => .pure (result :: results)

variable {source : Source Nesting} {other : Source Building}

theorem of_asks {program : (m : Type → Type) → [Monad m] → Source m → m α}
    (h : Asks keys program) (hsource : ∀ key, Mirrors building (source key) (other key)) :
    Mirrors building (program Nesting source) (program Building other) := by
  obtain ⟨conclude, h⟩ := h
  rw [h, h]
  exact (mapM hsource keys).map conclude

theorem build (hsource : ∀ key, Mirrors building (source key) (other key)) (s : Scope)
    (role : Role) (d : NodeDefinition) (provider : Option ProviderDefinition) :
    Mirrors building (s.build source role d provider) (s.build other role d provider) := by
  refine get.bind fun inventory => ?_
  cases provider.bind fun p => inventory.registry.provider? p.typeName with
  | none => exact .pure none
  | some p =>
    by_cases hrole : p.role = role
    · simp only [hrole, if_true]
      cases p.direct with
      | some factory => exact .pure _
      | none =>
        exact (of_asks (Expression.asks_resolve s.payload d.properties) hsource).bind
          fun _ _ => .of_run (fun _ => rfl) rfl
    · simp only [hrole, if_false]
      exact .pure none

end Mirrors

-- ---------------------------------------------------------------------------
-- Lookups and the definitions in progress
-- ---------------------------------------------------------------------------

namespace Scope

def remaining (s : Scope) (building : Finset String) : Table DataObjectDefinition :=
  s.manifest.dataObjectTable.filterKeys (· ∉ building)

theorem get?_remaining (s : Scope) (building : Finset String) (key : String) :
    (s.remaining building).get? key =
      if key ∈ building then none else s.manifest.dataObject? key := by
  simp [remaining, Table.get?_filterKeys, Manifest.dataObject?]

theorem remaining_empty (s : Scope) : s.remaining ∅ = s.manifest.dataObjectTable :=
  Table.ext_get? fun key => by simp [get?_remaining, Manifest.dataObject?]

theorem erase_remaining (s : Scope) (building : Finset String) (key : String) :
    (s.remaining building).erase key = s.remaining (insert key building) := by
  refine Table.ext_get? fun other => ?_
  rw [Table.get?_erase, get?_remaining, get?_remaining]
  by_cases h : key = other
  · simp [h]
  · simp [h, Ne.symm h]

theorem run_dataObjectFrom_of_mem (hkey : key ∈ building) (hfree : a.objects.get? key = none) :
    (s.dataObjectFrom (s.remaining building) key).run a = (none, a) := by
  simp [run_dataObjectFrom, hfree, get?_remaining, hkey]

theorem mirrorsAt_find {construct : DataObjectDefinition → Nesting (Option LiveObject)}
    (hconstruct : ∀ d, a.objects.get? key = none → (s.remaining building).get? key = some d →
      MirrorsAt building a (construct d) (s.dataObjectFrom (s.remaining building) key)) :
    MirrorsAt building a (s.find key construct) (s.dataObjectFrom (s.remaining building) key) := by
  cases hobject : a.objects.get? key with
  | some object =>
    refine .of_run (fun ended => ?_) ?_ <;> simp [run_find, run_dataObjectFrom, hobject]
  | none =>
    by_cases hkey : key ∈ building
    · have hrun := s.run_dataObjectFrom_of_mem hkey hobject
      refine .of_run (fun ended => ?_) (by rw [hrun])
      rw [run_find, hobject, hrun]
      cases s.manifest.dataObject? key <;> simp [hkey]
    · cases hd : s.manifest.dataObject? key with
      | none =>
        refine .of_run (fun ended => ?_) ?_ <;>
          simp [run_find, run_dataObjectFrom, hobject, get?_remaining, hd]
      | some d =>
        intro ended
        have havailable : (s.remaining building).get? key = some d := by
          simp [get?_remaining, hkey, hd]
        obtain ⟨more, hrun, hkept⟩ := hconstruct d hobject havailable ended
        refine ⟨more, ?_, hkept⟩
        rw [run_find, hobject, hd, ← hrun]
        simp [hkey]

theorem mirrorsAt_noted {lookup : Nesting (Option LiveObject)}
    (h : MirrorsAt building a lookup (s.dataObjectFrom (s.remaining building) key)) :
    MirrorsAt building a (noted key lookup) (s.dataObjectFrom (s.remaining building) key) := by
  intro ended
  obtain ⟨more, hrun, hkept, hwithheld⟩ := h ended
  let answer := ((s.dataObjectFrom (s.remaining building) key).run a).1
  refine ⟨more ++ [⟨building, key, answer⟩], ?_, hkept, fun hlacks l hl => ?_⟩
  · rw [run_noted_of_run hrun, List.append_assoc]
  · rcases List.mem_append.mp hl with hl | hl
    · exact hwithheld hlacks l hl
    · obtain rfl := List.mem_singleton.mp hl
      intro hkey
      exact congrArg Prod.fst (run_dataObjectFrom_of_mem hkey (hlacks key hkey))

theorem mirrorsAt_construct {source : Source Nesting} {d : DataObjectDefinition}
    (hfree : a.objects.get? key = none) (hd : (s.remaining building).get? key = some d)
    (hsource : ∀ other, Mirrors (insert key building) (source other)
      (s.dataObjectFrom (s.remaining (insert key building)) other)) :
    MirrorsAt building a (s.construct source key d)
      (s.dataObjectFrom (s.remaining building) key) := by
  intro ended
  obtain ⟨more, hbuild, hkept, hwithheld⟩ :=
    Mirrors.build hsource s .dataObject d.node (s.manifest.dataObjectProvider? d) a ended
  have hkey : key ∉ building := by
    intro hkey
    simp [get?_remaining, hkey] at hd
  -- the key is in progress only while it has no data object
  have hlacks (h : a.Lacks building) : a.Lacks (insert key building) :=
    (Finset.forall_mem_insert ..).mpr ⟨hfree, h⟩
  rw [run_dataObjectFrom, hfree, hd, erase_remaining]
  dsimp only
  generalize (s.build (s.dataObjectFrom (s.remaining (insert key building))) .dataObject d.node
    (s.manifest.dataObjectProvider? d)).run a = built at hbuild hkept ⊢
  obtain ⟨node, b⟩ := built
  have hstill : b.objects.get? key = none :=
    (hkept key (Finset.mem_insert_self ..)).trans hfree
  have hothers : ∀ other ∈ building, b.objects.get? other = a.objects.get? other :=
    fun other hother => hkept other (Finset.mem_insert_of_mem hother)
  have hrun := run_construct_of_run { building, ended } hbuild hstill
  simp only [Finset.erase_insert hkey] at hrun
  refine ⟨more, ?_, ?_, fun h => hwithheld (hlacks h)⟩
  · rw [hrun]
    cases node.bind Node.dataObject? <;> rfl
  · cases node.bind Node.dataObject? with
    | none => exact hothers
    | some object =>
      intro other hother
      have hne : key ≠ other := by
        rintro rfl
        exact hkey hother
      simp only [Table.get?_insert, if_neg hne]
      exact hothers other hother

/-- Lookups may nest as deep as there are definitions that are not in progress. -/
theorem mirrors_lookUp (s : Scope) {depth : Nat} (hdepth : (s.remaining building).size ≤ depth)
    (key : String) :
    Mirrors building (s.lookUp depth key) (s.dataObjectFrom (s.remaining building) key) := by
  induction depth generalizing building key with
  | zero =>
    refine fun a => mirrorsAt_noted (mirrorsAt_find fun d hfree hd => ?_)
    have hlt := Table.size_erase_lt hd
    omega
  | succ depth ih =>
    refine fun a => mirrorsAt_noted (mirrorsAt_find fun d hfree hd => ?_)
    -- the definition leaves the table as its key enters the set
    refine mirrorsAt_construct hfree hd (ih ?_)
    have hlt := Table.size_erase_lt hd
    rw [erase_remaining] at hlt
    omega

end Scope

-- ---------------------------------------------------------------------------
-- Tokens of keys in progress
-- ---------------------------------------------------------------------------

namespace Scope

open Expression (ask resolveText Spares)

theorem lacks_dataObjectFrom (s : Scope) (key : String) (hlacks : a.Lacks building) :
    ((s.dataObjectFrom (s.remaining building) key).run a).2.Lacks building := by
  intro other hother
  have hsub (k : String) (d : DataObjectDefinition) (h : (s.remaining building).get? k = some d) :
      s.manifest.dataObject? k = some d := by
    rw [get?_remaining] at h
    exact (Option.ite_none_left_eq_some.mp h).2
  have hother' : (s.remaining building).get? other = none := by simp [get?_remaining, hother]
  exact ((s.growsWithin_dataObjectFrom _ key hsub a).outside other hother').trans
    (hlacks other hother)

theorem withheld_mapM (s : Scope) (questions : List (Option String)) (hlacks : a.Lacks building) :
    List.Forall₂ (Expression.Withheld building) questions
      ((questions.mapM (ask (s.dataObjectFrom (s.remaining building)))).run a).1 := by
  induction questions generalizing a with
  | nil => exact .nil
  | cons question rest ih =>
    rw [List.mapM_cons]
    cases question with
    | none => exact .cons nofun (ih hlacks)
    | some asked =>
      refine .cons (fun key hkey hasked => ?_) (ih (s.lacks_dataObjectFrom asked hlacks))
      obtain rfl := Option.some.inj hasked
      exact congrArg Prod.fst (run_dataObjectFrom_of_mem hkey (hlacks asked hkey))

/-- While these keys are in progress the program ends, with data objects built inside each other
as often at most as there are other definitions. The set is the same afterwards, and no lookup of
a key in progress has an answer. -/
def Returns (s : Scope) (building : Finset String) (a : Inventory) (x : Nat → Nesting α)
    (result : α) (b : Inventory) : Prop :=
  ∀ depth ended, (s.remaining building).size ≤ depth →
    ∃ more,
      ((x depth).run { building, ended }).run a =
        some ((result, { building, ended := ended ++ more }), b) ∧
      (a.Lacks building → ∀ l ∈ more, l.Withheld)

theorem returns_of_mirrors {x : Nat → Nesting α}
    (h : ∀ depth, (s.remaining building).size ≤ depth → Mirrors building (x depth) y)
    (a : Inventory) : s.Returns building a x (y.run a).1 (y.run a).2 := by
  intro depth ended hdepth
  obtain ⟨more, hrun, -, hwithheld⟩ := h depth hdepth a ended
  exact ⟨more, hrun, hwithheld⟩

/-- Every lookup ends, and so does resolving every text. A key in progress has no answer, and its
tokens stay in the text. -/
theorem lookUp_ends (s : Scope) (key : String) (building : Finset String) (a : Inventory) :
    (s.remaining building).size ≤ s.manifest.dataObjectTable.size ∧
      (∃ answer b, s.Returns building a (s.lookUp · key) answer b ∧
        (building = ∅ → (s.dataObject key).run a = (answer, b)) ∧
        (a.Lacks building → b.Lacks building ∧ (key ∈ building → answer = none ∧ b = a))) ∧
      ∀ text, ∃ outcome b,
        s.Returns building a (fun depth => resolveText s.payload (s.lookUp depth) text) outcome b ∧
        (a.Lacks building → Spares s.payload building text outcome) := by
  have hlookUp (depth : Nat) (hdepth : (s.remaining building).size ≤ depth) (other : String) :
      Mirrors building (s.lookUp depth other) (s.dataObjectFrom (s.remaining building) other) :=
    s.mirrors_lookUp hdepth other
  refine ⟨List.length_filter_le .., ⟨_, _, returns_of_mirrors (hlookUp · · key) a, ?_,
    fun hlacks => ⟨s.lacks_dataObjectFrom key hlacks, fun hkey => ?_⟩⟩, fun text => ?_⟩
  · rintro rfl
    rw [remaining_empty]
    rfl
  · rw [run_dataObjectFrom_of_mem hkey (hlacks key hkey)]
    exact ⟨rfl, rfl⟩
  · have hasks := Expression.asks_resolveText s.payload text
    refine ⟨_, _, returns_of_mirrors (fun _ h => .of_asks hasks (hlookUp _ h)) a, fun hlacks => ?_⟩
    rw [Expression.resolveText_eq]
    exact Expression.spares_of_found (s.withheld_mapM _ hlacks)

/-- Two data objects that name each other, one of which names itself. -/
def circular : Scope :=
  let node (key : String) (props : Json.Object) : Json := .object
    [("keyName", .text key), ("typeName", .text "ValueDataObject"), ("props", .object props)]
  let root : Json.Object :=
    [("dataObjectConfigs", .array
        [node "left" [("value", .text "\x7bright.name\x7d and \x7bleft.name\x7d")],
          node "right" [("about", .text "\x7bleft\x7d"),
            ("value", .object [("name", .text "right")])]]),
      ("providerConfigs", .array [.object
        [("keyName", .text "data"), ("typeName", .text "ServerDataProvider")]])]
  { manifest := .ofObject "knot" root, registration := 0, payload := .null }

/-- The key of the left one has no answer while it is being built, and its token stays. -/
theorem lookUp_ends_circular :
    let a : Inventory := { objects := ∅, registry := .ofCatalogue .builtIn }
    (circular.remaining ∅).size = 2 ∧
      ∃ (answer : Option LiveObject) (b : Inventory) (ended : List Lookup),
        ((circular.lookUp 2 "left").run { building := ∅, ended := [] }).run a =
          some ((answer, { building := ∅, ended }), b) ∧
        (circular.dataObject "left").run a = (answer, b) ∧
        ended.map (fun l => (l.key, l.building.card, l.answer.isSome)) =
          [("left", 2, false), ("right", 1, true), ("left", 1, false), ("left", 0, true)] ∧
        answer.bind (·.object.value.text?) = some "right and \x7bleft.name\x7d" := by
  intro a
  have hsize : (circular.remaining ∅).size = 2 := by decide +kernel
  obtain ⟨-, ⟨answer, b, hruns, hsame, -⟩, -⟩ := circular.lookUp_ends "left" ∅ a
  obtain ⟨ended, hrun, -⟩ := hruns 2 [] hsize.le
  have hended := congrArg (Option.map fun result =>
    result.1.2.ended.map fun l => (l.key, l.building.card, l.answer.isSome)) hrun
  have hanswer := congrArg (Option.map fun result =>
    result.1.1.bind (·.object.value.text?)) hrun
  refine ⟨hsize, answer, b, ended, hrun, hsame rfl, ?_, ?_⟩
  · exact Option.some.inj (hended.symm.trans (by decide +kernel))
  · exact Option.some.inj (hanswer.symm.trans (by decide +kernel))

end Scope

end FeatureFlow
