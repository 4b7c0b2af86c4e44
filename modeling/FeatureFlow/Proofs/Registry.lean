import FeatureFlow.Registry
import Mathlib.Data.List.Induction

/-!
# The type registry over time

A registry stands for the first catalogue that it was given, whatever it was asked before and
whatever is asked later. Of the entries of one type the last one counts. The only thing that a
call can change is that a type which is declared without a factory goes, when a node of it is
asked for (`Stands.step`), and so much can be said of every sequence of calls (`run_outcome`).
-/

namespace FeatureFlow

-- ---------------------------------------------------------------------------
-- Last entries
-- ---------------------------------------------------------------------------

theorem Fields.get?_eq_head? (key : String) (fields : Fields α) :
    get? key fields = (fields.filter (·.1 = key)).head?.map (·.2) := by
  induction fields with
  | nil => rfl
  | cons field rest ih => by_cases hkey : field.1 = key <;> simp [get?, hkey, ih]

theorem Fields.get?_reverse (key : String) (fields : Fields α) :
    get? key fields.reverse = (fields.filter (·.1 = key)).getLast?.map (·.2) := by
  rw [get?_eq_head?, List.filter_reverse, List.head?_reverse]

namespace Catalogue

variable {c : Catalogue} {typeName : String}

def last? (c : Catalogue) (typeName : String) : Option (Option Factory) :=
  (c.nodes.filter (·.1 = typeName)).getLast?.map (·.2)

def lastProvider? (c : Catalogue) (typeName : String) : Option Provider :=
  (c.providers.filter (·.typeName = typeName)).getLast?

def typeNames (c : Catalogue) : List String :=
  c.nodes.map (·.1)

theorem isSome_last?_iff : (c.last? typeName).isSome = true ↔ typeName ∈ c.typeNames := by
  simp [last?, typeNames]

theorem get?_types (c : Catalogue) (typeName : String) :
    (Registry.ofCatalogue c).types.get? typeName = c.last? typeName :=
  (Table.get?_ofList typeName c.nodes).trans (Fields.get?_reverse typeName c.nodes)

theorem provider?_ofCatalogue (c : Catalogue) (typeName : String) :
    (Registry.ofCatalogue c).provider? typeName = c.lastProvider? typeName := by
  refine (Table.get?_ofList typeName _).trans ((Fields.get?_reverse typeName _).trans ?_)
  simp [lastProvider?, List.filter_map, Function.comp_def]

end Catalogue

namespace Registry

-- ---------------------------------------------------------------------------
-- Calls
-- ---------------------------------------------------------------------------

inductive Call where
  | build (catalogue : Catalogue)
  | create (seed : Seed)
  | provider (typeName : String)
  | contains (typeName : String)

def after (r : Registry) : Call → Registry
  | .build catalogue => r.build catalogue
  | .create seed => (r.create seed).2
  | .provider _ => r
  | .contains _ => r

def run (r : Registry) (calls : List Call) : Registry :=
  calls.foldl after r

def Asked (typeName : String) (calls : List Call) : Prop :=
  ∃ seed, .create seed ∈ calls ∧ seed.typeName = typeName

variable {r : Registry} {catalogue : Catalogue} {typeName : String} {seed : Seed}
  {calls before since : List Call} {call : Call}

theorem run_append (r : Registry) (first more : List Call) :
    r.run (first ++ more) = (r.run first).run more :=
  List.foldl_append ..

theorem asked_append_create :
    Asked typeName (calls ++ [.create seed]) ↔ Asked typeName calls ∨ seed.typeName = typeName := by
  constructor
  · rintro ⟨other, hmem, hname⟩
    rcases List.mem_append.mp hmem with hmem | hmem
    · exact .inl ⟨other, hmem, hname⟩
    · obtain rfl : other = seed := by simpa using hmem
      exact .inr hname
  · rintro (⟨other, hmem, hname⟩ | hname)
    · exact ⟨other, List.mem_append_left _ hmem, hname⟩
    · exact ⟨seed, List.mem_append_right _ List.mem_cons_self, hname⟩

theorem asked_append_of_ne (h : ∀ seed, call ≠ .create seed) :
    Asked typeName (calls ++ [call]) ↔ Asked typeName calls := by
  refine exists_congr fun seed => and_congr_left fun _ => ?_
  simp [Ne.symm (h seed)]

/-- The last entry of the type declares it only, and a node of it has been asked for. -/
def Dropped (catalogue : Catalogue) (since : List Call) (typeName : String) : Prop :=
  catalogue.last? typeName = some none ∧ Asked typeName since

-- ---------------------------------------------------------------------------
-- What one call does
-- ---------------------------------------------------------------------------

/-- The registry has taken the catalogue, and has answered these calls since then. -/
structure Stands (catalogue : Catalogue) (since : List Call) (r : Registry) : Prop where
  built : r.built = true
  kept : ∀ typeName, ¬Dropped catalogue since typeName →
    r.types.get? typeName = catalogue.last? typeName
  dropped : ∀ typeName, Dropped catalogue since typeName → r.types.get? typeName = none
  provider : ∀ typeName, r.provider? typeName = catalogue.lastProvider? typeName

theorem stands_ofCatalogue (catalogue : Catalogue) :
    Stands catalogue [] (ofCatalogue catalogue) where
  built := rfl
  kept typeName _ := catalogue.get?_types typeName
  dropped _ := by
    rintro ⟨-, _, hmem, -⟩
    cases hmem
  provider := catalogue.provider?_ofCatalogue

theorem Stands.append_of_ne (h : Stands catalogue since r) (hcall : ∀ seed, call ≠ .create seed) :
    Stands catalogue (since ++ [call]) r := by
  have hsame (typeName : String) :
      Dropped catalogue (since ++ [call]) typeName ↔ Dropped catalogue since typeName :=
    and_congr_right fun _ => asked_append_of_ne hcall
  exact ⟨h.built, fun t ht => h.kept t (mt (hsame t).mpr ht),
    fun t ht => h.dropped t ((hsame t).mp ht), h.provider⟩

theorem build_of_built (h : r.built = true) (other : Catalogue) : r.build other = r := by
  simp [build, h]

theorem create_of_built_type (h : r.types.get? seed.typeName ≠ some none) :
    (r.create seed).2 = r := by
  unfold create
  split
  · rfl
  · rfl
  · rename_i hdeclared
    exact absurd hdeclared h

theorem Stands.append_create (h : Stands catalogue since r)
    (hseed : r.types.get? seed.typeName ≠ some none) :
    Stands catalogue (since ++ [.create seed]) r where
  built := h.built
  provider := h.provider
  kept t ht := by
    refine h.kept t fun hdropped => ht ⟨hdropped.1, ?_⟩
    exact asked_append_create.mpr (.inl hdropped.2)
  dropped t := by
    rintro ⟨hdeclared, hasked⟩
    by_cases hearlier : Asked t since
    · exact h.dropped t ⟨hdeclared, hearlier⟩
    · -- the seed is the first one of the type, which would still be there
      have hname : seed.typeName = t := (asked_append_create.mp hasked).resolve_left hearlier
      rw [hname, h.kept t fun hdropped => hearlier hdropped.2] at hseed
      exact absurd hdeclared hseed

theorem Stands.erase (h : Stands catalogue since r)
    (hseed : r.types.get? seed.typeName = some none) :
    Stands catalogue (since ++ [.create seed])
      { r with types := r.types.erase seed.typeName } where
  built := h.built
  provider := h.provider
  kept t ht := by
    have hearlier : ¬Dropped catalogue since t := fun hdropped =>
      ht ⟨hdropped.1, asked_append_create.mpr (.inl hdropped.2)⟩
    have hne : seed.typeName ≠ t := by
      intro hname
      refine ht ⟨?_, asked_append_create.mpr (.inr hname)⟩
      rw [← h.kept t hearlier, ← hname, hseed]
    rw [Table.get?_erase, if_neg hne]
    exact h.kept t hearlier
  dropped t := by
    rintro ⟨hdeclared, hasked⟩
    rw [Table.get?_erase]
    split
    · rfl
    · rename_i hne
      exact h.dropped t ⟨hdeclared, (asked_append_create.mp hasked).resolve_right hne⟩

theorem Stands.step (h : Stands catalogue since r) (call : Call) :
    Stands catalogue (since ++ [call]) (r.after call) := by
  cases call with
  | build other =>
    rw [after, build_of_built h.built]
    exact h.append_of_ne nofun
  | create seed =>
    by_cases hseed : r.types.get? seed.typeName = some none
    · have hcreate : (r.create seed).2 = { r with types := r.types.erase seed.typeName } := by
        simp [create, hseed]
      rw [after, hcreate]
      exact h.erase hseed
    · rw [after, create_of_built_type hseed]
      exact h.append_create hseed
  | provider typeName => exact h.append_of_ne nofun
  | contains typeName => exact h.append_of_ne nofun

theorem stands_run (catalogue : Catalogue) (since : List Call) :
    Stands catalogue since ((ofCatalogue catalogue).run since) := by
  induction since using List.reverseRecOn with
  | nil => exact stands_ofCatalogue catalogue
  | append_singleton since call ih =>
    rw [run_append]
    exact ih.step call

-- ---------------------------------------------------------------------------
-- What is answered
-- ---------------------------------------------------------------------------

theorem Stands.contains_iff (h : Stands catalogue since r) (typeName : String) :
    r.contains typeName = true ↔
      typeName ∈ catalogue.typeNames ∧ ¬Dropped catalogue since typeName := by
  rw [contains, Table.contains]
  by_cases hdropped : Dropped catalogue since typeName
  · simp [h.dropped typeName hdropped, hdropped]
  · rw [h.kept typeName hdropped, Catalogue.isSome_last?_iff]
    exact ⟨fun hmem => ⟨hmem, hdropped⟩, And.left⟩

theorem Stands.create_eq (h : Stands catalogue since r) (seed : Seed) :
    (r.create seed).1 = (catalogue.last? seed.typeName).join.bind (· seed) := by
  by_cases hdropped : Dropped catalogue since seed.typeName
  · simp [create, h.dropped _ hdropped, hdropped.1]
  · rw [create, h.kept _ hdropped]
    rcases catalogue.last? seed.typeName with _ | _ | factory <;> rfl

theorem Stands.create_keeps (h : Stands catalogue since r)
    (hlast : catalogue.last? seed.typeName ≠ some none) : (r.create seed).2 = r := by
  refine create_of_built_type ?_
  rwa [h.kept _ fun hdropped => hlast hdropped.1]

/-- Before it is built a registry is empty, and being asked does not change that. -/
theorem run_unbuilt (h : ∀ catalogue, .build catalogue ∉ calls) : empty.run calls = empty := by
  induction calls with
  | nil => rfl
  | cons call rest ih =>
    have hrest := ih fun catalogue hmem => h catalogue (List.mem_cons_of_mem _ hmem)
    cases call with
    | build catalogue => exact absurd List.mem_cons_self (h catalogue)
    | create seed => exact hrest
    | provider typeName => exact hrest
    | contains typeName => exact hrest

/-- Whatever calls came before and after it, the first catalogue decides. A type makes the nodes
of its last entry, and is there as long as this entry has a factory or no node of the type has
been asked for. Nodes that a factory declines to make, providers and later catalogues change
nothing, and neither do calls before the catalogue, which find no type. -/
theorem run_outcome (hbefore : ∀ catalogue, .build catalogue ∉ before) (catalogue : Catalogue)
    (since : List Call) :
    let unbuilt := empty.run before
    let r := empty.run (before ++ .build catalogue :: since)
    (∀ typeName, r.contains typeName = true ↔ typeName ∈ catalogue.typeNames ∧
      ¬(catalogue.last? typeName = some none ∧ Asked typeName since)) ∧
    (∀ seed, (r.create seed).1 = (catalogue.last? seed.typeName).join.bind (· seed) ∧
      (catalogue.last? seed.typeName ≠ some none → (r.create seed).2 = r)) ∧
    (∀ typeName, r.provider? typeName = catalogue.lastProvider? typeName) ∧
    (∀ other, r.build other = r) ∧
    (∀ seed, unbuilt.create seed = (none, unbuilt)) ∧
    r = empty.run (.build catalogue :: since) := by
  intro unbuilt r
  have hunbuilt : unbuilt = empty := run_unbuilt hbefore
  have hr : r = (ofCatalogue catalogue).run since := by
    change empty.run (before ++ .build catalogue :: since) = _
    rw [run_append, run_unbuilt hbefore]
    rfl
  have h : Stands catalogue since r := hr ▸ stands_run catalogue since
  refine ⟨h.contains_iff, fun seed => ⟨h.create_eq seed, h.create_keeps⟩, h.provider,
    build_of_built h.built, fun seed => ?_, hr⟩
  rw [hunbuilt]
  rfl

/-- Of two types that were entered twice, one keeps the factory that came last and the other one
is only declared in the end. A third one never makes a node. -/
theorem run_outcome_repeated :
    let factory : Factory := fun seed => some (.dataObject (.ofProperties seed.key .null))
    let catalogue : Catalogue :=
      { nodes := [("a", none), ("b", some factory), ("a", some factory), ("b", none),
          ("c", some fun _ => none)]
        providers := [] }
    let seed (typeName : String) : Seed :=
      { key := "k", typeName, feature := "f", properties := .null }
    let before := [Call.create (seed "b"), .contains "a"]
    let since := [Call.create (seed "a"), .create (seed "b"), .create (seed "c"),
      .build { nodes := [("b", some factory)], providers := [] }, .provider "b"]
    let r := empty.run (before ++ .build catalogue :: since)
    (∀ catalogue, .build catalogue ∉ before) ∧
      r.contains "a" = true ∧ r.contains "b" = false ∧ r.contains "c" = true ∧
      ((r.create (seed "a")).1.map Node.key) = some "k" ∧ (r.create (seed "b")).1 = none := by
  intro factory catalogue seed before since r
  have hbefore : ∀ catalogue, .build catalogue ∉ before := by simp [before]
  obtain ⟨hcontains, hcreate, -⟩ := run_outcome hbefore catalogue since
  have hasked : Asked "b" since := ⟨seed "b", by simp [since], rfl⟩
  refine ⟨hbefore, (hcontains "a").mpr ⟨by decide, fun h => nomatch h.1⟩,
    Bool.eq_false_iff.mpr fun h => ((hcontains "b").mp h).2 ⟨rfl, hasked⟩,
    (hcontains "c").mpr ⟨by decide, fun h => nomatch h.1⟩, ?_, (hcreate (seed "b")).1⟩
  exact congrArg (Option.map Node.key) (hcreate (seed "a")).1

end Registry

end FeatureFlow
