import FeatureFlow.Proofs.Features.FirstUse

/-!
# What resolving reaches

Resolving a tree looks at its root, at the fields or entries of the root, and at the entries of
its fields, and only where these are texts (`Looked`). Each of them becomes what the text alone
would become, and the tree is otherwise the same (`Rewritten`), as long as the source gives each
key one answer (`Source.Steady`). The data objects of a feature do so where none of them takes
anything from the payload or goes back to itself (`Scope.steady_dataObject`).
-/

namespace FeatureFlow

-- ---------------------------------------------------------------------------
-- Positions
-- ---------------------------------------------------------------------------

namespace Property

/-- To a field of a map or to an entry of a list, by its place among the others. -/
inductive Step where
  | field (index : Nat)
  | entry (index : Nat)
deriving DecidableEq

def child? : Property → Step → Option Property
  | map fields, .field index => fields[index]?.map (·.2)
  | list items, .entry index => items[index]?
  | _, _ => none

def at? (p : Property) : List Step → Option Property
  | [] => some p
  | step :: rest => (p.child? step).bind (·.at? rest)

theorem at?_cons (p : Property) (step : Step) (rest : List Step) :
    p.at? (step :: rest) = (p.child? step).bind (·.at? rest) := by
  rw [at?]

end Property

open Property (Step)

/-- From one tree to the other one, maps keep their keys and lists their length. A text at a
position that is looked at becomes its word, and whatever has no such text in it stays. -/
structure Rewritten (looked : List Step → Prop) (word : String → Property)
    (p after : Property) : Prop where
  maps : ∀ path fields, p.at? path = some (.map fields) →
    ∃ results, after.at? path = some (.map results) ∧ Fields.keys results = Fields.keys fields
  lists : ∀ path items, p.at? path = some (.list items) →
    ∃ results, after.at? path = some (.list results) ∧ results.length = items.length
  texts : ∀ path text, looked path → p.at? path = some (.text text) →
    after.at? path = some (word text)
  others : ∀ path q, p.at? path = some q →
    (∀ more text, looked (path ++ more) → q.at? more ≠ some (.text text)) →
    after.at? path = some q

namespace Rewritten

variable {looked inner : List Step → Prop} {word : String → Property} {p after : Property}
  {f : Property → Property} {items : List Property} {fields : List (String × Property)}

theorem same (h : ∀ path text, looked path → p.at? path ≠ some (.text text)) :
    Rewritten looked word p p where
  maps _ fields hmap := ⟨fields, hmap, rfl⟩
  lists _ items hlist := ⟨items, hlist, rfl⟩
  texts path text hlooked htext := absurd htext (h path text hlooked)
  others _ _ hq _ := hq

theorem text (hroot : looked []) (text : String) :
    Rewritten looked word (.text text) (word text) where
  maps path _ hmap := by cases path <;> cases hmap
  lists path _ hlist := by cases path <;> cases hlist
  texts path other _ hother := by
    cases path with
    | nil =>
      obtain rfl := Property.text.inj (Option.some.inj hother)
      rfl
    | cons => cases hother
  others path q hq hno := by
    cases path with
    | nil =>
      obtain rfl := Option.some.inj hq
      exact absurd rfl (hno [] text hroot)
    | cons => cases hq

theorem of_children (hchild : ∀ step, after.child? step = (p.child? step).map f)
    (hinner : ∀ step child, p.child? step = some child → Rewritten inner word child (f child))
    (hlooked : ∀ step child rest, p.child? step = some child →
      (looked (step :: rest) ↔ inner rest))
    (hmap : ∀ fields, p = .map fields →
      ∃ results, after = .map results ∧ Fields.keys results = Fields.keys fields)
    (hlist : ∀ items, p = .list items →
      ∃ results, after = .list results ∧ results.length = items.length)
    (htext : ∀ text, p ≠ .text text)
    (hsame : (∀ step child, p.child? step = some child → f child = child) → after = p) :
    Rewritten looked word p after := by
  -- a position below the root is one in a child
  have hbelow {step : Step} {rest : List Step} {q : Property}
      (hq : p.at? (step :: rest) = some q) :
      ∃ child, p.child? step = some child ∧ child.at? rest = some q ∧
        after.at? (step :: rest) = (f child).at? rest := by
    rw [Property.at?_cons, Option.bind_eq_some_iff] at hq
    obtain ⟨child, hstep, hrest⟩ := hq
    refine ⟨child, hstep, hrest, ?_⟩
    rw [Property.at?_cons, hchild, hstep]
    rfl
  constructor
  case maps =>
    rintro (_ | ⟨step, rest⟩) fields hfields
    · obtain ⟨results, rfl, hkeys⟩ := hmap fields (Option.some.inj hfields)
      exact ⟨results, rfl, hkeys⟩
    · obtain ⟨child, hstep, hrest, hafter⟩ := hbelow hfields
      rw [hafter]
      exact (hinner step child hstep).maps rest fields hrest
  case lists =>
    rintro (_ | ⟨step, rest⟩) items hitems
    · obtain ⟨results, rfl, hlength⟩ := hlist items (Option.some.inj hitems)
      exact ⟨results, rfl, hlength⟩
    · obtain ⟨child, hstep, hrest, hafter⟩ := hbelow hitems
      rw [hafter]
      exact (hinner step child hstep).lists rest items hrest
  case texts =>
    rintro (_ | ⟨step, rest⟩) text hpath hvalue
    · exact absurd (Option.some.inj hvalue) (htext text)
    · obtain ⟨child, hstep, hrest, hafter⟩ := hbelow hvalue
      rw [hafter]
      exact (hinner step child hstep).texts rest text ((hlooked step child rest hstep).mp hpath)
        hrest
  case others =>
    rintro (_ | ⟨step, rest⟩) q hq hno
    · obtain rfl := Option.some.inj hq
      refine congrArg some (hsame fun step child hstep => ?_)
      have hkept := (hinner step child hstep).others [] child rfl fun more text hmore htext => by
        refine hno (step :: more) text ((hlooked step child more hstep).mpr hmore) ?_
        rw [Property.at?_cons, hstep]
        exact htext
      exact Option.some.inj hkept
    · obtain ⟨child, hstep, hrest, hafter⟩ := hbelow hq
      rw [hafter]
      exact (hinner step child hstep).others rest q hrest fun more text hmore =>
        hno more text ((hlooked step child (rest ++ more) hstep).mpr hmore)

theorem list (hitems : ∀ item ∈ items, Rewritten inner word item (f item))
    (hlooked : ∀ index rest, looked (.entry index :: rest) ↔ inner rest) :
    Rewritten looked word (.list items) (.list (items.map f)) := by
  have hentry {step : Step} {child : Property}
      (h : (Property.list items).child? step = some child) :
      ∃ index, step = .entry index ∧ items[index]? = some child := by
    cases step with
    | field index => cases h
    | entry index => exact ⟨index, rfl, h⟩
  have hinner (step : Step) (child : Property)
      (h : (Property.list items).child? step = some child) :
      Rewritten inner word child (f child) := by
    obtain ⟨index, -, hchild⟩ := hentry h
    exact hitems child (List.mem_of_getElem? hchild)
  refine of_children ?child hinner ?looked nofun ?list nofun ?same
  case child =>
    rintro (index | index)
    · rfl
    · exact List.getElem?_map ..
  case looked =>
    intro step child rest h
    obtain ⟨index, rfl, -⟩ := hentry h
    exact hlooked index rest
  case list =>
    intro others hothers
    obtain rfl := Property.list.inj hothers
    exact ⟨_, rfl, List.length_map ..⟩
  case same =>
    intro h
    refine congrArg Property.list ((List.map_congr_left fun item hitem => ?_).trans (List.map_id _))
    obtain ⟨index, hindex⟩ := List.mem_iff_getElem?.mp hitem
    exact h (.entry index) item hindex

theorem map (hfields : ∀ field ∈ fields, Rewritten inner word field.2 (f field.2))
    (hlooked : ∀ index rest, looked (.field index :: rest) ↔ inner rest) :
    Rewritten looked word (.map fields) (.map (fields.map fun (key, value) => (key, f value))) := by
  have hfield {step : Step} {child : Property}
      (h : (Property.map fields).child? step = some child) :
      ∃ index key, step = .field index ∧ fields[index]? = some (key, child) := by
    cases step with
    | field index =>
      obtain ⟨⟨key, value⟩, hindex, rfl⟩ := Option.map_eq_some_iff.mp h
      exact ⟨index, key, rfl, hindex⟩
    | entry index => cases h
  have hinner (step : Step) (child : Property)
      (h : (Property.map fields).child? step = some child) :
      Rewritten inner word child (f child) := by
    obtain ⟨index, key, -, hchild⟩ := hfield h
    exact hfields (key, child) (List.mem_of_getElem? hchild)
  refine of_children ?child hinner ?looked ?map nofun nofun ?same
  case child =>
    rintro (index | index)
    · simp [Property.child?, Function.comp_def]
    · rfl
  case looked =>
    intro step child rest h
    obtain ⟨index, key, rfl, -⟩ := hfield h
    exact hlooked index rest
  case map =>
    intro others hothers
    obtain rfl := Property.map.inj hothers
    exact ⟨_, rfl, by simp [Fields.keys, Function.comp_def]⟩
  case same =>
    intro h
    refine congrArg Property.map ((List.map_congr_left fun field hmem => ?_).trans (List.map_id _))
    obtain ⟨index, hindex⟩ := List.mem_iff_getElem?.mp hmem
    exact Prod.ext rfl (h (.field index) field.2 (by simp [Property.child?, hindex]))

end Rewritten

-- ---------------------------------------------------------------------------
-- Steady sources
-- ---------------------------------------------------------------------------

/-- From every state of a kind the source leads to states of this kind, and it answers each key
alike in all of them. -/
structure Source.Steady (source : Source (StateM σ)) (Holds : σ → Prop) : Prop where
  keeps : ∀ key s, Holds s → Holds ((source key).run s).2
  same : ∀ key s t, Holds s → Holds t → ((source key).run s).1 = ((source key).run t).1

namespace Source.Steady

variable {source : Source (StateM σ)} {Holds : σ → Prop} {s t : σ} {keys : List String}

theorem run_mapM (h : source.Steady Holds) (hs : Holds s) (ht : Holds t) :
    ((keys.mapM source).run t).1 = keys.map fun key => ((source key).run s).1 := by
  induction keys generalizing t with
  | nil => rfl
  | cons key rest ih =>
    rw [List.mapM_cons]
    exact congrArg₂ List.cons (h.same key t s ht hs) (ih (h.keeps key t ht))

theorem run_of_asks (h : source.Steady Holds) (hs : Holds s) (ht : Holds t)
    {x : (m : Type → Type) → [Monad m] → Source m → m α} (hx : Asks keys x) :
    ((x (StateM σ) source).run t).1 = (x Id fun key => pure ((source key).run s).1).run := by
  obtain ⟨conclude, hx⟩ := hx
  rw [hx, hx]
  refine congrArg conclude ((h.run_mapM hs ht).trans ?_)
  rw [List.mapM_pure]
  rfl

end Source.Steady

/-- The data objects of a feature are the same whenever they are looked up, where they take
nothing from the payload and none of them goes back to itself. -/
theorem Scope.steady_dataObject {s : Scope} (hstatic : s.manifest.Static) (a : Inventory) :
    Source.Steady s.dataObject (s.Settled a) where
  keeps key b hb := (gives_dataObject hstatic a s.payload key b hb).2
  same key b c hb hc := by
    have hgives := gives_dataObject hstatic a s.payload key
    exact (hgives b hb).1.trans (hgives c hc).1.symm

namespace Expression

-- ---------------------------------------------------------------------------
-- Resolving a tree
-- ---------------------------------------------------------------------------

/-- The root, its fields and entries, and the entries of its fields. -/
inductive Looked : List Step → Prop
  | root : Looked []
  | field (index : Nat) : Looked [.field index]
  | entry (index : Nat) : Looked [.entry index]
  | fieldEntry (index place : Nat) : Looked [.field index, .entry place]

/-- The part of these positions that a property of a map has. -/
inductive LookedInside : List Step → Prop
  | root : LookedInside []
  | entry (index : Nat) : LookedInside [.entry index]

variable {payload p : Property} {source : Source Id}

def wordOf (payload : Property) (source : Source Id) (text : String) : Property :=
  (resolveText payload source text).run.getD (.text text)

theorem rewritten_leaf {looked : List Step → Prop} (hroot : looked [])
    (hbelow : ∀ step rest text, looked (step :: rest) → p.at? (step :: rest) ≠ some (.text text)) :
    Rewritten looked (wordOf payload source) p (resolveLeaf payload source p).run := by
  have hsame (htext : ∀ text, p ≠ .text text) : Rewritten looked (wordOf payload source) p p := by
    refine .same fun path text hlooked => ?_
    cases path with
    | nil => exact fun h => htext text (Option.some.inj h)
    | cons step rest => exact hbelow step rest text hlooked
  cases p with
  | text value => exact .text hroot value
  | _ => exact hsame nofun

theorem rewritten_items {looked : List Step → Prop} {items : List Property}
    (hlooked : ∀ index rest, looked (.entry index :: rest) ↔ rest = []) :
    Rewritten looked (wordOf payload source) (.list items)
      (resolveProperty payload source (.list items)).run := by
  have hresolve : (resolveProperty payload source (.list items)).run =
      .list (items.map fun item => (resolveLeaf payload source item).run) := by
    simp [resolveProperty]
  have hleaf (item : Property) : Rewritten (· = []) (wordOf payload source) item
      (resolveLeaf payload source item).run := rewritten_leaf rfl nofun
  rw [hresolve]
  exact .list (fun item _ => hleaf item) hlooked

theorem rewritten_property (payload : Property) (source : Source Id) (p : Property) :
    Rewritten LookedInside (wordOf payload source) p (resolveProperty payload source p).run := by
  by_cases hlist : ∃ items, p = .list items
  · obtain ⟨items, rfl⟩ := hlist
    refine rewritten_items fun index rest => ⟨fun h => ?_, fun h => h ▸ .entry index⟩
    cases h
    rfl
  · have hleaf : resolveProperty payload source p = resolveLeaf payload source p := by
      unfold resolveProperty
      split <;> simp_all
    rw [hleaf]
    refine rewritten_leaf .root fun step rest text hlooked => ?_
    cases hlooked
    cases p with
    | list items => exact absurd ⟨items, rfl⟩ hlist
    | _ => exact nofun

theorem rewritten_tree (payload : Property) (source : Source Id) (p : Property) :
    Rewritten Looked (wordOf payload source) p (resolve payload source p).run := by
  cases p with
  | map fields =>
    have hresolve : (resolve payload source (.map fields)).run =
        .map (fields.map fun (key, value) =>
          (key, (resolveProperty payload source value).run)) := by
      simp [resolve]
    rw [hresolve]
    refine .map (fun field _ => rewritten_property payload source field.2) fun index rest => ?_
    constructor
    · rintro (_ | _ | _ | _)
      · exact .root
      · exact .entry _
    · rintro (_ | _)
      · exact .field index
      · exact .fieldEntry index _
  | list items =>
    refine rewritten_items fun index rest => ⟨fun h => ?_, fun h => h ▸ .entry index⟩
    cases h
    rfl
  | _ => exact rewritten_leaf .root nofun

/-- Resolving keeps the shape of a tree. A text that it looks at becomes what the text becomes by
itself, in whatever state the source is then, and where it looks at no text nothing changes. -/
theorem rewritten_resolve {source : Source (StateM σ)} {Holds : σ → Prop}
    (hsource : source.Steady Holds) (hs : Holds s) (payload p : Property) :
    ∃ word : String → Property,
      (∀ text t, Holds t →
        word text = ((resolveText payload source text).run t).1.getD (.text text)) ∧
      ∀ t, Holds t → Rewritten Looked word p ((resolve payload source p).run t).1 := by
  let answers : Source Id := fun key => pure ((source key).run s).1
  refine ⟨wordOf payload answers, fun text t ht => ?_, fun t ht => ?_⟩
  · rw [hsource.run_of_asks hs ht (asks_resolveText payload text)]
    rfl
  · rw [hsource.run_of_asks hs ht (asks_resolve payload p)]
    exact rewritten_tree payload answers p

/-- Data objects are built on the way, and texts stay that are a list or a map too deep. -/
theorem rewritten_resolve_layers :
    let s := Orchestrator.layers.scope .null
    let a : Inventory := { objects := ∅, registry := .ofCatalogue .trial }
    let deeper : Property := .list [.text "\x7bbase.text\x7d"]
    let nested : Property := .map [("x", .text "\x7bbase.text\x7d")]
    let p : Property := .map
      [("items", .list [.text "\x7bmiddle\x7d", .boolean true, deeper]), ("nested", nested),
        ("title", .text "On \x7bbase.text\x7d, \x7bnowhere.text\x7d")]
    let after := ((resolve .null s.dataObject p).run a).1
    Source.Steady s.dataObject (s.Settled a) ∧ s.Settled a a ∧
      (∃ fields, after = .map fields ∧ Fields.keys fields = ["items", "nested", "title"]) ∧
      (∃ items, after.at? [.field 0] = some (.list items) ∧ items.length = 3) ∧
      (after.at? [.field 0, .entry 0]).bind Property.node? =
        some { feature := "layers", registration := 0, key := "middle" } ∧
      after.at? [.field 0, .entry 2] = some deeper ∧ after.at? [.field 1] = some nested ∧
      (after.at? [.field 2]).bind Property.text? = some "On ground, \x7bnowhere.text\x7d" := by
  intro s a deeper nested p after
  have hsteady : Source.Steady s.dataObject (s.Settled a) :=
    Scope.steady_dataObject Orchestrator.static_layers a
  have hsettled : s.Settled a a := .refl s a
  obtain ⟨word, hword, hrewritten⟩ := rewritten_resolve hsteady hsettled .null p
  have h : Rewritten Looked word p after := hrewritten a hsettled
  have hvalue {path : List Step} {text : String} (hlooked : Looked path)
      (hp : p.at? path = some (.text text)) : after.at? path =
        some (((resolveText .null s.dataObject text).run a).1.getD (.text text)) := by
    rw [h.texts path text hlooked hp, hword text a hsettled]
  refine ⟨hsteady, hsettled, ?keys, h.lists [.field 0] _ rfl, ?entry, h.others _ _ rfl ?deeper,
    h.others _ _ rfl ?nested, ?title⟩
  case keys =>
    obtain ⟨fields, hfields, hkeys⟩ := h.maps [] _ rfl
    exact ⟨fields, Option.some.inj hfields, hkeys⟩
  case entry =>
    rw [hvalue (.fieldEntry 0 0) rfl]
    decide +kernel
  case deeper =>
    intro more text hlooked htext
    cases hlooked
    simp [deeper, Property.at?] at htext
  case nested =>
    intro more text hlooked htext
    cases hlooked <;> simp [nested, Property.at?, Property.child?] at htext
  case title =>
    rw [hvalue (.field 2) rfl]
    decide +kernel

end Expression

end FeatureFlow
