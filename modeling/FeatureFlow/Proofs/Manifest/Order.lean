import FeatureFlow.Proofs.Features.Isolation
import FeatureFlow.Proofs.Manifest.Cycles
import FeatureFlow.Proofs.Manifest.Findings

/-!
# The order of a manifest

Components and data objects are found by their keys, so where no key is repeated the order
of their lists does not matter: the manifest that is read is the same (`ofObject_of_rearranged`),
and every run goes the same way (`alike_rearranged`). Nor does it matter in which order the
definitions are gone through for the diagnostics, whose texts are sorted (`texts_of_covers`).
-/

namespace FeatureFlow

theorem Table.ofList_congr {a b : List (String × α)} (h : a.Perm b)
    (hkeys : (Fields.keys b).Nodup) : ofList a = ofList b := by
  have hreversed : (Fields.keys b.reverse).Nodup := by
    rw [Fields.keys, List.map_reverse]
    exact List.nodup_reverse.mpr hkeys
  refine ext_get? fun key => ?_
  rw [get?_ofList, get?_ofList]
  exact Fields.get?_of_perm ((a.reverse_perm.trans h).trans b.reverse_perm.symm) hreversed key

attribute [ext] Manifest

namespace Manifest

-- ---------------------------------------------------------------------------
-- Lists in another order
-- ---------------------------------------------------------------------------

inductive PermutedField (name : String) (root other : Json.Object) : Prop
  | same (h : Fields.get? name other = Fields.get? name root)
  | list (hroot : Fields.get? name root = some (.array listed))
      (hother : Fields.get? name other = some (.array moved)) (h : moved.Perm listed)

/-- The other document has the components and the data objects of the first one in some order.
No two entries that decode have one key. -/
structure Rearranged (root other : Json.Object) : Prop where
  components : PermutedField ManifestDocument.componentsName root other
  dataObjects : PermutedField ManifestDocument.dataObjectsName root other
  providers : Fields.get? ManifestDocument.providersName other =
    Fields.get? ManifestDocument.providersName root
  distinctComponents : (entryKeys root .component).Nodup
  distinctDataObjects : (entryKeys root .dataObject).Nodup

variable {keyOf : α → String} {name : String} {root other : Json.Object} {m : Manifest}

theorem PermutedField.keysIn_perm (h : PermutedField name root other) (decode : Json → Decoded α)
    (keyOf : α → String) :
    (keysIn decode keyOf name other).Perm (keysIn decode keyOf name root) := by
  cases h with
  | same h => simp only [keysIn, items, h, List.Perm.refl]
  | list hroot hother h =>
    simp only [keysIn, items, hroot, hother]
    exact (h.filterMap _).map keyOf

/-- The entries may be put through a function that does not change their keys. -/
theorem PermutedField.table_eq (h : PermutedField name root other) (decode : Json → Decoded α)
    (f : α → α) (hf : ∀ d, keyOf (f d) = keyOf d)
    (hkeys : (keysIn decode keyOf name root).Nodup) :
    (entries decode name other).map
        (fun list => Table.ofList ((list.map f).map fun d => (keyOf d, d))) =
      (entries decode name root).map
        fun list => Table.ofList ((list.map f).map fun d => (keyOf d, d)) := by
  cases h with
  | same h => simp only [entries, h]
  | list hroot hother h =>
    simp only [keysIn, items, hroot, Option.bind_some, Json.array?, Option.getD_some] at hkeys
    simp only [entries, hroot, hother, Option.map_some]
    refine congrArg some (Table.ofList_congr (((h.filterMap _).map f).map _) ?_)
    simpa [Fields.keys, Function.comp_def, hf] using hkeys

theorem again_of_nodup {keys : List String} (h : keys.Nodup) : again keys = [] := by
  rw [← repeated_nil]
  exact repeated_of_nodup h (by simp)

theorem ofObject_of_rearranged (feature : String) (h : Rearranged root other) :
    ofObject feature other = ofObject feature root := by
  have hcomponents := h.components.table_eq ComponentDefinition.decode (delegated feature)
    (key_delegated feature) h.distinctComponents
  have hdataObjects := h.dataObjects.table_eq DataObjectDefinition.decode id (fun _ => rfl)
    h.distinctDataObjects
  have hproviders : entries ProviderDefinition.decode ManifestDocument.providersName other =
      entries ProviderDefinition.decode ManifestDocument.providersName root := by
    simp only [entries, h.providers]
  have hrepeats : (ofObject feature other).repeats = (ofObject feature root).repeats := by
    have hcomponentKeys : (entryKeys other .component).Nodup :=
      (h.components.keysIn_perm ..).nodup_iff.mpr h.distinctComponents
    have hdataObjectKeys : (entryKeys other .dataObject).Nodup :=
      (h.dataObjects.keysIn_perm ..).nodup_iff.mpr h.distinctDataObjects
    have hproviderKeys : entryKeys other .provider = entryKeys root .provider := by
      simp only [entryKeys, keysIn, items, h.providers]
    simp only [repeats_ofObject, List.flatMap_cons, List.flatMap_nil, hproviderKeys,
      again_of_nodup h.distinctComponents, again_of_nodup h.distinctDataObjects,
      again_of_nodup hcomponentKeys, again_of_nodup hdataObjectKeys]
  refine Manifest.ext rfl ?_ ?_ ?_ ?_ hrepeats
  · simpa only [ofObject, Option.map_map, Function.comp_def] using hcomponents
  · simpa only [ofObject, List.map_id] using hdataObjects
  · simp only [ofObject, hproviders]
  · simp only [ofObject, hproviders]

-- ---------------------------------------------------------------------------
-- Diagnostics in any order
-- ---------------------------------------------------------------------------

/-- The definitions of a manifest as somebody goes through them, and what they tell of the
routes. -/
structure Pass where
  components : List ComponentDefinition
  dataObjects : List DataObjectDefinition
  analysis : Analysis

/-- It goes through all definitions, in any order, and is right about the routes. -/
structure Pass.Covers (m : Manifest) (p : Pass) : Prop where
  components : p.components.Perm m.componentTable.values
  dataObjects : p.dataObjects.Perm m.dataObjectTable.values
  analysis : p.analysis.Right m

def diagnosticsIn (m : Manifest) (p : Pass) : List Diagnostic :=
  m.repeats.map (fun (kind, key) => .duplicateKey kind key) ++
    sortedByText
      ((p.components.flatMap fun d => m.danglingTargets d ++ m.danglingProvider d.key d.provider) ++
        p.dataObjects.flatMap fun d => m.danglingProvider d.key d.provider) ++
    sortedByText ((p.analysis.cycles m).map .routingCycle)

theorem texts_sortedByText {a b : List Diagnostic} (h : a.Perm b) :
    (sortedByText a).map Diagnostic.text = (sortedByText b).map Diagnostic.text := by
  have hperm : (sortedByText a).Perm (sortedByText b) :=
    ((List.mergeSort_perm ..).trans h).trans (List.mergeSort_perm ..).symm
  refine (hperm.map Diagnostic.text).eq_of_pairwise (fun _ _ _ _ => String.le_antisymm) ?_ ?_
  · exact List.pairwise_map.mpr (pairwise_sortedByText a)
  · exact List.pairwise_map.mpr (pairwise_sortedByText b)

theorem texts_of_covers {p : Pass} (h : p.Covers m) :
    (m.diagnosticsIn p).map Diagnostic.text = m.diagnostics.map Diagnostic.text := by
  have hdangling := texts_sortedByText <|
    (h.components.flatMap_right fun d =>
      m.danglingTargets d ++ m.danglingProvider d.key d.provider).append
    (h.dataObjects.flatMap_right fun d => m.danglingProvider d.key d.provider)
  have hcycles := texts_sortedByText (h.analysis.cycles_perm.map .routingCycle)
  simp only [diagnosticsIn, diagnostics, dangling, List.map_append, hdangling, hcycles]

def Pass.ofManifest (m : Manifest) : Pass where
  components := m.componentTable.values
  dataObjects := m.dataObjectTable.values
  analysis := .ofRoutes m

theorem covers_ofManifest (m : Manifest) : (Pass.ofManifest m).Covers m :=
  ⟨.refl _, .refl _, Analysis.right_ofRoutes m⟩

/-- Nothing that is looked up in two manifests tells them apart, and their diagnostics have the
same texts in the same order, however either of them is gone through. -/
structure Indistinct (m n : Manifest) : Prop where
  components : ∀ key, n.component? key = m.component? key
  dataObjects : ∀ key, n.dataObject? key = m.dataObject? key
  providers : ∀ key, n.provider? key = m.provider? key
  outputs : ∀ source port, n.outputs? source port = m.outputs? source port
  componentProviders : ∀ d, n.componentProvider? d = m.componentProvider? d
  dataObjectProviders : ∀ d, n.dataObjectProvider? d = m.dataObjectProvider? d
  texts : n.diagnostics.map Diagnostic.text = m.diagnostics.map Diagnostic.text
  textsInAnyOrder : ∀ p q : Pass, p.Covers m → q.Covers n →
    (n.diagnosticsIn q).map Diagnostic.text = (m.diagnosticsIn p).map Diagnostic.text

theorem Indistinct.refl (m : Manifest) : m.Indistinct m where
  components _ := rfl
  dataObjects _ := rfl
  providers _ := rfl
  outputs _ _ := rfl
  componentProviders _ := rfl
  dataObjectProviders _ := rfl
  texts := rfl
  textsInAnyOrder _ _ hp hq := (texts_of_covers hq).trans (texts_of_covers hp).symm

end Manifest

-- ---------------------------------------------------------------------------
-- Runs
-- ---------------------------------------------------------------------------

namespace Orchestrator

inductive Operation.Rearranged : Operation → Operation → Prop
  | same (operation : Operation) : Rearranged operation operation
  | register (feature : String) (h : Manifest.Rearranged root other) :
      Rearranged (.register feature root) (.register feature other)

theorem Operation.Rearranged.after {operation moved : Operation}
    (h : operation.Rearranged moved) (o : Orchestrator) (g : String) :
    o.after moved = o.after operation ∧ o.shown g moved = o.shown g operation := by
  cases h with
  | same => exact ⟨rfl, rfl⟩
  | register feature h =>
    simp only [Orchestrator.after, shown, outcomes, Manifest.ofObject_of_rearranged feature h,
      and_self]

theorem run_of_rearranged {xs ys : List Operation} (h : List.Forall₂ Operation.Rearranged xs ys)
    (o : Orchestrator) (g : String) :
    o.run ys = o.run xs ∧ shownAlong g ys o = shownAlong g xs o := by
  induction h generalizing o with
  | nil => exact ⟨rfl, rfl⟩
  | @cons operation moved xs ys hfirst _ ih =>
    obtain ⟨hafter, hshown⟩ := hfirst.after o g
    obtain ⟨hrun, hrest⟩ := ih (o.after operation)
    simp only [run] at hrun ⊢
    simp only [List.foldl_cons, shownAlong, hafter, hshown, hrun, hrest, and_self]

/-- The order of the components and of the data objects in a document with distinct keys tells
in no lookup, in no diagnostic and in no run: a run shows the same of every feature, and ends
with the same data objects, where documents that it registers are in another order. -/
theorem alike_rearranged (feature : String) (h : Manifest.Rearranged root other) :
    ∃ m n, Manifest.ofJson feature (.object root) = .ok m ∧
      Manifest.ofJson feature (.object other) = .ok n ∧ m.Indistinct n ∧
      (∃ p : Manifest.Pass, p.Covers m) ∧ (∃ q : Manifest.Pass, q.Covers n) ∧
      ∀ (o : Orchestrator) (xs ys : List Operation), List.Forall₂ Operation.Rearranged xs ys →
        let before := Operation.register feature root :: xs
        let after := Operation.register feature other :: ys
        o.run after = o.run before ∧ ∀ g, shownAlong g after o = shownAlong g before o := by
  have hmanifest := Manifest.ofObject_of_rearranged feature h
  refine ⟨_, _, rfl, rfl, hmanifest ▸ .refl _, ⟨_, Manifest.covers_ofManifest _⟩,
    ⟨_, Manifest.covers_ofManifest _⟩, fun o xs ys hruns => ?_⟩
  have hall := List.Forall₂.cons (Operation.Rearranged.register feature h) hruns
  exact ⟨(run_of_rearranged hall o feature).1, fun g => (run_of_rearranged hall o g).2⟩

/-- A circle of components, one of which also leads to nowhere, with data objects that are read
on the way. -/
def circle (components dataObjects : List Json → List Json) : Json.Object :=
  let node (key typeName : String) (more : Json.Object) : Json :=
    .object ([("keyName", .text key), ("typeName", .text typeName)] ++ more)
  let routed (key value : String) (targets : List Json) : Json :=
    node key "RelayComponent"
      [("props", .object [("output", .text value)]),
        ("outputs", .object [("next", .array targets)])]
  [("componentConfigs", .array (components
      [routed "first" "{box.text}" [.text "second", .text "nowhere"],
        routed "second" "{bag.text}" [.text "third"], routed "third" "" [.text "first"]])),
    ("dataObjectConfigs", .array (dataObjects
      [node "box" "ValueDataObject" [("providerKey", .text "unknown")],
        node "bag" "ValueDataObject" []])),
    ("providerConfigs", .array
      [node "components" "ComponentProvider" [], node "data" "ServerDataProvider" []])]

theorem alike_rearranged_circle :
    let o := { ofRegistry (.ofCatalogue .trial) with maxSteps := 5 }
    let root := circle id id
    let other := circle List.reverse List.reverse
    let steps := [Operation.performStep "circle" .null "first" true]
    root ≠ other ∧ (Manifest.ofObject "circle" root).dangling.length = 2 ∧
      Manifest.Rearranged root other ∧
      ∃ m n, Manifest.ofJson "circle" (.object root) = .ok m ∧
        Manifest.ofJson "circle" (.object other) = .ok n ∧ m.Indistinct n ∧
        shownAlong "circle" (.register "circle" other :: steps) o =
          shownAlong "circle" (.register "circle" root :: steps) o := by
  have h : Manifest.Rearranged (circle id id) (circle List.reverse List.reverse) :=
    { components := .list rfl rfl (List.reverse_perm _)
      dataObjects := .list rfl rfl (List.reverse_perm _)
      providers := rfl
      distinctComponents := by decide +kernel
      distinctDataObjects := by decide +kernel }
  obtain ⟨m, n, hm, hn, hsame, -, -, hruns⟩ := alike_rearranged "circle" h
  refine ⟨?_, by decide +kernel, h, m, n, hm, hn, hsame, ?_⟩
  · exact fun heq => by simp [circle] at heq
  · exact (hruns _ _ _ (.cons (.same _) .nil)).2 "circle"

end Orchestrator

end FeatureFlow
