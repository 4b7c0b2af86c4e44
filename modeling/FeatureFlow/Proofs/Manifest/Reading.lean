import FeatureFlow.Manifest.Diagnostic
import FeatureFlow.Proofs.Manifest.Delegates

/-!
# Reading a manifest

A key stands for the last entry of its list that decodes and has it
(`component?_ofObject` and its siblings). Entries that do not decode leave no
trace, so a document without them gives the same manifest (`ofObject_of_thinned`).
-/

namespace FeatureFlow

namespace Manifest

variable {decode : Json → Decoded α} {keyOf : α → String} {name : String}
  {root other : Json.Object} {key : String} {entry : α}

-- ---------------------------------------------------------------------------
-- The last entry of a key
-- ---------------------------------------------------------------------------

def items (name : String) (root : Json.Object) : List Json :=
  ((Fields.get? name root).bind Json.array?).getD []

/-- The last of the items that decode to an entry with the key decodes to this one. -/
def IsLast (decode : Json → Decoded α) (keyOf : α → String) (listed : List Json) (key : String)
    (entry : α) : Prop :=
  ∃ before item after, listed = before ++ item :: after ∧ decode item = .ok entry ∧
    keyOf entry = key ∧ ∀ later ∈ after, ∀ e, decode later = .ok e → keyOf e ≠ key

theorem toOption_eq_some {result : Decoded α} : result.toOption = some entry ↔ result = .ok entry := by
  cases result <;> simp [Except.toOption]

theorem get?_keyed (keyOf : α → String) (list : List α) (key : String) :
    Fields.get? key (list.map fun d => (keyOf d, d)) = list.find? (keyOf · = key) := by
  induction list with
  | nil => rfl
  | cons d rest ih => by_cases h : keyOf d = key <;> simp [Fields.get?, h, ih]

theorem isLast_iff :
    IsLast decode keyOf listed key entry ↔
      (listed.filterMap fun item => (decode item).toOption).reverse.find? (keyOf · = key) =
        some entry := by
  rw [← List.filterMap_reverse, List.find?_filterMap, Option.bind_eq_some_iff]
  constructor
  · rintro ⟨before, item, after, rfl, hitem, hkey, hlater⟩
    refine ⟨item, List.find?_eq_some_iff_append.mpr ⟨?_, after.reverse, before.reverse, ?_, ?_⟩, ?_⟩
    · simp [hitem, Except.toOption, hkey]
    · simp
    · intro later hmem
      cases hdecode : decode later with
      | error e => simp [Except.toOption]
      | ok e =>
        have hne := hlater later (List.mem_reverse.mp hmem) e hdecode
        simpa [Except.toOption] using hne
    · simp [hitem, Except.toOption]
  · rintro ⟨item, hfind, hitem⟩
    rw [toOption_eq_some] at hitem
    obtain ⟨hkey, after, before, hlisted, hlater⟩ := List.find?_eq_some_iff_append.mp hfind
    have hkey : keyOf entry = key := by simpa [hitem, Except.toOption] using hkey
    refine ⟨before.reverse, item, after.reverse, ?_, hitem, hkey, ?_⟩
    · simpa using congrArg List.reverse hlisted
    · intro later hmem e he
      have hne := hlater later (List.mem_reverse.mp hmem)
      simpa [he, Except.toOption] using hne

-- ---------------------------------------------------------------------------
-- Lookups
-- ---------------------------------------------------------------------------

theorem getD_entries (decode : Json → Decoded α) (name : String) (root : Json.Object) :
    (entries decode name root).getD [] =
      (items name root).filterMap fun item => (decode item).toOption := by
  unfold entries items
  cases Fields.get? name root with
  | none => rfl
  | some value => cases value <;> rfl

theorem get?_getD_map (keyOf : α → String) (list : Option (List α)) (key : String) :
    ((list.map fun list => Table.ofList (list.map fun d => (keyOf d, d))).getD ∅).get? key =
      (list.getD []).reverse.find? (keyOf · = key) := by
  cases list with
  | none => rfl
  | some list =>
    simp only [Option.map_some, Option.getD_some, Table.get?_ofList, ← List.map_reverse, get?_keyed]

theorem component?_ofObject (feature : String) (root : Json.Object) (key : String)
    (d : ComponentDefinition) :
    (ofObject feature root).component? key = some d ↔
      ∃ e, IsLast ComponentDefinition.decode ComponentDefinition.key
        (items ManifestDocument.componentsName root) key e ∧ delegated feature e = d := by
  have hlookup : (ofObject feature root).component? key = _ :=
    get?_getD_map ComponentDefinition.key _ key
  have hlist : ((entries ComponentDefinition.decode ManifestDocument.componentsName root).map
      fun list => list.map (delegated feature)).getD [] =
        ((items ManifestDocument.componentsName root).filterMap fun item =>
          (ComponentDefinition.decode item).toOption).map (delegated feature) := by
    rw [← getD_entries]
    cases entries ComponentDefinition.decode ManifestDocument.componentsName root <;> rfl
  rw [hlookup, hlist, ← List.map_reverse, List.find?_map, Option.map_eq_some_iff]
  simp only [isLast_iff, Function.comp_def, key_delegated]

theorem dataObject?_ofObject (feature : String) (root : Json.Object) (key : String)
    (d : DataObjectDefinition) :
    (ofObject feature root).dataObject? key = some d ↔
      IsLast DataObjectDefinition.decode DataObjectDefinition.key
        (items ManifestDocument.dataObjectsName root) key d := by
  have hlookup : (ofObject feature root).dataObject? key = _ :=
    get?_getD_map DataObjectDefinition.key _ key
  rw [hlookup, getD_entries, isLast_iff]

theorem provider?_ofObject (feature : String) (root : Json.Object) (key : String)
    (d : ProviderDefinition) :
    (ofObject feature root).provider? key = some d ↔
      IsLast ProviderDefinition.decode ProviderDefinition.key
        (items ManifestDocument.providersName root) key d := by
  have hlookup : (ofObject feature root).provider? key = _ :=
    get?_getD_map ProviderDefinition.key _ key
  rw [hlookup, getD_entries, isLast_iff]

-- ---------------------------------------------------------------------------
-- Entries that do not decode
-- ---------------------------------------------------------------------------

inductive Thinned (decode : Json → Decoded α) : List Json → List Json → Prop
  | nil : Thinned decode [] []
  | keep (item : Json) (rest : Thinned decode listed kept) :
      Thinned decode (item :: listed) (item :: kept)
  | leave (hitem : decode item = .error e) (rest : Thinned decode listed kept) :
      Thinned decode (item :: listed) kept

inductive ThinnedField (decode : Json → Decoded α) (name : String) (root other : Json.Object) : Prop
  | same (h : Fields.get? name other = Fields.get? name root)
  | list (hroot : Fields.get? name root = some (.array listed))
      (hother : Fields.get? name other = some (.array kept)) (h : Thinned decode listed kept)

/-- The lists of the other document are those of the first without some of the items
that do not decode. -/
structure ThinnedDocument (root other : Json.Object) : Prop where
  components : ThinnedField ComponentDefinition.decode ManifestDocument.componentsName root other
  dataObjects : ThinnedField DataObjectDefinition.decode ManifestDocument.dataObjectsName root other
  providers : ThinnedField ProviderDefinition.decode ManifestDocument.providersName root other

theorem Thinned.filterMap_eq (h : Thinned decode listed kept) :
    kept.filterMap (fun item => (decode item).toOption) =
      listed.filterMap fun item => (decode item).toOption := by
  induction h with
  | nil => rfl
  | keep item _ ih => simp only [List.filterMap_cons, ih]
  | leave hitem _ ih => simpa only [List.filterMap_cons, hitem, Except.toOption] using ih

theorem ThinnedField.entries_eq (h : ThinnedField decode name root other) :
    entries decode name other = entries decode name root := by
  cases h with
  | same h => simp only [entries, h]
  | list hroot hother h => simp only [entries, hroot, hother, h.filterMap_eq]

theorem ofObject_of_thinned (feature : String) (h : ThinnedDocument root other) :
    ofObject feature other = ofObject feature root := by
  unfold ofObject
  rw [h.components.entries_eq, h.dataObjects.entries_eq, h.providers.entries_eq]

-- ---------------------------------------------------------------------------
-- Reading
-- ---------------------------------------------------------------------------

/-- A JSON object is always read. A key stands for the last entry of its list that
decodes and has it, where components that the server owns become delegates. Leaving
out entries that do not decode gives the same manifest, so the same lookups, order of
providers and diagnostics. Each lookup goes by its own list and no other one. -/
theorem lookup_ofJson (feature : String) (root : Json.Object) :
    ∃ m, ofJson feature (.object root) = .ok m ∧
      (∀ key d, m.component? key = some d ↔
        ∃ e, IsLast ComponentDefinition.decode ComponentDefinition.key
          (items ManifestDocument.componentsName root) key e ∧ delegated feature e = d) ∧
      (∀ key d, m.dataObject? key = some d ↔
        IsLast DataObjectDefinition.decode DataObjectDefinition.key
          (items ManifestDocument.dataObjectsName root) key d) ∧
      (∀ key d, m.provider? key = some d ↔
        IsLast ProviderDefinition.decode ProviderDefinition.key
          (items ManifestDocument.providersName root) key d) ∧
      (∀ other, ThinnedDocument root other → ofJson feature (.object other) = .ok m) ∧
      ∀ other n, ofJson feature (.object other) = .ok n →
        (items ManifestDocument.componentsName other = items ManifestDocument.componentsName root →
          ∀ key, n.component? key = m.component? key) ∧
        (items ManifestDocument.dataObjectsName other =
            items ManifestDocument.dataObjectsName root →
          ∀ key, n.dataObject? key = m.dataObject? key) ∧
        (items ManifestDocument.providersName other = items ManifestDocument.providersName root →
          ∀ key, n.provider? key = m.provider? key) := by
  refine ⟨ofObject feature root, rfl, component?_ofObject feature root,
    dataObject?_ofObject feature root, provider?_ofObject feature root, ?thinned, ?others⟩
  case thinned =>
    intro other h
    exact congrArg Except.ok (ofObject_of_thinned feature h)
  case others =>
    rintro other n hn
    obtain rfl := Except.ok.inj hn
    refine ⟨fun hsame key => ?_, fun hsame key => ?_, fun hsame key => ?_⟩
    · refine Option.ext fun d => ?_
      rw [component?_ofObject, component?_ofObject, hsame]
    · refine Option.ext fun d => ?_
      rw [dataObject?_ofObject, dataObject?_ofObject, hsame]
    · refine Option.ext fun d => ?_
      rw [provider?_ofObject, provider?_ofObject, hsame]

end Manifest

end FeatureFlow
