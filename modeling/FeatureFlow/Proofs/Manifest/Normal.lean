import FeatureFlow.Proofs.Manifest.Reading
import FeatureFlow.Proofs.Manifest.Routing
import FeatureFlow.Proofs.Manifest.Written
import Mathlib.Data.List.Nodup

/-!
# Normal documents

A manifest can be written as a document again, each definition once and the providers in
their order (`Lists`). What is read from this document has the same tables and the same
order of providers (`read_of_lists`), and so the same diagnostics apart from the repeated
keys, of which there are none left.
-/

namespace FeatureFlow

/-- Whether it is about the list of the entries and not about their tables. -/
def Diagnostic.isRepeat : Diagnostic → Bool
  | duplicateKey .. => true
  | _ => false

-- ---------------------------------------------------------------------------
-- Lists without repetitions
-- ---------------------------------------------------------------------------

theorem nodup_eraseDups (keys : List String) : keys.eraseDups.Nodup := by
  match keys with
  | [] => exact .nil
  | key :: rest =>
    rw [List.eraseDups_cons, List.nodup_cons]
    refine ⟨fun hmem => ?_, nodup_eraseDups (rest.filter fun other => !other == key)⟩
    simp at hmem
termination_by keys.length
decreasing_by exact Nat.lt_succ_of_le (List.length_filter_le ..)

theorem eraseDups_of_nodup {keys : List String} (h : keys.Nodup) : keys.eraseDups = keys := by
  induction keys with
  | nil => rfl
  | cons key rest ih =>
    obtain ⟨hkey, hrest⟩ := List.nodup_cons.mp h
    have hfilter : rest.filter (fun other => !other == key) = rest := by
      refine List.filter_eq_self.mpr fun other hother => ?_
      have hne : other ≠ key := by
        rintro rfl
        exact hkey hother
      simp [hne]
    rw [List.eraseDups_cons, hfilter, ih hrest]

namespace Manifest

theorem repeated_of_nodup {seen keys : List String} (h : keys.Nodup)
    (hseen : ∀ key ∈ keys, key ∉ seen) : repeated seen keys = [] := by
  induction keys generalizing seen with
  | nil => rfl
  | cons key rest ih =>
    obtain ⟨hkey, hrest⟩ := List.nodup_cons.mp h
    rw [repeated, if_neg (hseen key (by simp))]
    refine ih hrest fun other hother hmem => ?_
    rcases List.mem_cons.mp hmem with rfl | hmem
    · exact hkey hother
    · exact hseen other (List.mem_cons_of_mem _ hother) hmem

-- ---------------------------------------------------------------------------
-- Definitions of a manifest that was read
-- ---------------------------------------------------------------------------

variable {feature : String} {root : Json.Object} {key : String}

theorem component_of_read (h : (ofObject feature root).component? key = some d) :
    d.key = key ∧ ComponentDefinition.decode d.toJson = .ok d ∧ delegated feature d = d := by
  obtain ⟨e, ⟨_, item, _, -, hdecode, hkey, -⟩, rfl⟩ := (component?_ofObject ..).mp h
  refine ⟨(key_delegated feature e).trans hkey, ?_, delegated_delegated feature e⟩
  exact ComponentDefinition.decode_toJson
    (isJson_delegated feature (ComponentDefinition.isJson_of_decode hdecode))

theorem dataObject_of_read (h : (ofObject feature root).dataObject? key = some d) :
    d.key = key ∧ DataObjectDefinition.decode d.toJson = .ok d := by
  obtain ⟨_, item, _, -, hdecode, hkey, -⟩ := (dataObject?_ofObject ..).mp h
  exact ⟨hkey, DataObjectDefinition.decode_toJson (DataObjectDefinition.isJson_of_decode hdecode)⟩

theorem provider_of_read (h : (ofObject feature root).provider? key = some d) :
    d.key = key ∧ ProviderDefinition.decode d.toJson = .ok d := by
  obtain ⟨_, item, _, -, hdecode, hkey, -⟩ := (provider?_ofObject ..).mp h
  exact ⟨hkey, ProviderDefinition.decode_toJson (ProviderDefinition.isJson_of_decode hdecode)⟩

-- ---------------------------------------------------------------------------
-- What was written
-- ---------------------------------------------------------------------------

theorem entries_written {decode : Json → Decoded α} {write : α → Json} {list : Option (List α)}
    (hwritten : Fields.get? name root = list.map fun items => .array (items.map write))
    (hdecode : ∀ d ∈ list.getD [], decode (write d) = .ok d) :
    entries decode name root = list := by
  rw [entries, hwritten]
  cases list with
  | none => rfl
  | some items =>
    refine congrArg some ((List.filterMap_map ..).trans ?_)
    refine (List.filterMap_congr fun d hd => ?_).trans List.filterMap_some
    simp [hdecode d hd, Except.toOption]

theorem table_written {keyOf : α → String} {table : Table α} {list : Option (List α)}
    (hkey : ∀ key d, table.get? key = some d → keyOf d = key)
    (h : (list.getD []).Perm table.values) :
    (list.map fun list => Table.ofList (list.map fun d => (keyOf d, d))).getD ∅ = table := by
  have htable := Table.ofList_of_perm_values hkey h
  cases list <;> exact htable

theorem repeated_written {keyOf : α → String} {table : Table α} {list : List α}
    (hkey : ∀ key d, table.get? key = some d → keyOf d = key) (h : list.Perm table.values) :
    repeated [] (list.map keyOf) = [] := by
  have hkeys : (list.map keyOf).Perm table.keys := Table.map_values hkey ▸ h.map keyOf
  exact repeated_of_nodup (hkeys.nodup_iff.mpr table.nodup_keys) (by simp)

-- ---------------------------------------------------------------------------
-- Providers in their order
-- ---------------------------------------------------------------------------

theorem map_key_filterMap {keyOf : α → String} {keys : List String} {find? : String → Option α}
    (h : ∀ key ∈ keys, ∃ d, find? key = some d ∧ keyOf d = key) :
    (keys.filterMap find?).map keyOf = keys := by
  induction keys with
  | nil => rfl
  | cons key rest ih =>
    obtain ⟨d, hfind, hkey⟩ := h key (by simp)
    rw [List.filterMap_cons_some hfind, List.map_cons, hkey,
      ih fun other hother => h other (List.mem_cons_of_mem _ hother)]

theorem mem_providerOrder (feature : String) (root : Json.Object) (key : String) :
    key ∈ (ofObject feature root).providerOrder ↔
      ∃ d, (ofObject feature root).provider? key = some d := by
  have hlookup : (ofObject feature root).provider? key = _ :=
    get?_getD_map ProviderDefinition.key _ key
  rw [hlookup, ← Option.isSome_iff_exists, List.find?_isSome]
  simp [ofObject, List.mem_eraseDups]

theorem map_key_orderedProviders (feature : String) (root : Json.Object) :
    (ofObject feature root).orderedProviders.map ProviderDefinition.key =
      (ofObject feature root).providerOrder := by
  refine map_key_filterMap fun key hkey => ?_
  obtain ⟨d, hd⟩ := (mem_providerOrder feature root key).mp hkey
  exact ⟨d, hd, (provider_of_read hd).1⟩

theorem orderedProviders_perm (feature : String) (root : Json.Object) :
    (ofObject feature root).orderedProviders.Perm (ofObject feature root).providerTable.values := by
  -- both lists are without repetitions, so it is enough that they have the same providers
  have hordered : (ofObject feature root).orderedProviders.Nodup := by
    refine .of_map ProviderDefinition.key ?_
    rw [map_key_orderedProviders]
    exact nodup_eraseDups _
  have hvalues : (ofObject feature root).providerTable.values.Nodup := by
    refine .of_map ProviderDefinition.key ?_
    rw [Table.map_values fun key d hd => (provider_of_read hd).1]
    exact Table.nodup_keys _
  refine (List.perm_ext_iff_of_nodup hordered hvalues).mpr fun d => ?_
  rw [Table.mem_values_iff, orderedProviders, List.mem_filterMap]
  constructor
  · rintro ⟨key, -, hd⟩
    exact ⟨key, hd⟩
  · rintro ⟨key, hd⟩
    exact ⟨key, (mem_providerOrder feature root key).mpr ⟨d, hd⟩, hd⟩

-- ---------------------------------------------------------------------------
-- The document of a manifest
-- ---------------------------------------------------------------------------

/-- The document has every definition of the manifest once, the providers in their order. -/
structure Lists (document : ManifestDocument) (m : Manifest) : Prop where
  components : (document.components.getD []).Perm m.componentTable.values
  dataObjects : (document.dataObjects.getD []).Perm m.dataObjectTable.values
  providers : document.providers.getD [] = m.orderedProviders

def document (m : Manifest) : ManifestDocument where
  components := some m.componentTable.values
  dataObjects := some m.dataObjectTable.values
  providers := some m.orderedProviders

theorem lists_document (m : Manifest) : Lists m.document m :=
  ⟨.refl _, .refl _, rfl⟩

theorem toJson_document (document : ManifestDocument) :
    ∃ fields, document.toJson = .object fields ∧
      Fields.get? ManifestDocument.componentsName fields =
        document.components.map (fun items => .array (items.map ComponentDefinition.toJson)) ∧
      Fields.get? ManifestDocument.dataObjectsName fields =
        document.dataObjects.map (fun items => .array (items.map DataObjectDefinition.toJson)) ∧
      Fields.get? ManifestDocument.providersName fields =
        document.providers.map fun items => .array (items.map ProviderDefinition.toJson) := by
  refine ⟨_, rfl, ?_, ?_, ?_⟩ <;>
    simp [Fields.get?_ofList, Fields.get?_append, ManifestDocument.list,
      NodeDefinition.reverse_present, NodeDefinition.get?_present,
      ManifestDocument.componentsName, ManifestDocument.dataObjectsName,
      ManifestDocument.providersName]

section

variable {document : ManifestDocument} (h : Lists document (ofObject feature root))
include h

theorem perm_providers :
    (document.providers.getD []).Perm (ofObject feature root).providerTable.values := by
  rw [h.providers]
  exact orderedProviders_perm feature root

theorem entries_of_lists :
    ∃ fields, document.toJson = .object fields ∧
      (entries ComponentDefinition.decode ManifestDocument.componentsName fields).map
        (fun list => list.map (delegated feature)) = document.components ∧
      entries DataObjectDefinition.decode ManifestDocument.dataObjectsName fields =
        document.dataObjects ∧
      entries ProviderDefinition.decode ManifestDocument.providersName fields =
        document.providers := by
  obtain ⟨fields, hfields, hcomponents, hdataObjects, hproviders⟩ := toJson_document document
  have hread {d : ComponentDefinition} (hd : d ∈ document.components.getD []) :
      ComponentDefinition.decode d.toJson = .ok d ∧ delegated feature d = d := by
    obtain ⟨key, hkey⟩ := Table.mem_values_iff.mp (h.components.mem_iff.mp hd)
    exact (component_of_read hkey).2
  refine ⟨fields, hfields, ?_, ?_, ?_⟩
  · rw [entries_written hcomponents fun d hd => (hread hd).1]
    cases hlist : document.components with
    | none => rfl
    | some list =>
      -- a delegate is told its feature again, which changes nothing
      refine congrArg some ((List.map_congr_left fun d hd => ?_).trans (List.map_id _))
      exact (hread (hlist ▸ hd)).2
  · refine entries_written hdataObjects fun d hd => ?_
    obtain ⟨key, hkey⟩ := Table.mem_values_iff.mp (h.dataObjects.mem_iff.mp hd)
    exact (dataObject_of_read hkey).2
  · refine entries_written hproviders fun d hd => ?_
    obtain ⟨key, hkey⟩ := Table.mem_values_iff.mp ((perm_providers h).mem_iff.mp hd)
    exact (provider_of_read hkey).2

theorem read_of_lists :
    ∃ n, ofJson feature document.toJson = .ok n ∧
      n.componentTable = (ofObject feature root).componentTable ∧
      n.dataObjectTable = (ofObject feature root).dataObjectTable ∧
      n.providerTable = (ofObject feature root).providerTable ∧
      n.providerOrder = (ofObject feature root).providerOrder ∧ n.repeats = [] := by
  obtain ⟨fields, hfields, hcomponents, hdataObjects, hproviders⟩ := entries_of_lists h
  have hkeys := fun key d (hd : (ofObject feature root).component? key = some d) =>
    (component_of_read hd).1
  have hdataKeys := fun key d (hd : (ofObject feature root).dataObject? key = some d) =>
    (dataObject_of_read hd).1
  have hproviderKeys := fun key d (hd : (ofObject feature root).provider? key = some d) =>
    (provider_of_read hd).1
  refine ⟨ofObject feature fields, by rw [hfields]; rfl, ?_, ?_, ?_, ?_, ?_⟩
  all_goals simp only [ofObject, hcomponents, hdataObjects, hproviders]
  · exact table_written hkeys h.components
  · exact table_written hdataKeys h.dataObjects
  · exact table_written hproviderKeys (perm_providers h)
  · rw [h.providers, map_key_orderedProviders]
    exact eraseDups_of_nodup (nodup_eraseDups _)
  · rw [repeated_written hkeys h.components, repeated_written hdataKeys h.dataObjects,
      repeated_written hproviderKeys (perm_providers h)]
    rfl

end

-- ---------------------------------------------------------------------------
-- Diagnostics
-- ---------------------------------------------------------------------------

theorem isRepeat_of_mem_dangling {m : Manifest} (h : d ∈ m.dangling) : d.isRepeat = false := by
  cases d with
  | duplicateKey => cases isDangling_of_mem h
  | _ => rfl

theorem filter_diagnostics (m : Manifest) :
    m.diagnostics.filter (!·.isRepeat) =
      sortedByText m.dangling ++ sortedByText (m.routingCycles.map .routingCycle) := by
  have hdangling : (sortedByText m.dangling).filter (!·.isRepeat) = sortedByText m.dangling := by
    refine List.filter_eq_self.mpr fun d hd => ?_
    simp [isRepeat_of_mem_dangling (List.mem_mergeSort.mp hd)]
  have hcycles : (sortedByText (m.routingCycles.map .routingCycle)).filter (!·.isRepeat) =
      sortedByText (m.routingCycles.map .routingCycle) := by
    refine List.filter_eq_self.mpr fun d hd => ?_
    obtain ⟨_, -, rfl⟩ := List.mem_map.mp (List.mem_mergeSort.mp hd)
    rfl
  rw [diagnostics, List.append_assoc, List.filter_append, List.filter_append, hdangling, hcycles]
  refine List.append_left_eq_self.mpr (List.filter_eq_nil_iff.mpr fun d hd => ?_)
  obtain ⟨_, -, rfl⟩ := List.mem_map.mp hd
  simp [Diagnostic.isRepeat]

section

variable {m n : Manifest} (hcomponents : n.componentTable = m.componentTable)
include hcomponents

theorem dangling_congr (hdataObjects : n.dataObjectTable = m.dataObjectTable)
    (hproviders : n.providerTable = m.providerTable) : n.dangling = m.dangling := by
  unfold dangling danglingTargets danglingProvider
  rw [hcomponents, hdataObjects, hproviders]

theorem routingCycles_congr : n.routingCycles = m.routingCycles := by
  have hroutes : n.routes = m.routes := by
    funext key
    rw [routes, routes, component?, component?, hcomponents]
  unfold routingCycles mutuallyReached reached componentKeys
  rw [hroutes, hcomponents]

end

-- ---------------------------------------------------------------------------
-- Writing and reading
-- ---------------------------------------------------------------------------

/-- Each definition of a manifest is what its written form decodes to. A document that
lists them gives the same lookups, the same order of providers and the same diagnostics in
the same order, except for those about repeated keys. -/
theorem read_written (h : ofJson feature value = .ok m) :
    (∀ key d, m.component? key = some d → ComponentDefinition.decode d.toJson = .ok d) ∧
      (∀ key d, m.dataObject? key = some d → DataObjectDefinition.decode d.toJson = .ok d) ∧
      (∀ key d, m.provider? key = some d → ProviderDefinition.decode d.toJson = .ok d) ∧
      ∀ document, Lists document m → ∃ n, ofJson feature document.toJson = .ok n ∧
        (∀ key, n.component? key = m.component? key) ∧
        (∀ key, n.dataObject? key = m.dataObject? key) ∧
        (∀ key, n.provider? key = m.provider? key) ∧
        n.providerOrder = m.providerOrder ∧
        n.diagnostics = m.diagnostics.filter (!·.isRepeat) ∧
        ∀ kind key, .duplicateKey kind key ∉ n.diagnostics := by
  obtain ⟨root, rfl, rfl⟩ : ∃ root, value = .object root ∧ ofObject feature root = m := by
    cases value with
    | object root => exact ⟨root, rfl, Except.ok.inj h⟩
    | _ => cases h
  refine ⟨fun key d hd => (component_of_read hd).2.1, fun key d hd => (dataObject_of_read hd).2,
    fun key d hd => (provider_of_read hd).2, fun document hlists => ?_⟩
  obtain ⟨n, hn, hcomponents, hdataObjects, hproviders, horder, hrepeats⟩ := read_of_lists hlists
  have hdiagnostics : n.diagnostics = (ofObject feature root).diagnostics.filter (!·.isRepeat) := by
    rw [filter_diagnostics, diagnostics, hrepeats, routingCycles_congr hcomponents,
      dangling_congr hcomponents hdataObjects hproviders]
    rfl
  refine ⟨n, hn, ?_, ?_, ?_, horder, hdiagnostics, ?_⟩
  · exact fun key => congrArg (Table.get? · key) hcomponents
  · exact fun key => congrArg (Table.get? · key) hdataObjects
  · exact fun key => congrArg (Table.get? · key) hproviders
  · intro kind key hmem
    rw [hdiagnostics] at hmem
    exact absurd (List.mem_filter.mp hmem).2 (by simp [Diagnostic.isRepeat])

/-- Repeated keys of every kind, a component of the server without properties, a cycle, a
target and a provider that are not there, and entries that do not decode. -/
def mixed : Json.Object :=
  let node (key : String) (more : List (String × Json)) : Json :=
    .record (("keyName", .text key) :: more)
  Fields.ofList
    [(ManifestDocument.componentsName, .array
      [node "list" [("typeName", .text "old")],
        node "save" [("owner", .text "server"), ("outputs", .record [("done", .texts ["list"])])],
        .null,
        node "list" [("props", .record [("size", .texts [])]), ("providerKey", .text "lost"),
          ("outputs", .record [("next", .texts ["save", "gone"])])]]),
    (ManifestDocument.dataObjectsName, .array [node "rows" [], node "rows" []]),
    (ManifestDocument.providersName, .array
      [node "second" [("typeName", .text "old")], node "first" [], .texts ["second"],
        node "second" []])]

theorem read_written_mixed :
    (ofObject "grid" mixed).repeats =
        [(.component, "list"), (.dataObject, "rows"), (.provider, "second")] ∧
      ∃ n, ofJson "grid" (ofObject "grid" mixed).document.toJson = .ok n ∧
        n.providerOrder = ["second", "first"] ∧
        (n.component? "save").map (·.node.typeName) = some BuiltIn.delegateType ∧
        ∀ kind key, .duplicateKey kind key ∉ n.diagnostics := by
  obtain ⟨-, -, -, h⟩ := read_written (rfl : ofJson "grid" (.object mixed) = _)
  obtain ⟨n, hn, hcomponent, -, -, horder, -, hrepeat⟩ := h _ (lists_document _)
  refine ⟨by decide +kernel, n, hn, horder.trans (by decide +kernel), ?_, hrepeat⟩
  rw [hcomponent]
  decide +kernel

end Manifest

end FeatureFlow
