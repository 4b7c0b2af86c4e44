import FeatureFlow.Proofs.Manifest.Normal
import Mathlib.Algebra.GroupWithZero.Nat
import Mathlib.Data.List.Count

/-!
# What the diagnostics list

Each repeated entry, each target that is no component and each name of an unknown provider
stands in the diagnostics as often as it stands in the manifest that was read
(`diagnostics_exact`). Definitions that a later entry replaced are not in the tables, so
they count as repetitions and for nothing else.
-/

namespace FeatureFlow

-- ---------------------------------------------------------------------------
-- Sums over a table
-- ---------------------------------------------------------------------------

/-- Where only the entry of one key counts, the sum over all entries is what it counts for. -/
theorem Fields.sum_eq_of_key {fields : Fields α} (hkeys : fields.keys.Nodup) (key : String)
    (f : String × α → Nat) (hother : ∀ entry ∈ fields, entry.1 ≠ key → f entry = 0) :
    (fields.map f).sum = ((fields.get? key).map fun value => f (key, value)).getD 0 := by
  induction fields with
  | nil => rfl
  | cons entry rest ih =>
    obtain ⟨k, value⟩ := entry
    obtain ⟨hk, hrest⟩ := List.nodup_cons.mp hkeys
    have ih := ih hrest fun entry hentry => hother entry (List.mem_cons_of_mem _ hentry)
    rw [List.map_cons, List.sum_cons, ih]
    by_cases heq : k = key
    · subst heq
      simp [get?, get?_eq_none_of_not_mem hk]
    · simp [get?, heq, hother (k, value) List.mem_cons_self heq]

namespace Manifest

variable {m : Manifest} {feature : String} {root : Json.Object}

-- ---------------------------------------------------------------------------
-- Repeated entries
-- ---------------------------------------------------------------------------

def keysIn (decode : Json → Decoded α) (keyOf : α → String) (name : String)
    (root : Json.Object) : List String :=
  ((items name root).filterMap fun item => (decode item).toOption).map keyOf

def entryKeys (root : Json.Object) : NodeKind → List String
  | .component =>
    keysIn ComponentDefinition.decode ComponentDefinition.key ManifestDocument.componentsName root
  | .dataObject =>
    keysIn DataObjectDefinition.decode DataObjectDefinition.key
      ManifestDocument.dataObjectsName root
  | .provider =>
    keysIn ProviderDefinition.decode ProviderDefinition.key ManifestDocument.providersName root

def repeated? (keys : List String) : String × Nat → Option String
  | (key, place) => if key ∈ keys.take place then some key else none

/-- The keys that an earlier entry has, once for each place where they stand again. -/
def again (keys : List String) : List String :=
  keys.zipIdx.filterMap (repeated? keys)

theorem repeated_eq (before keys seen : List String) (hseen : ∀ key, key ∈ seen ↔ key ∈ before) :
    repeated seen keys = (keys.zipIdx before.length).filterMap (repeated? (before ++ keys)) := by
  induction keys generalizing before seen with
  | nil => rfl
  | cons key rest ih =>
    -- the head joins what is before the rest
    have hlist : before ++ key :: rest = (before ++ [key]) ++ rest := by simp
    have hlength : before.length + 1 = (before ++ [key]).length := by simp
    have hhead : repeated? ((before ++ [key]) ++ rest) (key, before.length) =
        if key ∈ before then some key else none := by
      simp [repeated?]
    rw [List.zipIdx_cons, hlist, hlength, repeated]
    by_cases hkey : key ∈ before
    · rw [if_pos ((hseen key).mpr hkey),
        List.filterMap_cons_some (hhead.trans (if_pos hkey)), ih]
      intro other
      rw [hseen, List.mem_append, List.mem_singleton]
      exact ⟨.inl, fun h => h.elim id fun heq => heq ▸ hkey⟩
    · rw [if_neg (mt (hseen key).mp hkey),
        List.filterMap_cons_none (hhead.trans (if_neg hkey)), ih]
      intro other
      rw [List.mem_cons, hseen, List.mem_append, List.mem_singleton, or_comm]

theorem repeated_nil (keys : List String) : repeated [] keys = again keys :=
  repeated_eq [] keys [] fun _ => Iff.rfl

theorem count_repeated (seen keys : List String) (key : String) :
    (repeated seen keys).count key = keys.count key - if key ∈ seen then 0 else 1 := by
  induction keys generalizing seen with
  | nil => simp [repeated]
  | cons first rest ih =>
    rw [repeated]
    by_cases hfirst : first ∈ seen
    · rw [if_pos hfirst, List.count_cons, List.count_cons, ih]
      by_cases heq : first = key
      · subst heq
        simp [hfirst]
      · simp [heq]
    · rw [if_neg hfirst, List.count_cons, ih]
      by_cases heq : first = key
      · subst heq
        simp [hfirst]
      · simp [heq, Ne.symm heq]

theorem repeats_ofObject (feature : String) (root : Json.Object) :
    (ofObject feature root).repeats =
      [NodeKind.component, .dataObject, .provider].flatMap fun kind =>
        (again (entryKeys root kind)).map (kind, ·) := by
  have hcomponents : (((entries ComponentDefinition.decode ManifestDocument.componentsName
      root).map fun list => list.map (delegated feature)).getD []).map ComponentDefinition.key =
        entryKeys root .component := by
    rw [entryKeys, keysIn, ← getD_entries]
    cases entries ComponentDefinition.decode ManifestDocument.componentsName root with
    | none => rfl
    | some list => simp [key_delegated]
  simp only [ofObject, hcomponents, getD_entries, repeated_nil, List.flatMap_cons,
    List.flatMap_nil, List.append_nil, List.append_assoc, entryKeys, keysIn]

-- ---------------------------------------------------------------------------
-- Dangling names
-- ---------------------------------------------------------------------------

structure Keyed (m : Manifest) : Prop where
  components : ∀ key d, m.component? key = some d → d.key = key
  dataObjects : ∀ key d, m.dataObject? key = some d → d.key = key

theorem keyed_ofObject (feature : String) (root : Json.Object) : (ofObject feature root).Keyed :=
  ⟨fun _ _ h => (component_of_read h).1, fun _ _ h => (dataObject_of_read h).1⟩

theorem sum_values (table : Table α) (key : String) (f : α → Nat)
    (hother : ∀ k value, table.get? k = some value → k ≠ key → f value = 0) :
    (table.values.map f).sum = ((table.get? key).map f).getD 0 := by
  rw [Table.values, List.map_map]
  exact Fields.sum_eq_of_key table.nodup_keys key (f ·.2) fun entry hentry =>
    hother entry.1 entry.2 (Fields.get?_of_mem table.rising hentry)

theorem count_danglingProvider (m : Manifest) (name node key : String) (provider : Option String) :
    (m.danglingProvider name provider).count (.danglingProvider node key) =
      if name = node ∧ provider = some key ∧ m.provider? key = none then 1 else 0 := by
  by_cases hhere : name = node ∧ provider = some key ∧ m.provider? key = none
  · rw [if_pos hhere]
    obtain ⟨rfl, rfl, hnone⟩ := hhere
    rw [provider?] at hnone
    simp [danglingProvider, Table.contains, hnone]
  · rw [if_neg hhere]
    refine List.count_eq_zero.mpr fun hmem => hhere ?_
    obtain ⟨other, hother, h⟩ := List.mem_map.mp hmem
    obtain ⟨rfl, rfl⟩ := Diagnostic.danglingProvider.inj h
    obtain ⟨hprovider, hunknown⟩ := List.mem_filter.mp hother
    exact ⟨rfl, Option.mem_toList.mp hprovider,
      by simpa [Table.contains, provider?] using hunknown⟩

theorem names_found (m : Manifest) (node key : String) {found : Option α} (keyOf : α → String)
    (provider : α → Option String) (hkey : ∀ d, found = some d → keyOf d = node) :
    (found.map fun d => if keyOf d = node ∧ provider d = some key ∧ m.provider? key = none
      then 1 else 0).getD 0 =
    if m.provider? key = none then if found.bind provider = some key then 1 else 0 else 0 := by
  cases found with
  | none => simp
  | some d => by_cases hknown : m.provider? key = none <;> simp [hkey d rfl, hknown]

theorem count_danglingTarget_provider (m : Manifest) (name source port target : String)
    (provider : Option String) :
    (m.danglingProvider name provider).count (.danglingTarget source port target) = 0 := by
  refine List.count_eq_zero.mpr fun hmem => ?_
  obtain ⟨_, -, h⟩ := List.mem_map.mp hmem
  cases h

theorem count_danglingProvider_targets (m : Manifest) (d : ComponentDefinition)
    (node key : String) : (m.danglingTargets d).count (.danglingProvider node key) = 0 := by
  refine List.count_eq_zero.mpr fun hmem => ?_
  obtain ⟨_, -, hmem⟩ := List.mem_flatMap.mp hmem
  obtain ⟨_, -, h⟩ := List.mem_map.mp hmem
  cases h

theorem count_port (m : Manifest) (name p source port target : String) (targets : List String) :
    ((targets.filter fun target => !m.componentTable.contains target).map
      (Diagnostic.danglingTarget name p ·)).count (.danglingTarget source port target) =
      if name = source ∧ p = port ∧ m.component? target = none then targets.count target else 0 := by
  by_cases hhere : name = source ∧ p = port ∧ m.component? target = none
  · rw [if_pos hhere]
    obtain ⟨rfl, rfl, hnone⟩ := hhere
    have hinjective : Function.Injective (Diagnostic.danglingTarget name p) :=
      fun _ _ h => (Diagnostic.danglingTarget.inj h).2.2
    have hcount := List.count_map_of_injective
      (targets.filter fun target => !m.componentTable.contains target) _ hinjective target
    rw [hcount, List.count_filter]
    simpa [Table.contains, component?] using hnone
  · rw [if_neg hhere]
    refine List.count_eq_zero.mpr fun hmem => hhere ?_
    obtain ⟨other, hother, h⟩ := List.mem_map.mp hmem
    obtain ⟨rfl, rfl, rfl⟩ := Diagnostic.danglingTarget.inj h
    have hunknown := (List.mem_filter.mp hother).2
    exact ⟨rfl, rfl, by simpa [Table.contains, component?] using hunknown⟩

theorem count_danglingTargets (m : Manifest) (d : ComponentDefinition)
    (source port target : String) :
    (m.danglingTargets d).count (.danglingTarget source port target) =
      if d.key = source ∧ m.component? target = none then (d.targets port).count target else 0 := by
  have hports := Fields.sum_eq_of_key d.outputs.nodup_keys port (fun entry =>
    if d.key = source ∧ entry.1 = port ∧ m.component? target = none then entry.2.count target
    else 0) fun entry _ hne => by simp [hne]
  have heach := List.map_congr_left fun (entry : String × List String)
    (_ : entry ∈ d.outputs.entries) => count_port m d.key entry.1 source port target entry.2
  unfold danglingTargets
  rw [List.count_flatMap]
  refine (congrArg List.sum heach).trans (hports.trans ?_)
  rw [ComponentDefinition.targets, Table.get?]
  cases d.outputs.entries.get? port <;> simp

section

variable (hkeyed : m.Keyed)
include hkeyed

theorem count_danglingTarget (source port target : String) :
    m.dangling.count (.danglingTarget source port target) =
      if m.component? target = none then (m.targets source port).count target else 0 := by
  have hsum := sum_values m.componentTable source (fun d =>
    if d.key = source ∧ m.component? target = none then (d.targets port).count target else 0)
    fun k d hd hne => by simp [hkeyed.components k d hd, hne]
  unfold dangling
  rw [List.count_append, List.count_flatMap, List.count_flatMap]
  simp only [Function.comp_def, List.count_append, count_danglingTargets,
    count_danglingTarget_provider, Nat.add_zero]
  rw [hsum, targets, outputs?]
  cases hsource : m.component? source with
  | none =>
    rw [component?] at hsource
    simp [hsource]
  | some d =>
    have hkey := hkeyed.components source d hsource
    rw [component?] at hsource
    simp [hsource, hkey, ComponentDefinition.targets]

theorem count_danglingProvider_dangling (node key : String) :
    m.dangling.count (.danglingProvider node key) =
      if m.provider? key = none then
        (if (m.component? node).bind (·.provider) = some key then 1 else 0) +
          (if (m.dataObject? node).bind (·.provider) = some key then 1 else 0)
      else 0 := by
  have hcomponents := sum_values m.componentTable node (fun d =>
    if d.key = node ∧ d.provider = some key ∧ m.provider? key = none then 1 else 0)
    fun k d hd hne => by simp [hkeyed.components k d hd, hne]
  have hdataObjects := sum_values m.dataObjectTable node (fun d =>
    if d.key = node ∧ d.provider = some key ∧ m.provider? key = none then 1 else 0)
    fun k d hd hne => by simp [hkeyed.dataObjects k d hd, hne]
  unfold dangling
  rw [List.count_append, List.count_flatMap, List.count_flatMap]
  simp only [Function.comp_def, List.count_append, count_danglingProvider,
    count_danglingProvider_targets, Nat.zero_add]
  rw [hcomponents, hdataObjects]
  have hcomponent := names_found m node key ComponentDefinition.key
    ComponentDefinition.provider (hkeyed.components node)
  have hdataObject := names_found m node key DataObjectDefinition.key
    DataObjectDefinition.provider (hkeyed.dataObjects node)
  rw [← component?, ← dataObject?, hcomponent, hdataObject]
  split <;> rfl

end

-- ---------------------------------------------------------------------------
-- All diagnostics
-- ---------------------------------------------------------------------------

theorem pairwise_sortedByText (list : List Diagnostic) :
    (sortedByText list).Pairwise (·.text ≤ ·.text) := by
  have hsorted : (sortedByText list).Pairwise fun a b => decide (a.text ≤ b.text) = true := by
    refine List.pairwise_mergeSort (fun a b c => ?_) (fun a b => ?_) list
    · simpa using String.le_trans
    · simpa using String.le_total a.text b.text
  exact hsorted.imp fun h => of_decide_eq_true h

theorem count_diagnostics_dangling {d : Diagnostic} (h : d.isDangling = true) :
    m.diagnostics.count d = m.dangling.count d := by
  have hrepeats : m.repeats.countP (fun entry => .duplicateKey entry.1 entry.2 == d) = 0 :=
    List.countP_eq_zero.mpr fun _ _ heq => by cases beq_iff_eq.mp heq ▸ h
  have hcycles : m.routingCycles.countP (.routingCycle · == d) = 0 :=
    List.countP_eq_zero.mpr fun _ _ heq => by cases beq_iff_eq.mp heq ▸ h
  rw [List.count, countP_diagnostics, hrepeats, hcycles, Nat.zero_add, Nat.add_zero]

theorem count_diagnostics_repeats (kind : NodeKind) (key : String) :
    m.diagnostics.count (.duplicateKey kind key) = m.repeats.count (kind, key) := by
  have hrepeats : m.repeats.countP
      (fun entry => .duplicateKey entry.1 entry.2 == Diagnostic.duplicateKey kind key) =
      m.repeats.countP (· == (kind, key)) :=
    List.countP_congr fun _ _ => by simp [Prod.ext_iff]
  have hdangling : m.dangling.countP (· == .duplicateKey kind key) = 0 :=
    List.countP_eq_zero.mpr fun _ hd heq => by cases isDangling_of_mem (beq_iff_eq.mp heq ▸ hd)
  have hcycles : m.routingCycles.countP (.routingCycle · == Diagnostic.duplicateKey kind key) =
      0 :=
    List.countP_eq_zero.mpr fun _ _ heq => by cases beq_iff_eq.mp heq
  rw [List.count, countP_diagnostics, hrepeats, hdangling, hcycles, Nat.add_zero]
  rfl

theorem count_repeats_ofObject (kind : NodeKind) (key : String) :
    (ofObject feature root).repeats.count (kind, key) = (entryKeys root kind).count key - 1 := by
  have hagain (other : NodeKind) :
      ((again (entryKeys root other)).map (other, ·)).count (kind, key) =
        if other = kind then (entryKeys root kind).count key - 1 else 0 := by
    by_cases h : other = kind
    · subst h
      rw [List.count_map_of_injective _ _ (fun _ _ h => congrArg Prod.snd h), if_pos rfl,
        ← repeated_nil, count_repeated]
      simp
    · rw [if_neg h]
      refine List.count_eq_zero.mpr fun hmem => h ?_
      obtain ⟨_, -, heq⟩ := List.mem_map.mp hmem
      exact congrArg Prod.fst heq
  rw [repeats_ofObject, List.count_flatMap]
  cases kind <;> simp [hagain]

/-- The diagnostics of a manifest that was read are the repeated entries, kind by kind and in
the order of the document, then the dangling names and then the cycles, both by their text.
A target is reported as often as a port names it while it is no component, an unknown
provider once for each definition that names it, and a repeated key once for each decodable
entry of it but one. -/
theorem diagnostics_exact (feature : String) (root : Json.Object) :
    ∃ m, ofJson feature (.object root) = .ok m ∧
      (∃ dangling cycles,
        m.diagnostics = ([.component, .dataObject, .provider].flatMap fun kind =>
          (again (entryKeys root kind)).map (.duplicateKey kind)) ++ dangling ++ cycles ∧
        (∀ d ∈ dangling, d.isDangling = true) ∧ dangling.Pairwise (·.text ≤ ·.text) ∧
        cycles.Perm (m.routingCycles.map .routingCycle) ∧ cycles.Pairwise (·.text ≤ ·.text)) ∧
      (∀ source port target, m.diagnostics.count (.danglingTarget source port target) =
        if m.component? target = none then (m.targets source port).count target else 0) ∧
      (∀ node key, m.diagnostics.count (.danglingProvider node key) =
        if m.provider? key = none then
          (if (m.component? node).bind (·.provider) = some key then 1 else 0) +
            (if (m.dataObject? node).bind (·.provider) = some key then 1 else 0)
        else 0) ∧
      ∀ kind key, m.diagnostics.count (.duplicateKey kind key) =
        (entryKeys root kind).count key - 1 := by
  refine ⟨ofObject feature root, rfl, ?order, fun source port target => ?target,
    fun node key => ?provider, fun kind key => ?repeated⟩
  case order =>
    refine ⟨sortedByText (ofObject feature root).dangling,
      sortedByText ((ofObject feature root).routingCycles.map .routingCycle), ?_,
      fun d hd => isDangling_of_mem (List.mem_mergeSort.mp hd), pairwise_sortedByText _,
      List.mergeSort_perm .., pairwise_sortedByText _⟩
    rw [diagnostics, repeats_ofObject, List.map_flatMap]
    simp only [List.map_map, Function.comp_def]
  case target =>
    rw [count_diagnostics_dangling rfl, count_danglingTarget (keyed_ofObject feature root)]
  case provider =>
    rw [count_diagnostics_dangling rfl,
      count_danglingProvider_dangling (keyed_ofObject feature root)]
  case repeated =>
    rw [count_diagnostics_repeats, count_repeats_ofObject]

end Manifest

end FeatureFlow
