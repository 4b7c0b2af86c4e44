import FeatureFlow.Manifest.Diagnostic
import Mathlib.Data.List.Perm.Subperm
import Mathlib.Logic.Relation

/-!
# Reaching and cycles

A visit finds what the pending keys reach (`mem_reached`). Two components that reach each
other are listed on the same cycle, so without a listed cycle no component reaches itself
(`not_mem_reached`), and each route leads to a component that reaches less
(`depth_lt_of_leads`).
-/

namespace FeatureFlow

/-- Whether it is about the name of something that is not there. -/
def Diagnostic.isDangling : Diagnostic → Bool
  | danglingTarget .. | danglingProvider .. => true
  | _ => false

namespace Manifest

variable {m : Manifest} {key other : String}

-- ---------------------------------------------------------------------------
-- Visits
-- ---------------------------------------------------------------------------

section

variable {next : String → List String} {remaining pending : List String}

theorem subset_of_visit : visit next remaining pending ⊆ remaining := by
  induction remaining, pending using visit.induct next with
  | case1 remaining => simp [visit]
  | case2 remaining key pending hkey ih =>
    rw [visit, if_pos hkey]
    exact List.cons_subset.mpr ⟨hkey, fun _ hmem => List.mem_of_mem_erase (ih hmem)⟩
  | case3 remaining key pending hkey ih => rwa [visit, if_neg hkey]

theorem nodup_visit (h : remaining.Nodup) : (visit next remaining pending).Nodup := by
  induction remaining, pending using visit.induct next with
  | case1 remaining => simp [visit]
  | case2 remaining key pending hkey ih =>
    rw [visit, if_pos hkey, List.nodup_cons]
    exact ⟨fun hmem => h.not_mem_erase (subset_of_visit hmem), ih (h.erase key)⟩
  | case3 remaining key pending hkey ih =>
    rw [visit, if_neg hkey]
    exact ih h

theorem reach_of_mem_visit (h : other ∈ visit next remaining pending) :
    ∃ start ∈ pending, Relation.ReflTransGen (fun a b => b ∈ next a) start other := by
  induction remaining, pending using visit.induct next with
  | case1 remaining => simp [visit] at h
  | case2 remaining key pending hkey ih =>
    rw [visit, if_pos hkey] at h
    rcases List.mem_cons.mp h with rfl | h
    · exact ⟨other, by simp, .refl⟩
    · obtain ⟨start, hstart, hreach⟩ := ih h
      rcases List.mem_append.mp hstart with hstart | hstart
      · exact ⟨key, by simp, hreach.head hstart⟩
      · exact ⟨start, List.mem_cons_of_mem _ hstart, hreach⟩
  | case3 remaining key pending hkey ih =>
    rw [visit, if_neg hkey] at h
    obtain ⟨start, hstart, hreach⟩ := ih h
    exact ⟨start, List.mem_cons_of_mem _ hstart, hreach⟩

theorem mem_visit_of_pending (hpending : other ∈ pending) (h : other ∈ remaining) :
    other ∈ visit next remaining pending := by
  induction remaining, pending using visit.induct next with
  | case1 remaining => cases hpending
  | case2 remaining key pending hkey ih =>
    rw [visit, if_pos hkey]
    by_cases heq : other = key
    · exact heq ▸ List.mem_cons_self
    · have hrest : other ∈ pending := by simpa [heq] using hpending
      exact List.mem_cons_of_mem _
        (ih (List.mem_append_right _ hrest) ((List.mem_erase_of_ne heq).mpr h))
  | case3 remaining key pending hkey ih =>
    rw [visit, if_neg hkey]
    rcases List.mem_cons.mp hpending with rfl | hrest
    · exact absurd h hkey
    · exact ih hrest h

theorem mem_visit_of_next (hvisited : key ∈ visit next remaining pending)
    (hnext : other ∈ next key) (h : other ∈ remaining) : other ∈ visit next remaining pending := by
  induction remaining, pending using visit.induct next with
  | case1 remaining => simp [visit] at hvisited
  | case2 remaining first pending hfirst ih =>
    rw [visit, if_pos hfirst] at hvisited ⊢
    by_cases heq : other = first
    · exact heq ▸ List.mem_cons_self
    · -- what comes next to the first key is pending from then on
      have herase := (List.mem_erase_of_ne heq).mpr h
      apply List.mem_cons_of_mem
      rcases List.mem_cons.mp hvisited with rfl | hvisited
      · exact mem_visit_of_pending (List.mem_append_left _ hnext) herase
      · exact ih hvisited herase
  | case3 remaining first pending hfirst ih =>
    rw [visit, if_neg hfirst] at hvisited ⊢
    exact ih hvisited h

end

-- ---------------------------------------------------------------------------
-- Reaching
-- ---------------------------------------------------------------------------

/-- A port of the component names the other one, which exists. -/
def Leads (m : Manifest) (key other : String) : Prop :=
  other ∈ m.routes key

theorem mem_componentKeys_iff : key ∈ m.componentKeys ↔ (m.component? key).isSome = true :=
  Table.mem_keys_iff

theorem Leads.source (h : m.Leads key other) : key ∈ m.componentKeys := by
  unfold Leads routes at h
  split at h
  · rename_i d hd
    exact mem_componentKeys_iff.mpr (Option.isSome_iff_exists.mpr ⟨d, hd⟩)
  · cases h

theorem Leads.target (h : m.Leads key other) : other ∈ m.componentKeys := by
  unfold Leads routes at h
  split at h
  · exact mem_componentKeys_iff.mpr (List.mem_filter.mp h).2
  · cases h

theorem leads_of_mem_targets {port : String} (h : other ∈ m.targets key port)
    (hother : m.component? other = some d) : m.Leads key other := by
  obtain ⟨list, hlist, hmem⟩ : ∃ list, m.outputs? key port = some list ∧ other ∈ list := by
    unfold targets at h
    cases hlist : m.outputs? key port with
    | none => simp [hlist] at h
    | some list => exact ⟨list, rfl, by simpa [hlist] using h⟩
  obtain ⟨e, he, hport⟩ := Option.bind_eq_some_iff.mp hlist
  rw [Leads, routes, he]
  refine List.mem_filter.mpr ⟨List.mem_flatten.mpr ⟨list, ?_, hmem⟩, ?_⟩
  · exact Table.mem_values_iff.mpr ⟨port, hport⟩
  · exact Option.isSome_iff_exists.mpr ⟨d, hother⟩

theorem mem_reached : other ∈ m.reached key ↔ Relation.TransGen m.Leads key other := by
  constructor
  · intro h
    obtain ⟨start, hstart, hreach⟩ := reach_of_mem_visit h
    exact .head' hstart hreach
  · intro h
    -- a visit is closed under routes, so it follows the path to its end
    induction h with
    | single h => exact mem_visit_of_pending h h.target
    | tail _ h ih => exact mem_visit_of_next ih h h.target

theorem reached_trans (h : other ∈ m.reached key) : m.reached other ⊆ m.reached key := by
  intro last hlast
  exact mem_reached.mpr ((mem_reached.mp h).trans (mem_reached.mp hlast))

-- ---------------------------------------------------------------------------
-- Cycles
-- ---------------------------------------------------------------------------

theorem isDangling_of_mem {d : Diagnostic} (h : d ∈ m.dangling) : d.isDangling = true := by
  have hprovider {node : String} {provider : Option String}
      (h : d ∈ m.danglingProvider node provider) : d.isDangling = true := by
    obtain ⟨_, -, rfl⟩ := List.mem_map.mp h
    rfl
  rcases List.mem_append.mp h with h | h
  · obtain ⟨e, -, h⟩ := List.mem_flatMap.mp h
    rcases List.mem_append.mp h with h | h
    · obtain ⟨_, -, h⟩ := List.mem_flatMap.mp h
      obtain ⟨_, -, rfl⟩ := List.mem_map.mp h
      rfl
    · exact hprovider h
  · obtain ⟨e, -, h⟩ := List.mem_flatMap.mp h
    exact hprovider h

theorem get?_map_keys {keys : List String} (value : String → α) :
    Fields.get? key (keys.map fun k => (k, value k)) =
      if key ∈ keys then some (value key) else none := by
  induction keys with
  | nil => rfl
  | cons first rest ih =>
    by_cases h : first = key
    · simp [Fields.get?, h]
    · simp [Fields.get?, h, ih, Ne.symm h]

theorem reached_of_not_mem (h : key ∉ m.componentKeys) : m.reached key = [] := by
  refine List.eq_nil_iff_forall_not_mem.mpr fun other hother => ?_
  obtain ⟨first, hfirst, -⟩ := Relation.TransGen.head'_iff.mp (mem_reached.mp hother)
  exact h hfirst.source

def cycleOf (m : Manifest) (key : String) : List String :=
  m.componentKeys.filter fun other => other ∈ m.reached key ∧ key ∈ m.reached other

theorem mem_cycleOf : other ∈ m.cycleOf key ↔ other ∈ m.reached key ∧ key ∈ m.reached other := by
  have hknown : other ∈ m.reached key → other ∈ m.componentKeys := (subset_of_visit ·)
  simpa [cycleOf] using fun h _ => hknown h

theorem cycleOf_eq (h : other ∈ m.cycleOf key) : m.cycleOf other = m.cycleOf key := by
  obtain ⟨hthere, hback⟩ := mem_cycleOf.mp h
  refine List.filter_congr fun last _ => decide_eq_decide.mpr ⟨?_, ?_⟩
  · rintro ⟨hout, hin⟩
    exact ⟨reached_trans hthere hout, reached_trans hin hback⟩
  · rintro ⟨hout, hin⟩
    exact ⟨reached_trans hback hout, reached_trans hin hthere⟩

theorem mutuallyReached_eq (m : Manifest) :
    m.mutuallyReached = m.componentKeys.map fun key => (key, m.cycleOf key) := by
  have hreach (a : String) : ((Table.ofList (m.componentKeys.map fun key =>
      (key, m.reached key))).get? a).getD [] = m.reached a := by
    rw [Table.get?_ofList, ← List.map_reverse, get?_map_keys]
    by_cases h : a ∈ m.componentKeys <;> simp [h, reached_of_not_mem]
  simp [mutuallyReached, hreach, cycleOf]

theorem mem_routingCycles_iff {cycle : List String} :
    cycle ∈ m.routingCycles ↔ ∃ key, m.cycleOf key = cycle ∧ cycle.head? = some key := by
  rw [routingCycles, mutuallyReached_eq, List.filterMap_map, List.mem_filterMap]
  constructor
  · rintro ⟨key, -, h⟩
    obtain ⟨hhead, hcycle⟩ := (Option.ite_none_right_eq_some ..).mp h
    obtain rfl : m.cycleOf key = cycle := Option.some.inj hcycle
    exact ⟨key, rfl, hhead⟩
  · rintro ⟨key, rfl, hhead⟩
    have hkey := mem_cycleOf.mp (List.mem_of_mem_head? hhead)
    exact ⟨key, subset_of_visit hkey.1, if_pos hhead⟩

/-- The components that are listed on a cycle are those that reach themselves. -/
theorem exists_routingCycle_iff :
    (∃ cycle ∈ m.routingCycles, key ∈ cycle) ↔ key ∈ m.reached key := by
  constructor
  · rintro ⟨cycle, hcycle, hkey⟩
    obtain ⟨first, rfl, -⟩ := mem_routingCycles_iff.mp hcycle
    obtain ⟨hthere, hback⟩ := mem_cycleOf.mp hkey
    exact reached_trans hback hthere
  · intro h
    have hkey : key ∈ m.cycleOf key := mem_cycleOf.mpr ⟨h, h⟩
    obtain ⟨first, rest, hcycle⟩ := List.exists_cons_of_ne_nil (List.ne_nil_of_mem hkey)
    -- the cycle is listed under its first component, which has the same list
    have hsame : m.cycleOf first = m.cycleOf key := cycleOf_eq (hcycle ▸ List.mem_cons_self)
    refine ⟨m.cycleOf first, mem_routingCycles_iff.mpr ⟨first, rfl, ?_⟩, hsame ▸ hkey⟩
    rw [hsame, hcycle]
    rfl

theorem mem_diagnostics_iff {cycle : List String} :
    .routingCycle cycle ∈ m.diagnostics ↔ cycle ∈ m.routingCycles := by
  rw [diagnostics, List.append_assoc, List.mem_append, List.mem_append, sortedByText, sortedByText,
    List.mem_mergeSort, List.mem_mergeSort]
  constructor
  · rintro (h | h | h)
    · obtain ⟨_, -, h⟩ := List.mem_map.mp h
      cases h
    · cases isDangling_of_mem h
    · obtain ⟨_, hcycle, h⟩ := List.mem_map.mp h
      exact Diagnostic.routingCycle.inj h ▸ hcycle
  · intro h
    exact .inr (.inr (List.mem_map.mpr ⟨cycle, h, rfl⟩))

theorem countP_diagnostics (m : Manifest) (p : Diagnostic → Bool) :
    m.diagnostics.countP p = m.repeats.countP (fun entry => p (.duplicateKey entry.1 entry.2)) +
      m.dangling.countP p + m.routingCycles.countP (p <| .routingCycle ·) := by
  rw [diagnostics, List.countP_append, List.countP_append, sortedByText, sortedByText,
    (List.mergeSort_perm ..).countP_eq, (List.mergeSort_perm ..).countP_eq, List.countP_map,
    List.countP_map]
  rfl

theorem not_mem_reached (h : ∀ cycle, .routingCycle cycle ∉ m.diagnostics) (key : String) :
    key ∉ m.reached key := by
  intro hkey
  obtain ⟨cycle, hcycle, -⟩ := exists_routingCycle_iff.mpr hkey
  exact h cycle (mem_diagnostics_iff.mpr hcycle)

/-- A rank that falls along every route leaves no room for a cycle. -/
theorem acyclic_of_falling (rank : String → Nat)
    (h : ∀ key ∈ m.componentKeys, ∀ other ∈ m.routes key, rank other < rank key)
    (cycle : List String) : .routingCycle cycle ∉ m.diagnostics := by
  intro hcycle
  obtain ⟨key, rfl, hhead⟩ := mem_routingCycles_iff.mp (mem_diagnostics_iff.mp hcycle)
  have hkey := (mem_cycleOf.mp (List.mem_of_mem_head? hhead)).1
  suffices hfalls : ∀ other, Relation.TransGen m.Leads key other → rank other < rank key from
    Nat.lt_irrefl _ (hfalls key (mem_reached.mp hkey))
  intro other hreach
  induction hreach with
  | single hleads => exact h key hleads.source _ hleads
  | tail _ hleads ih => exact Nat.lt_trans (h _ hleads.source _ hleads) ih

-- ---------------------------------------------------------------------------
-- Depths
-- ---------------------------------------------------------------------------

/-- How many components a component reaches. -/
def depth (m : Manifest) (key : String) : Nat :=
  (m.reached key).length

theorem length_le_size {keys : List String} (h : keys.Nodup) (hsubset : keys ⊆ m.componentKeys) :
    keys.length ≤ m.componentTable.size := by
  have hsize : m.componentKeys.length = m.componentTable.size := List.length_map ..
  exact hsize ▸ (List.subperm_of_subset h hsubset).length_le

theorem depth_le (m : Manifest) (key : String) : m.depth key ≤ m.componentTable.size :=
  length_le_size (nodup_visit (Table.nodup_keys _)) subset_of_visit

theorem depth_lt_of_leads (hacyclic : ∀ cycle, .routingCycle cycle ∉ m.diagnostics)
    (h : m.Leads key other) : m.depth other < m.depth key := by
  have hother : other ∈ m.reached key := mem_reached.mpr (.single h)
  -- the other one reaches no more than is reached through it, and not itself
  have hnodup : (other :: m.reached other).Nodup :=
    List.nodup_cons.mpr ⟨not_mem_reached hacyclic other, nodup_visit (Table.nodup_keys _)⟩
  have hsubset : other :: m.reached other ⊆ m.reached key :=
    List.cons_subset.mpr ⟨hother, reached_trans hother⟩
  exact (List.subperm_of_subset hnodup hsubset).length_le

end Manifest

end FeatureFlow
