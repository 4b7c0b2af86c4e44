import FeatureFlow.Proofs.Manifest.Routing
import Mathlib.Data.List.Dedup

/-!
# Listed cycles

The cycles that a manifest lists are the sets of components that all reach each other, each
set once and in the order of its keys (`routingCycles_exact`). They do not depend on how a
graph is searched: whoever knows the strong components of the routes finds the same cycles
among them, as those of more than one component or of one that leads to itself
(`Analysis.Right.cycles_perm`).
-/

namespace FeatureFlow

def Diagnostic.passes (key : String) : Diagnostic → Bool
  | routingCycle cycle => cycle.contains key
  | _ => false

namespace Manifest

variable {m : Manifest} {key other : String} {cycle group : List String}
  {groups : List (List String)}

-- ---------------------------------------------------------------------------
-- Ways between components
-- ---------------------------------------------------------------------------

/-- Outputs lead from the component to the other one, by way of existing components. -/
def Reaches (m : Manifest) : String → String → Prop :=
  Relation.TransGen fun a b => (∃ port, b ∈ m.targets a port) ∧ (m.component? b).isSome = true

theorem leads_iff :
    m.Leads key other ↔
      (∃ port, other ∈ m.targets key port) ∧ (m.component? other).isSome = true := by
  constructor
  · intro h
    have hother := mem_componentKeys_iff.mp h.target
    unfold Leads routes at h
    split at h
    · rename_i d hd
      obtain ⟨list, hlist, hmem⟩ := List.mem_flatten.mp (List.mem_filter.mp h).1
      obtain ⟨port, hport⟩ := Table.mem_values_iff.mp hlist
      exact ⟨⟨port, by simpa [targets, outputs?, hd, hport] using hmem⟩, hother⟩
    · cases h
  · rintro ⟨⟨port, hport⟩, hother⟩
    obtain ⟨d, hd⟩ := Option.isSome_iff_exists.mp hother
    exact leads_of_mem_targets hport hd

theorem reaches_iff : m.Reaches key other ↔ other ∈ m.reached key := by
  rw [mem_reached, Reaches]
  simp only [← leads_iff]

-- ---------------------------------------------------------------------------
-- Listed cycles
-- ---------------------------------------------------------------------------

theorem pairwise_componentKeys (m : Manifest) : m.componentKeys.Pairwise (· < ·) :=
  List.pairwise_map.mpr m.componentTable.rising

theorem pairwise_cycleOf (m : Manifest) (key : String) : (m.cycleOf key).Pairwise (· < ·) :=
  m.pairwise_componentKeys.filter _

theorem nodup_cycleOf (m : Manifest) (key : String) : (m.cycleOf key).Nodup :=
  (Table.nodup_keys _).filter _

theorem mem_cycleOf_self : key ∈ m.cycleOf key ↔ key ∈ m.reached key :=
  mem_cycleOf.trans (and_self_iff ..)

theorem eq_cycleOf (hcycle : cycle ∈ m.routingCycles) (hkey : key ∈ cycle) :
    cycle = m.cycleOf key := by
  obtain ⟨first, rfl, -⟩ := mem_routingCycles_iff.mp hcycle
  exact (cycleOf_eq hkey).symm

theorem cycleOf_mem_routingCycles (h : key ∈ m.reached key) :
    m.cycleOf key ∈ m.routingCycles := by
  obtain ⟨cycle, hcycle, hkey⟩ := exists_routingCycle_iff.mpr h
  exact eq_cycleOf hcycle hkey ▸ hcycle

theorem nodup_routingCycles (m : Manifest) : m.routingCycles.Nodup := by
  rw [routingCycles, mutuallyReached_eq, List.filterMap_map]
  refine (Table.nodup_keys _).filterMap fun a b cycle ha hb => ?_
  -- a cycle stands under its first component and no other one
  obtain ⟨hfirst, hlist⟩ := (Option.ite_none_right_eq_some ..).mp ha
  obtain ⟨hfirst', hlist'⟩ := (Option.ite_none_right_eq_some ..).mp hb
  rw [Option.some.inj hlist] at hfirst
  rw [Option.some.inj hlist'] at hfirst'
  exact Option.some.inj (hfirst.symm.trans hfirst')

theorem countP_passes (m : Manifest) (key : String) :
    m.diagnostics.countP (·.passes key) = m.routingCycles.countP (·.contains key) := by
  have hrepeats : m.repeats.countP (fun entry =>
      (Diagnostic.duplicateKey entry.1 entry.2).passes key) = 0 :=
    List.countP_eq_zero.mpr fun _ _ => Bool.false_ne_true
  have hdangling : m.dangling.countP (·.passes key) = 0 := by
    refine List.countP_eq_zero.mpr fun d hd => ?_
    have hd := isDangling_of_mem hd
    cases d with
    | routingCycle => cases hd
    | _ => exact Bool.false_ne_true
  rw [countP_diagnostics, hrepeats, hdangling, Nat.zero_add]
  rfl

theorem countP_cycles (h : key ∈ m.reached key) :
    m.routingCycles.countP (·.contains key) = 1 := by
  have hsame (cycle : List String) (hcycle : cycle ∈ m.routingCycles) :
      cycle.contains key = true ↔ (cycle == m.cycleOf key) = true := by
    rw [List.contains_iff_mem, beq_iff_eq]
    refine ⟨eq_cycleOf hcycle, ?_⟩
    rintro rfl
    exact mem_cycleOf_self.mpr h
  rw [List.countP_congr hsame]
  exact m.nodup_routingCycles.count.trans (if_pos (cycleOf_mem_routingCycles h))

-- ---------------------------------------------------------------------------
-- Strong components
-- ---------------------------------------------------------------------------

/-- What a search of the routes tells: whether there is a cycle at all, and a division of the
components into groups. -/
structure Analysis where
  cyclic : Bool
  groups : List (List String)

namespace Analysis

/-- The groups are the strong components: each component is in one group, together with
those that it reaches and that reach it. -/
structure Right (m : Manifest) (a : Analysis) : Prop where
  cyclic : a.cyclic = true ↔ ∃ key, m.Reaches key key
  divides : a.groups.flatten.Perm m.componentKeys
  filled : [] ∉ a.groups
  strong : ∀ group ∈ a.groups, ∀ key ∈ group, ∀ other,
    other ∈ group ↔ other = key ∨ m.Reaches key other ∧ m.Reaches other key

/-- The groups that are cycles, in the order of their keys. A group of one component is a
cycle where an output of the component leads back to it. -/
def cycles (m : Manifest) (a : Analysis) : List (List String) :=
  if a.cyclic then
    (a.groups.filter fun group =>
      1 < group.length || group.head?.any fun key => (m.routes key).contains key).map
        (·.mergeSort fun a b => decide (a ≤ b))
  else []

variable {a : Analysis}

theorem Right.nodup (h : a.Right m) (hgroup : group ∈ a.groups) : group.Nodup := by
  have hflatten := h.divides.nodup_iff.mpr (Table.nodup_keys _)
  exact (List.nodup_flatten.mp hflatten).1 group hgroup

theorem Right.isCycle_iff (h : a.Right m) (hgroup : group ∈ a.groups) (hkey : key ∈ group) :
    (1 < group.length || group.head?.any fun key => (m.routes key).contains key) = true ↔
      key ∈ m.reached key := by
  obtain ⟨first, rest, rfl⟩ := List.exists_cons_of_ne_nil (List.ne_nil_of_mem hkey)
  have hstrong := h.strong _ hgroup
  simp only [reaches_iff] at hstrong
  rw [Bool.or_eq_true, decide_eq_true_iff, List.head?_cons, Option.any_some,
    List.contains_iff_mem]
  constructor
  · rintro (hlength | hself)
    · -- there is another component in the group, and the way to it leads back
      have hmore : first :: rest ≠ [key] := fun heq => by simp [heq] at hlength
      obtain ⟨second, hsecond, hne⟩ :=
        (((h.nodup hgroup).ne_singleton_iff key).mp hmore).resolve_left nofun
      obtain ⟨hthere, hback⟩ := ((hstrong key hkey second).mp hsecond).resolve_left hne
      exact reached_trans hthere hback
    · have hfirst : first ∈ m.reached first := mem_reached.mpr (.single hself)
      rcases (hstrong key hkey first).mp (by simp) with rfl | ⟨hthere, hback⟩
      · exact hfirst
      · exact reached_trans hthere hback
  · intro hself
    by_cases hrest : rest = []
    · -- the only component of the group can come back to itself by no other one
      subst hrest
      obtain rfl := List.mem_singleton.mp hkey
      obtain ⟨next, hleads, hback⟩ := Relation.TransGen.head'_iff.mp (mem_reached.mp hself)
      refine .inr ?_
      rcases Relation.reflTransGen_iff_eq_or_transGen.mp hback with heq | hback
      · exact heq ▸ hleads
      · have hmem : next ∈ [key] := (hstrong key (by simp) next).mpr
          (.inr ⟨mem_reached.mpr (.single hleads), mem_reached.mpr hback⟩)
        exact List.mem_singleton.mp hmem ▸ hleads
    · exact .inl (by simpa using List.length_pos_iff.mpr hrest)

theorem Right.mergeSort_eq (h : a.Right m) (hgroup : group ∈ a.groups) (hkey : key ∈ group)
    (hself : key ∈ m.reached key) :
    (group.mergeSort fun a b => decide (a ≤ b)) = m.cycleOf key := by
  have hperm : group.Perm (m.cycleOf key) := by
    refine (List.perm_ext_iff_of_nodup (h.nodup hgroup) (m.nodup_cycleOf key)).mpr fun other => ?_
    rw [h.strong group hgroup key hkey, reaches_iff, reaches_iff, mem_cycleOf]
    constructor
    · rintro (rfl | hmutual)
      · exact ⟨hself, hself⟩
      · exact hmutual
    · exact .inr
  have hsorted : (group.mergeSort fun a b => decide (a ≤ b)).Pairwise
      fun a b => decide (a ≤ b) = true :=
    List.pairwise_mergeSort (by simpa using fun a b c => String.le_trans)
      (by simpa using String.le_total) group
  refine ((List.mergeSort_perm ..).trans hperm).eq_of_pairwise ?_
    (hsorted.imp of_decide_eq_true)
    ((m.pairwise_cycleOf key).imp fun hlt => Std.le_of_lt hlt)
  exact fun _ _ _ _ => String.le_antisymm

theorem Right.mem_cycles (h : a.Right m) : cycle ∈ a.cycles m ↔ cycle ∈ m.routingCycles := by
  have hcyclic : a.cyclic = true ↔ ∃ key, key ∈ m.reached key := by
    simpa only [reaches_iff] using h.cyclic
  constructor
  · intro hcycle
    obtain ⟨-, hcycle⟩ := (List.mem_ite_nil_right ..).mp hcycle
    obtain ⟨group, hgroup, rfl⟩ := List.mem_map.mp hcycle
    obtain ⟨hgroup, hcycle⟩ := List.mem_filter.mp hgroup
    obtain ⟨key, hkey⟩ := List.exists_mem_of_ne_nil group fun hnil => h.filled (hnil ▸ hgroup)
    have hself := (h.isCycle_iff hgroup hkey).mp hcycle
    rw [h.mergeSort_eq hgroup hkey hself]
    exact cycleOf_mem_routingCycles hself
  · intro hcycle
    obtain ⟨key, rfl, hhead⟩ := mem_routingCycles_iff.mp hcycle
    have hself := mem_cycleOf_self.mp (List.mem_of_mem_head? hhead)
    have hknown : key ∈ a.groups.flatten := h.divides.mem_iff.mpr (subset_of_visit hself)
    obtain ⟨group, hgroup, hkey⟩ := List.mem_flatten.mp hknown
    refine (List.mem_ite_nil_right ..).mpr ⟨hcyclic.mpr ⟨key, hself⟩, List.mem_map.mpr
      ⟨group, List.mem_filter.mpr ⟨hgroup, ?_⟩, h.mergeSort_eq hgroup hkey hself⟩⟩
    exact (h.isCycle_iff hgroup hkey).mpr hself

theorem Right.cycles_perm (h : a.Right m) : (a.cycles m).Perm m.routingCycles := by
  refine (List.perm_ext_iff_of_nodup ?_ m.nodup_routingCycles).mpr fun _ => h.mem_cycles
  unfold cycles
  split
  · have hflatten := h.divides.nodup_iff.mpr (Table.nodup_keys _)
    have hdisjoint := (List.nodup_flatten.mp hflatten).2.filter fun group =>
      1 < group.length || group.head?.any fun key => (m.routes key).contains key
    refine List.pairwise_map.mpr (hdisjoint.imp_of_mem fun {first second} hfirst _ hapart heq => ?_)
    -- groups that are sorted alike have their components in common
    obtain ⟨key, hkey⟩ := List.exists_mem_of_ne_nil first fun hnil =>
      h.filled (hnil ▸ (List.mem_filter.mp hfirst).1)
    exact hapart hkey (List.mem_mergeSort.mp (heq ▸ List.mem_mergeSort.mpr hkey))
  · exact .nil

def groupOf (m : Manifest) (key : String) : List String :=
  m.componentKeys.filter fun other => other = key ∨ other ∈ m.cycleOf key

def ofRoutes (m : Manifest) : Analysis where
  cyclic := m.componentKeys.any fun key => key ∈ m.reached key
  groups := (m.componentKeys.map (groupOf m)).dedup

theorem mem_groupOf (hkey : key ∈ m.componentKeys) :
    other ∈ groupOf m key ↔ other = key ∨ other ∈ m.cycleOf key := by
  have hknown : other = key ∨ other ∈ m.cycleOf key → other ∈ m.componentKeys := by
    rintro (rfl | hother)
    · exact hkey
    · exact subset_of_visit (mem_cycleOf.mp hother).1
  simpa [groupOf] using hknown

theorem groupOf_eq (hkey : key ∈ m.componentKeys) (h : other ∈ groupOf m key) :
    groupOf m other = groupOf m key := by
  rcases (mem_groupOf hkey).mp h with rfl | hmutual
  · rfl
  · refine List.filter_congr fun last _ => decide_eq_decide.mpr ?_
    rw [cycleOf_eq hmutual]
    have hkeys : key ∈ m.cycleOf key := by
      obtain ⟨hthere, hback⟩ := mem_cycleOf.mp hmutual
      exact mem_cycleOf_self.mpr (reached_trans hthere hback)
    constructor
    · rintro (rfl | hlast)
      · exact .inr hmutual
      · exact .inr hlast
    · rintro (rfl | hlast)
      · exact .inr hkeys
      · exact .inr hlast

theorem right_ofRoutes (m : Manifest) : (ofRoutes m).Right m := by
  have hgroup {group : List String} :
      group ∈ (ofRoutes m).groups ↔ ∃ key ∈ m.componentKeys, groupOf m key = group := by
    rw [ofRoutes, List.mem_dedup, List.mem_map]
  have hself {key : String} (hkey : key ∈ m.componentKeys) : key ∈ groupOf m key :=
    (mem_groupOf hkey).mpr (.inl rfl)
  have hknown {key other : String} (h : other ∈ groupOf m key) : other ∈ m.componentKeys :=
    List.mem_of_mem_filter h
  constructor
  case cyclic =>
    have hsource {key : String} (h : key ∈ m.reached key) : key ∈ m.componentKeys :=
      subset_of_visit h
    simp only [reaches_iff, ofRoutes, List.any_eq_true, decide_eq_true_iff]
    exact ⟨fun ⟨key, _, h⟩ => ⟨key, h⟩, fun ⟨key, h⟩ => ⟨key, hsource h, h⟩⟩
  case divides =>
    refine (List.perm_ext_iff_of_nodup (List.nodup_flatten.mpr ⟨?_, ?_⟩)
      (Table.nodup_keys _)).mpr fun key => ?_
    · rintro group hmem
      obtain ⟨key, -, rfl⟩ := hgroup.mp hmem
      exact (Table.nodup_keys _).filter _
    · -- different groups have no component in common
      refine (List.nodup_dedup _).imp_of_mem fun {first second} hfirst hsecond hne key hin hin' => ?_
      obtain ⟨a, ha, rfl⟩ := hgroup.mp hfirst
      obtain ⟨b, hb, rfl⟩ := hgroup.mp hsecond
      exact hne ((groupOf_eq ha hin).symm.trans (groupOf_eq hb hin'))
    · rw [List.mem_flatten]
      constructor
      · rintro ⟨group, hmem, hkey⟩
        obtain ⟨a, -, rfl⟩ := hgroup.mp hmem
        exact hknown hkey
      · exact fun hkey => ⟨_, hgroup.mpr ⟨key, hkey, rfl⟩, hself hkey⟩
  case filled =>
    intro hmem
    obtain ⟨key, hkey, hnil⟩ := hgroup.mp hmem
    exact List.ne_nil_of_mem (hself hkey) hnil
  case strong =>
    intro group hmem key hkey other
    obtain ⟨a, ha, rfl⟩ := hgroup.mp hmem
    rw [← groupOf_eq ha hkey, mem_groupOf (hknown hkey), mem_cycleOf, reaches_iff, reaches_iff]

end Analysis

-- ---------------------------------------------------------------------------
-- Diagnostics
-- ---------------------------------------------------------------------------

/-- There are diagnostics of cycles exactly where some component reaches itself. Each names
the components that any one of its components reaches and is reached from, all of them and in
rising order. A component that reaches itself is on one of them, and any other on none. The
same cycles are found by whoever knows the strong components of the routes, which all
manifests have. -/
theorem routingCycles_exact (m : Manifest) :
    ((∃ cycle, .routingCycle cycle ∈ m.diagnostics) ↔ ∃ key, m.Reaches key key) ∧
      (∀ cycle, .routingCycle cycle ∈ m.diagnostics →
        cycle ≠ [] ∧ cycle.Pairwise (· < ·) ∧
          ∀ key ∈ cycle, ∀ other, other ∈ cycle ↔ m.Reaches key other ∧ m.Reaches other key) ∧
      (∀ key, (m.Reaches key key → m.diagnostics.countP (·.passes key) = 1) ∧
        (¬m.Reaches key key → m.diagnostics.countP (·.passes key) = 0)) ∧
      (∃ a : Analysis, a.Right m) ∧
      ∀ a : Analysis, a.Right m → (a.cycles m).Perm m.routingCycles := by
  simp only [mem_diagnostics_iff, reaches_iff, countP_passes]
  refine ⟨⟨?_, ?_⟩, fun cycle hcycle => ?_, fun key => ⟨countP_cycles, fun h => ?_⟩,
    ⟨.ofRoutes m, Analysis.right_ofRoutes m⟩, fun a h => h.cycles_perm⟩
  · rintro ⟨cycle, hcycle⟩
    obtain ⟨key, rfl, hhead⟩ := mem_routingCycles_iff.mp hcycle
    exact ⟨key, mem_cycleOf_self.mp (List.mem_of_mem_head? hhead)⟩
  · rintro ⟨key, hself⟩
    exact ⟨m.cycleOf key, cycleOf_mem_routingCycles hself⟩
  · obtain ⟨first, hfirst, hhead⟩ := mem_routingCycles_iff.mp hcycle
    refine ⟨List.ne_nil_of_mem (List.mem_of_mem_head? hhead), hfirst ▸ m.pairwise_cycleOf first,
      fun key hkey other => ?_⟩
    rw [eq_cycleOf hcycle hkey, mem_cycleOf]
  · refine List.countP_eq_zero.mpr fun cycle hcycle hkey => h ?_
    exact exists_routingCycle_iff.mp ⟨cycle, hcycle, List.contains_iff_mem.mp hkey⟩

end Manifest

end FeatureFlow
