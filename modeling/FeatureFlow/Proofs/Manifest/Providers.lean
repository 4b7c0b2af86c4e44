import FeatureFlow.Proofs.Manifest.Findings

/-!
# Providers of entries

An entry is served by the provider that it names, if that one is there, and otherwise by the
first provider of its type (`provider_exact`). Providers are gone through in the order in which
their keys are read first, but each of them is what the last entry of its key says.
-/

namespace FeatureFlow

-- ---------------------------------------------------------------------------
-- The order of first occurrences
-- ---------------------------------------------------------------------------

section

variable {key first second : String} {keys : List String}

theorem idxOf_lt_of_filter (hfirst : key ≠ first) (hsecond : key ≠ second)
    (h : (keys.filter fun k => !k == key).idxOf first <
      (keys.filter fun k => !k == key).idxOf second) :
    keys.idxOf first < keys.idxOf second := by
  induction keys with
  | nil => simp at h
  | cons head rest ih =>
    by_cases hhead : head = key
    · subst hhead
      rw [List.filter_cons_of_neg (by simp)] at h
      rw [List.idxOf_cons_ne _ hfirst, List.idxOf_cons_ne _ hsecond]
      exact Nat.succ_lt_succ (ih h)
    · rw [List.filter_cons_of_pos (by simpa using hhead)] at h
      have hne : head ≠ second := by
        rintro rfl
        simp at h
      rw [List.idxOf_cons_ne _ hne] at h ⊢
      by_cases hsame : head = first
      · rw [List.idxOf_cons_eq _ hsame]
        exact Nat.succ_pos _
      · rw [List.idxOf_cons_ne _ hsame] at h ⊢
        exact Nat.succ_lt_succ (ih (Nat.lt_of_succ_lt_succ h))

theorem pairwise_eraseDups (keys : List String) :
    keys.eraseDups.Pairwise fun a b => keys.idxOf a < keys.idxOf b := by
  match keys with
  | [] => exact .nil
  | key :: rest =>
    have hne {other : String} (h : other ∈ (rest.filter fun k => !k == key).eraseDups) :
        key ≠ other := by
      rintro rfl
      simp at h
    rw [List.eraseDups_cons, List.pairwise_cons]
    refine ⟨fun other hother => ?_, ?_⟩
    · rw [List.idxOf_cons_self, List.idxOf_cons_ne _ (hne hother)]
      exact Nat.succ_pos _
    · refine (pairwise_eraseDups (rest.filter fun k => !k == key)).imp_of_mem ?_
      intro a b ha hb hlt
      rw [List.idxOf_cons_ne _ (hne ha), List.idxOf_cons_ne _ (hne hb)]
      exact Nat.succ_lt_succ (idxOf_lt_of_filter (hne ha) (hne hb) hlt)
termination_by keys.length
decreasing_by exact Nat.lt_succ_of_le (List.length_filter_le ..)

end

namespace Manifest

-- ---------------------------------------------------------------------------
-- What a provider key stands for
-- ---------------------------------------------------------------------------

def Provides (root : Json.Object) (key : String) (p : ProviderDefinition) : Prop :=
  IsLast ProviderDefinition.decode ProviderDefinition.key
    (items ManifestDocument.providersName root) key p

/-- Of the keys that stand for a provider of the type, the key of this one is read first. -/
structure IsFirst (root : Json.Object) (typeName key : String) (p : ProviderDefinition) : Prop where
  provides : Provides root key p
  ofType : p.typeName = typeName
  least : ∀ other q, Provides root other q → q.typeName = typeName →
    (entryKeys root .provider).idxOf key ≤ (entryKeys root .provider).idxOf other

inductive Served (root : Json.Object) (declared : Option String) (typeName : String) :
    Option ProviderDefinition → Prop
  /-- It names a key of the list, whatever type that stands for. -/
  | named (hnamed : declared = some key) (hknown : key ∈ entryKeys root .provider)
      (hprovides : Provides root key p) : Served root declared typeName (some p)
  | first (hunknown : ∀ key ∈ declared, key ∉ entryKeys root .provider)
      (hfirst : IsFirst root typeName key p) : Served root declared typeName (some p)
  | none (hunknown : ∀ key ∈ declared, key ∉ entryKeys root .provider)
      (hnone : ∀ key p, Provides root key p → p.typeName ≠ typeName) :
      Served root declared typeName none

variable {feature : String} {root : Json.Object} {key typeName : String} {p : ProviderDefinition}

theorem provider?_eq_some (feature : String) :
    (ofObject feature root).provider? key = some p ↔ Provides root key p :=
  provider?_ofObject feature root key p

theorem providerOrder_eq (feature : String) (root : Json.Object) :
    (ofObject feature root).providerOrder = (entryKeys root .provider).eraseDups := by
  simp only [ofObject, getD_entries, entryKeys, keysIn]

theorem mem_entryKeys_provider :
    key ∈ entryKeys root .provider ↔ ∃ p, Provides root key p := by
  -- which feature the manifest is of does not matter
  rw [← List.mem_eraseDups, ← providerOrder_eq "" root, mem_providerOrder]
  simp only [provider?_eq_some]

theorem Provides.unique (h : Provides root key p) (hother : Provides root key q) : p = q :=
  Option.some.inj
    (((provider?_eq_some "").mpr h).symm.trans ((provider?_eq_some "").mpr hother))

-- ---------------------------------------------------------------------------
-- The first provider of a type
-- ---------------------------------------------------------------------------

theorem IsFirst.of_firstProvider? (h : (ofObject feature root).firstProvider? typeName = some p) :
    ∃ key, IsFirst root typeName key p := by
  rw [firstProvider?, orderedProviders, List.find?_filterMap, Option.bind_eq_some_iff] at h
  obtain ⟨key, hfind, hp⟩ := h
  obtain ⟨htype, before, after, horder, hbefore⟩ := List.find?_eq_some_iff_append.mp hfind
  have hsorted := pairwise_eraseDups (entryKeys root .provider)
  rw [← providerOrder_eq feature, horder] at hsorted
  refine ⟨key, (provider?_eq_some feature).mp hp, by simpa [hp] using htype,
    fun other q hq hother => ?_⟩
  have hq := (provider?_eq_some feature).mpr hq
  -- no key in front of the one that was found stands for the type
  have hmem : other ∈ before ++ key :: after :=
    horder ▸ (mem_providerOrder feature root other).mpr ⟨q, hq⟩
  rcases List.mem_append.mp hmem with hfront | hrest
  · exact absurd (hbefore other hfront) (by simp [hq, hother])
  · rcases List.mem_cons.mp hrest with rfl | hback
    · exact Nat.le_refl _
    · exact Nat.le_of_lt ((List.pairwise_cons.mp (List.pairwise_append.mp hsorted).2.1).1 _ hback)

theorem IsFirst.unique (h : IsFirst root typeName key p) (hother : IsFirst root typeName other q) :
    p = q := by
  have hplace := Nat.le_antisymm (h.least other q hother.provides hother.ofType)
    (hother.least key p h.provides h.ofType)
  have hkey : key ∈ entryKeys root .provider := mem_entryKeys_provider.mpr ⟨p, h.provides⟩
  obtain rfl := (List.idxOf_inj hkey).mp hplace
  exact h.provides.unique hother.provides

theorem firstProvider?_of_provides (feature : String) (h : Provides root key p) :
    ∃ q, (ofObject feature root).firstProvider? p.typeName = some q := by
  have hp := (provider?_eq_some feature).mpr h
  refine Option.isSome_iff_exists.mp (List.find?_isSome.mpr ⟨p, ?_, by simp⟩)
  exact List.mem_filterMap.mpr ⟨key, (mem_providerOrder feature root key).mpr ⟨p, hp⟩, hp⟩

-- ---------------------------------------------------------------------------
-- Serving entries
-- ---------------------------------------------------------------------------

theorem served_of_eq (feature : String) (root : Json.Object) (declared : Option String)
    (typeName : String) :
    Served root declared typeName
      ((ofObject feature root).namedProvider? declared <|>
        (ofObject feature root).firstProvider? typeName) := by
  cases hnamed : (ofObject feature root).namedProvider? declared with
  | some p =>
    obtain ⟨key, hkey, hp⟩ := Option.bind_eq_some_iff.mp hnamed
    have hprovides := (provider?_eq_some feature).mp hp
    exact .named hkey (mem_entryKeys_provider.mpr ⟨p, hprovides⟩) hprovides
  | none =>
    have hunknown : ∀ key ∈ declared, key ∉ entryKeys root .provider := by
      rintro key hkey hmem
      obtain ⟨p, hp⟩ := mem_entryKeys_provider.mp hmem
      have hfound := (provider?_eq_some feature).mpr hp
      simp [namedProvider?, Option.mem_def.mp hkey, hfound] at hnamed
    cases hfirst : (ofObject feature root).firstProvider? typeName with
    | some p =>
      obtain ⟨key, hfirst⟩ := IsFirst.of_firstProvider? hfirst
      exact .first hunknown hfirst
    | none =>
      refine .none hunknown ?_
      rintro key p hp rfl
      obtain ⟨q, hq⟩ := firstProvider?_of_provides feature hp
      cases hfirst.symm.trans hq

theorem Served.unique (h : Served root declared typeName a)
    (hother : Served root declared typeName b) : a = b := by
  cases h with
  | named hnamed hknown hp =>
    subst hnamed
    cases hother with
    | named hnamed _ hq =>
      obtain rfl := Option.some.inj hnamed
      exact congrArg some (hp.unique hq)
    | first hunknown | none hunknown => exact absurd hknown (hunknown _ rfl)
  | first hunknown hfirst =>
    cases hother with
    | named hnamed hknown => exact absurd hknown (hunknown _ hnamed)
    | first _ hother => exact congrArg some (hfirst.unique hother)
    | none _ hnone => exact absurd hfirst.ofType (hnone _ _ hfirst.provides)
  | none hunknown hnone =>
    cases hother with
    | named hnamed hknown => exact absurd hknown (hunknown _ hnamed)
    | first _ hfirst => exact absurd hfirst.ofType (hnone _ _ hfirst.provides)
    | none => rfl

theorem served_iff (feature : String) (root : Json.Object) (declared : Option String)
    (typeName : String) (outcome : Option ProviderDefinition) :
    Served root declared typeName outcome ↔
      outcome = ((ofObject feature root).namedProvider? declared <|>
        (ofObject feature root).firstProvider? typeName) := by
  have hserved := served_of_eq feature root declared typeName
  exact ⟨fun h => h.unique hserved, fun h => h ▸ hserved⟩

/-- The provider of a component or data object is the last entry of the key that it names, if
some entry has that key. Otherwise it is the first of the keys, in the order in which they are
read first, whose last entry has the right type, and it has none if there is no such key. -/
theorem provider_exact (feature : String) (root : Json.Object) :
    ∃ m, ofJson feature (.object root) = .ok m ∧
      (∀ (d : ComponentDefinition) outcome,
        Served root d.provider "ComponentProvider" outcome ↔
          outcome = m.componentProvider? d) ∧
      ∀ (d : DataObjectDefinition) outcome,
        Served root d.provider "ServerDataProvider" outcome ↔
          outcome = m.dataObjectProvider? d :=
  ⟨ofObject feature root, rfl, fun d => served_iff feature root d.provider _,
    fun d => served_iff feature root d.provider _⟩

end Manifest

end FeatureFlow
