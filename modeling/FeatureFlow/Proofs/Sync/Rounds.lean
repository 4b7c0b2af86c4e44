import FeatureFlow.Proofs.Cache.Contents
import FeatureFlow.Proofs.Sync.Accounting
import Mathlib.Data.List.Nodup

/-!
# Rounds of fetches and clean-ups

A feature that is not in the cache is fetched, and the files of its other versions are
removed, with the fetches and the removals of all features mixed. `Round` keeps the
clean-ups beside the progress of the setup, and at every moment the cache holds just the
bodies that came in (`Round.Kept.step`).
-/

namespace FeatureFlow

open Relation (ReflTransGen)

namespace Sync

-- ---------------------------------------------------------------------------
-- Rounds
-- ---------------------------------------------------------------------------

structure Round extends Progress where
  cleanUps : List Wanted

/-- What can happen in the course of a round whose fetches give manifests, if anything, and
whose manifests can be stored. A clean-up removes files one by one before it ends. -/
inductive Round.Step (number : Nat) : Round → Round → Prop
  | found {r : Round} (hnext : r.unread = t :: rest) (hcache : r.cached? t = some body) :
      Step number r { r with
        sync := (r.sync.resolve number t).1, unread := rest
        settled := r.settled ++ [.cached t.wanted body] }
  | missing {r : Round} (hnext : r.unread = t :: rest) (hcache : r.cached? t = none) :
      Step number r { r with
        sync := (r.sync.resolve number t).1, unread := rest
        fetching := r.fetching ++ [t.wanted], cleanUps := r.cleanUps ++ [t.wanted] }
  | fetched {r : Round} (index : Nat) (hfetch : r.fetching[index]? = some wanted) (body : String)
      (hbody : Cache.isManifest body = true)
      (hstored : (r.sync.cache.write r.sync.files wanted.feature wanted.version body).1 = .ok ()) :
      Step number r { r with
        sync := r.sync.fetched number wanted (.ok body)
        fetching := r.fetching.eraseIdx index
        settled := r.settled ++ [.fetched wanted (.ok body)] }
  | failed {r : Round} (index : Nat) (hfetch : r.fetching[index]? = some wanted) (e : FetchError) :
      Step number r { r with
        sync := r.sync.fetched number wanted (.error e)
        fetching := r.fetching.eraseIdx index
        settled := r.settled ++ [.fetched wanted (.error e)] }
  | removes {r : Round} (hcleanUp : wanted ∈ r.cleanUps)
      (hstale : Cache.isStale wanted.feature wanted.version name = true)
      (hname : '/' ∉ name.toList) :
      Step number r { r with
        sync := { r.sync with
          files := Cache.discard r.sync.files (Path.join r.sync.cache.directory name) } }
  | cleaned {r : Round} (index : Nat) :
      Step number r { r with cleanUps := r.cleanUps.eraseIdx index }
  | report {r : Round} : Step number r { r with sync := (r.sync.report number).state }
  | elsewhere {r : Round} (other : Sync)
      (hsession : other.session? number = r.sync.session? number)
      (hfiles : other.files = r.sync.files) (hcache : other.cache = r.sync.cache) :
      Step number r { r with sync := other }

abbrev Round.Steps (number : Nat) : Round → Round → Prop :=
  ReflTransGen (Round.Step number)

def opening (s : Sync) (toggles : List Toggle) : Round :=
  { s.begun toggles with cleanUps := [] }

variable {s : Sync} {toggles : List Toggle} {number : Nat} {c : Cache} {files : Files}
  {p : Progress} {r q : Round} {wanted : List Wanted} {w other : Wanted} {name : String}

theorem Round.Step.progress (h : Step number r q) :
    Progress.Step number r.toProgress q.toProgress := by
  cases h with
  | found hnext hcache => exact .found hnext hcache
  | missing hnext hcache => exact .missing hnext hcache
  | fetched index hfetch body => exact .fetched index hfetch (.ok body)
  | failed index hfetch e => exact .fetched index hfetch (.error e)
  | removes | cleaned => exact .elsewhere _ rfl
  | report => exact .report
  | elsewhere other hsession => exact .elsewhere other hsession

-- ---------------------------------------------------------------------------
-- The files of the features
-- ---------------------------------------------------------------------------

def Wanted.file (w : Wanted) : String :=
  Cache.fileName w.feature w.version

/-- Manifests of different features that have files of their own. -/
structure Apart (wanted : List Wanted) : Prop where
  features : (wanted.map (·.feature)).Nodup
  plain : ∀ w ∈ wanted, Cache.Plain w.feature w.version

theorem Apart.nodup (h : Apart wanted) : wanted.Nodup :=
  h.features.of_map

theorem Apart.eq_of_feature (h : Apart wanted) (hw : w ∈ wanted) (hother : other ∈ wanted)
    (hfeature : w.feature = other.feature) : w = other :=
  List.inj_on_of_nodup_map h.features hw hother hfeature

theorem Apart.file_ne (h : Apart wanted) (hw : w ∈ wanted) (hother : other ∈ wanted)
    (hne : w ≠ other) : w.file ≠ other.file := by
  intro hfile
  obtain ⟨hfeature, -⟩ := (Cache.fileName_inj (h.plain w hw).noUnderscore
    (h.plain other hother).noUnderscore).mp hfile
  exact hne (h.eq_of_feature hw hother hfeature)

theorem Apart.ne_of_isStale (h : Apart wanted) (hw : w ∈ wanted) (hother : other ∈ wanted)
    (hstale : Cache.isStale w.feature w.version name = true) : other.file ≠ name := by
  rintro rfl
  obtain ⟨version, hfile, hsingle, hkept⟩ := Cache.eq_fileName_of_isStale hstale
  obtain ⟨hfeature, hversion⟩ :=
    (Cache.fileName_inj (h.plain other hother).noUnderscore hsingle).mp hfile
  obtain rfl := h.eq_of_feature hother hw hfeature
  exact hkept hversion.symm

-- ---------------------------------------------------------------------------
-- The invariant
-- ---------------------------------------------------------------------------

/-- The cache holds the bodies that came in, and none for what is being fetched or could not
be fetched. -/
structure Round.Kept (number : Nat) (toggles : List Toggle) (c : Cache) (r : Round) : Prop
    extends Progress.Sound number toggles r.toProgress where
  cache : r.sync.cache = c
  opens : r.sync.files.Opens c.directory
  settled : ∀ x ∈ r.settled, c.body? r.sync.files x.wanted.file = x.body?
  fetching : ∀ w ∈ r.fetching, c.body? r.sync.files w.file = none
  cleanUps : ∀ w ∈ r.cleanUps, w ∈ (enabled toggles).map (·.wanted)

theorem Progress.Sound.mem_of_settled (h : p.Sound number toggles) {x : Settlement}
    (hx : x ∈ p.settled) : x.wanted ∈ (enabled toggles).map (·.wanted) :=
  h.complete.subset (List.mem_append_left _ (List.mem_append_left _ (List.mem_map_of_mem hx)))

theorem Progress.Sound.mem_of_fetching (h : p.Sound number toggles) (hw : w ∈ p.fetching) :
    w ∈ (enabled toggles).map (·.wanted) :=
  h.complete.subset (List.mem_append_left _ (List.mem_append_right _ hw))

theorem Progress.Sound.mem_of_unread (h : p.Sound number toggles) (ht : t ∈ p.unread) :
    t.wanted ∈ (enabled toggles).map (·.wanted) :=
  h.complete.subset (List.mem_append_right _ (List.mem_map_of_mem ht))

theorem Round.Kept.same (h : r.Kept number toggles c)
    (hsame : ∀ w ∈ (enabled toggles).map (·.wanted),
      c.body? files w.file = c.body? r.sync.files w.file) :
    (∀ x ∈ r.settled, c.body? files x.wanted.file = x.body?) ∧
      ∀ w ∈ r.fetching, c.body? files w.file = none := by
  constructor
  · intro x hx
    rw [hsame _ (h.mem_of_settled hx)]
    exact h.settled x hx
  · intro w hw
    rw [hsame w (h.mem_of_fetching hw)]
    exact h.fetching w hw

theorem kept_opening (s : Sync) (toggles : List Toggle)
    (hopens : s.files.Opens s.cache.directory) :
    (s.opening toggles).Kept s.sessions.length toggles s.cache where
  toSound := s.sound_begun toggles
  cache := rfl
  opens := hopens
  settled := List.forall_mem_nil _
  fetching := List.forall_mem_nil _
  cleanUps := List.forall_mem_nil _

theorem resolve_files (number : Nat) (s : Sync) (t : Toggle) :
    (s.resolve number t).1.files = (s.cache.read s.files t.name t.version).2 ∧
      (s.resolve number t).1.cache = s.cache := by
  unfold resolve
  cases s.cache.read s.files t.name t.version with
  | mk body files => cases body <;> exact ⟨rfl, rfl⟩

theorem finish_files (s : Sync) (number : Nat) :
    (s.finish number).files = s.files ∧ (s.finish number).cache = s.cache := by
  unfold finish
  split <;> exact ⟨rfl, rfl⟩

theorem report_files (s : Sync) (number : Nat) :
    (s.report number).state.files = s.files ∧ (s.report number).state.cache = s.cache := by
  unfold report
  split
  · exact ⟨rfl, rfl⟩
  · simp only [Outcome.quiet]
    split
    · exact finish_files ..
    · exact ⟨rfl, rfl⟩

theorem Progress.cached?_eq (p : Progress) (t : Toggle) :
    p.cached? t = p.sync.cache.body? p.sync.files t.wanted.file :=
  Cache.read_eq_body? ..

theorem Round.Kept.resolve (hapart : Apart ((enabled toggles).map (·.wanted)))
    (h : r.Kept number toggles c) (hnext : r.unread = t :: rest) :
    let after := (r.sync.resolve number t).1
    after.cache = c ∧ after.files.Opens c.directory ∧
      (∀ x ∈ r.settled, c.body? after.files x.wanted.file = x.body?) ∧
      (∀ w ∈ r.fetching, c.body? after.files w.file = none) ∧
      c.body? after.files t.wanted.file = r.cached? t := by
  intro after
  obtain rfl := h.cache
  have hfiles : after.files = (r.sync.cache.read r.sync.files t.name t.version).2 :=
    (resolve_files ..).1
  have ht := h.mem_of_unread (hnext ▸ List.mem_cons_self)
  have hplain := hapart.plain t.wanted ht
  have hsame : ∀ w ∈ (enabled toggles).map (·.wanted),
      r.sync.cache.body? (r.sync.cache.read r.sync.files t.name t.version).2 w.file =
        r.sync.cache.body? r.sync.files w.file := by
    intro w hw
    exact Cache.body?_read hplain (hapart.plain w hw).isName
  obtain ⟨hsettled, hfetching⟩ := h.same hsame
  rw [hfiles, Progress.cached?_eq]
  exact ⟨(resolve_files ..).2, Cache.opens_read hplain h.opens, hsettled, hfetching, hsame _ ht⟩

theorem Round.Kept.body?_store (hapart : Apart ((enabled toggles).map (·.wanted)))
    (h : r.Kept number toggles c) (hw : w ∈ (enabled toggles).map (·.wanted))
    (hstored : (c.write r.sync.files w.feature w.version body).1 = .ok ())
    (hother : other ∈ (enabled toggles).map (·.wanted)) (hne : other ≠ w) :
    c.body? (c.write r.sync.files w.feature w.version body).2 other.file =
      c.body? r.sync.files other.file := by
  have hname := (hapart.plain other hother).isName
  have hfile : other.file ≠ w.file := hapart.file_ne hother hw hne
  exact (Cache.body?_write_of_ne (hapart.plain w hw) hstored hname hfile).trans
    (Cache.body?_opened h.opens hname)

theorem Round.Kept.step (hapart : Apart ((enabled toggles).map (·.wanted)))
    (h : r.Kept number toggles c) (hstep : Step number r q) : q.Kept number toggles c := by
  have hsound : q.Sound number toggles := h.toSound.step hstep.progress
  obtain rfl := h.cache
  cases hstep with
  | @found t rest body _ hnext hcached =>
    obtain ⟨hcache, hopens, hsettled, hfetching, hfound⟩ := h.resolve hapart hnext
    generalize (r.sync.resolve number t).1 = after at *
    exact {
      toSound := hsound
      cache := hcache
      opens := hopens
      settled := List.forall_mem_append.mpr
        ⟨hsettled, List.forall_mem_singleton.mpr (hfound.trans hcached)⟩
      fetching := hfetching
      cleanUps := h.cleanUps }
  | @missing t rest _ hnext hcached =>
    have ht := h.mem_of_unread (hnext ▸ List.mem_cons_self)
    obtain ⟨hcache, hopens, hsettled, hfetching, hfound⟩ := h.resolve hapart hnext
    generalize (r.sync.resolve number t).1 = after at *
    exact {
      toSound := hsound
      cache := hcache
      opens := hopens
      settled := hsettled
      fetching := List.forall_mem_append.mpr
        ⟨hfetching, List.forall_mem_singleton.mpr (hfound.trans hcached)⟩
      cleanUps := List.forall_mem_append.mpr ⟨h.cleanUps, List.forall_mem_singleton.mpr ht⟩ }
  | @fetched w _ index hfetch body hbody hstored =>
    have hw := h.mem_of_fetching (List.mem_of_getElem? hfetch)
    -- the manifest is listed once, and among the settled ones from now on
    have honce := hsound.complete.nodup_iff.mpr hapart.nodup
    simp only [List.map_append, List.map_cons, List.map_nil, List.append_assoc,
      List.singleton_append] at honce
    obtain ⟨-, hrest, hearlier⟩ := List.nodup_append.mp honce
    have hlater := (List.nodup_cons.mp hrest).1
    have hsettled : ∀ x ∈ r.settled, r.sync.cache.body?
        (r.sync.cache.write r.sync.files w.feature w.version body).2 x.wanted.file = x.body? := by
      intro x hx
      have hne : x.wanted ≠ w := hearlier _ (List.mem_map_of_mem hx) w List.mem_cons_self
      rw [h.body?_store hapart hw hstored (h.mem_of_settled hx) hne]
      exact h.settled x hx
    have hfetching : ∀ u ∈ r.fetching.eraseIdx index, r.sync.cache.body?
        (r.sync.cache.write r.sync.files w.feature w.version body).2 u.file = none := by
      intro u hu
      have hne : u ≠ w := by
        rintro rfl
        exact hlater (List.mem_append_left _ hu)
      rw [h.body?_store hapart hw hstored (hsound.mem_of_fetching hu) hne]
      exact h.fetching u (List.mem_of_mem_eraseIdx hu)
    exact {
      toSound := hsound
      cache := rfl
      opens := Cache.opens_write (hapart.plain w hw) hstored
      settled := List.forall_mem_append.mpr
        ⟨hsettled, List.forall_mem_singleton.mpr (Cache.body?_write_self hstored hbody)⟩
      fetching := hfetching
      cleanUps := h.cleanUps }
  | @failed w _ index hfetch e =>
    have hw := List.mem_of_getElem? hfetch
    exact {
      toSound := hsound
      cache := rfl
      opens := h.opens
      settled := List.forall_mem_append.mpr
        ⟨h.settled, List.forall_mem_singleton.mpr (h.fetching w hw)⟩
      fetching := fun w hw => h.fetching w (List.mem_of_mem_eraseIdx hw)
      cleanUps := h.cleanUps }
  | @removes w name _ hcleanUp hstale hname =>
    have hw := h.cleanUps w hcleanUp
    have hfile := Cache.isName_of_isStale hname hstale
    obtain ⟨hsettled, hfetching⟩ := h.same fun other hother =>
      Cache.body?_discard_of_ne hfile (hapart.plain other hother).isName
        (hapart.ne_of_isStale hw hother hstale)
    exact {
      toSound := hsound
      cache := rfl
      opens := Cache.opens_discard hfile h.opens
      settled := hsettled
      fetching := hfetching
      cleanUps := h.cleanUps }
  | cleaned index =>
    exact { h with
      toSound := hsound
      cleanUps := fun w hw => h.cleanUps w (List.mem_of_mem_eraseIdx hw) }
  | report =>
    obtain ⟨hfiles, hcache⟩ := r.sync.report_files number
    exact {
      toSound := hsound
      cache := hcache
      opens := hfiles ▸ h.opens
      settled := hfiles ▸ h.settled
      fetching := hfiles ▸ h.fetching
      cleanUps := h.cleanUps }
  | elsewhere other _ hfiles hcache =>
    exact {
      toSound := hsound
      cache := hcache
      opens := hfiles ▸ h.opens
      settled := hfiles ▸ h.settled
      fetching := hfiles ▸ h.fetching
      cleanUps := h.cleanUps }

theorem Round.Kept.steps (hapart : Apart ((enabled toggles).map (·.wanted)))
    (h : r.Kept number toggles c) (hsteps : Steps number r q) : q.Kept number toggles c := by
  induction hsteps with
  | refl => exact h
  | tail _ hstep ih => exact ih.step hapart hstep

-- ---------------------------------------------------------------------------
-- Rounds without interruption
-- ---------------------------------------------------------------------------

theorem Round.steps_removes (number : Nat) (r : Round) (hcleanUp : w ∈ r.cleanUps)
    {names : List String}
    (hstale : ∀ name ∈ names, '/' ∉ name.toList ∧
      Cache.isStale w.feature w.version name = true) :
    r.Steps number { r with
      sync := { r.sync with
        files := names.foldl (fun files name =>
          Cache.discard files (Path.join r.sync.cache.directory name)) r.sync.files } } := by
  induction names generalizing r with
  | nil => exact .refl
  | cons name rest ih =>
    obtain ⟨⟨hname, hfirst⟩, hrest⟩ := List.forall_mem_cons.mp hstale
    exact .head (.removes hcleanUp hfirst hname) (ih _ hcleanUp hrest)

theorem Round.steps_cleanUp (number : Nat) (r : Round) (hcleanUp : r.cleanUps[index]? = some w) :
    r.Steps number { r with
      sync := r.sync.cleanUp w, cleanUps := r.cleanUps.eraseIdx index } := by
  have hstale : ∀ name ∈ r.sync.cache.staleFiles r.sync.files w.feature w.version,
      '/' ∉ name.toList ∧ Cache.isStale w.feature w.version name = true :=
    fun name => Cache.of_mem_staleFiles
  have hremoved := r.steps_removes number (List.mem_of_getElem? hcleanUp) hstale
  rw [← Cache.removeStale_files] at hremoved
  exact hremoved.tail (.cleaned index)

theorem Round.steps_resolveAll (number : Nat) (r : Round) :
    ∃ settled, r.Steps number {
      sync := (resolveAll number r.sync r.unread).1, unread := []
      fetching := r.fetching ++ (resolveAll number r.sync r.unread).2
      settled := r.settled ++ settled
      cleanUps := r.cleanUps ++ (resolveAll number r.sync r.unread).2 } := by
  generalize hunread : r.unread = unread
  induction unread generalizing r with
  | nil =>
    refine ⟨[], ?_⟩
    simp only [resolveAll, List.append_nil, ← hunread]
    exact .refl
  | cons t rest ih =>
    cases hcache : r.cached? t with
    | some body =>
      obtain ⟨settled, hsteps⟩ := ih { r with
        sync := (r.sync.resolve number t).1, unread := rest
        settled := r.settled ++ [.cached t.wanted body] } rfl
      refine ⟨.cached t.wanted body :: settled, .head (.found hunread hcache) ?_⟩
      simpa [resolveAll, (resolve_of_some hcache number).1] using hsteps
    | none =>
      obtain ⟨settled, hsteps⟩ := ih { r with
        sync := (r.sync.resolve number t).1, unread := rest
        fetching := r.fetching ++ [t.wanted], cleanUps := r.cleanUps ++ [t.wanted] } rfl
      refine ⟨settled, .head (.missing hunread hcache) ?_⟩
      simpa [resolveAll, (resolve_of_none hcache number).1] using hsteps

theorem steps_opening (s : Sync) (toggles : List Toggle) :
    ∃ settled, (s.opening toggles).Steps s.sessions.length {
      sync := (s.setup toggles).1, unread := [], fetching := (s.setup toggles).2.wanted
      settled, cleanUps := (s.setup toggles).2.wanted } := by
  obtain ⟨settled, hsteps⟩ := (s.opening toggles).steps_resolveAll s.sessions.length
  rw [setup_eq_begun]
  split
  · rename_i hnone
    have hopening : s.opening toggles =
        { sync := (s.begun toggles).sync, unread := [], fetching := [], settled := []
          cleanUps := [] } := by
      rw [opening, begun, hnone]
    obtain ⟨hfiles, hcache⟩ := (s.begun toggles).sync.finish_files s.sessions.length
    refine ⟨[], ?_⟩
    rw [hopening]
    exact .single (.elsewhere _ (session?_finish ..) hfiles hcache)
  · exact ⟨settled, hsteps.tail (.elsewhere _ rfl rfl rfl)⟩

end Sync

end FeatureFlow
