import FeatureFlow.Engine
import FeatureFlow.Proofs.Sync.Marks
import FeatureFlow.Proofs.Sync.Rounds

/-!
# Starting again from the cache

A setup takes from the cache all that was there when it began (`setup_outcome`), and a
round of fetches and clean-ups leaves there what its session holds. So a setup that follows
a round fetches what failed and takes the rest from the cache (`setup_of_steps`).
-/

namespace FeatureFlow

namespace Sync

variable {s : Sync} {toggles : List Toggle} {number : Nat} {c : Cache} {r : Round}

-- ---------------------------------------------------------------------------
-- The next setup
-- ---------------------------------------------------------------------------

def lookupMark (t : Toggle) : Option String → Mark
  | some body => .cached t.name t.version body
  | none => .fetching t.name t.version

theorem resolve_outcome (number : Nat) (s : Sync) (t : Toggle) {found : Option String}
    (hfound : s.cache.body? s.files t.wanted.file = found) :
    (s.resolve number t).2 = (if found = none then some t.wanted else none) ∧
      (s.resolve number t).1.session? number =
        (s.session? number).map (·.mark (lookupMark t found)) := by
  have hread : (s.cache.read s.files t.name t.version).1 = found :=
    (s.cache.read_eq_body? s.files t.name t.version).trans hfound
  simp only [resolve, hread]
  cases found <;> exact ⟨rfl, (session?_updateSession ..).trans (if_pos rfl)⟩

theorem resolveAll_cons (number : Nat) (s : Sync) (t : Toggle) (rest : List Toggle) :
    resolveAll number s (t :: rest) =
      ((resolveAll number (s.resolve number t).1 rest).1,
        (s.resolve number t).2.toList ++ (resolveAll number (s.resolve number t).1 rest).2) := by
  rw [resolveAll]

theorem resolveAll_outcome (number : Nat) (s : Sync) {unread : List Toggle}
    (hplain : ∀ t ∈ unread, Cache.Plain t.name t.version) {found : Toggle → Option String}
    (hfound : ∀ t ∈ unread, s.cache.body? s.files t.wanted.file = found t) :
    (resolveAll number s unread).2 = (unread.filter (found · = none)).map (·.wanted) ∧
      (resolveAll number s unread).1.session? number =
        (s.session? number).map (·.markAll (unread.map fun t => lookupMark t (found t))) := by
  induction unread generalizing s with
  | nil => simp [resolveAll, Session.markAll]
  | cons t rest ih =>
    obtain ⟨ht, hrest⟩ := List.forall_mem_cons.mp hplain
    obtain ⟨hfirst, hothers⟩ := List.forall_mem_cons.mp hfound
    obtain ⟨hfiles, hcache⟩ := resolve_files number s t
    have hsame : ∀ u ∈ rest, (s.resolve number t).1.cache.body? (s.resolve number t).1.files
        u.wanted.file = found u := fun u hu => by
      rw [hfiles, hcache, ← hothers u hu]
      exact Cache.body?_read ht (hrest u hu).isName
    obtain ⟨hwanted, hsession⟩ := resolve_outcome number s t hfirst
    obtain ⟨hmore, hlast⟩ := ih (s.resolve number t).1 hrest hsame
    rw [hsession, Option.map_map] at hlast
    rw [resolveAll_cons]
    refine ⟨?_, hlast⟩
    rw [hwanted, hmore, List.filter_cons]
    cases found t <;> simp

theorem setup_outcome (s : Sync) (hplain : ∀ t ∈ enabled toggles, Cache.Plain t.name t.version)
    {found : Toggle → Option String}
    (hfound : ∀ t ∈ enabled toggles, s.cache.body? s.files t.wanted.file = found t) :
    (s.setup toggles).2.wanted = ((enabled toggles).filter (found · = none)).map (·.wanted) ∧
      (s.setup toggles).1.session? s.sessions.length =
        some ((Session.ofExpected (enabled toggles).length).markAll
          ((enabled toggles).map fun t => lookupMark t (found t))) := by
  obtain ⟨hwanted, hsession⟩ :=
    resolveAll_outcome s.sessions.length (s.begun toggles).sync hplain hfound
  have hbegun : (s.begun toggles).sync.session? s.sessions.length = _ :=
    (session?_withSession s (enabled toggles).length (some s.sessions.length) _).trans (if_pos rfl)
  rw [hbegun] at hsession
  rw [setup_eq_begun]
  split
  · rename_i hnone
    rw [session?_finish, hbegun, hnone]
    exact ⟨rfl, rfl⟩
  · exact ⟨hwanted, hsession⟩

theorem lastHeld?_of_mem {settled : List Settlement} {x : Settlement} (hx : x ∈ settled)
    (honce : (settled.map (·.wanted.feature)).Nodup) (hbody : x.body? = some body) :
    lastHeld? x.wanted.feature settled = some ⟨x.wanted.version, body⟩ := by
  have hheld : x.held? x.wanted.feature = some ⟨x.wanted.version, body⟩ := by
    simp [Settlement.held?, hbody]
  refine Mark.getLast?_eq_of_forall (List.mem_filterMap.mpr ⟨x, hx, hheld⟩) fun held hmem => ?_
  obtain ⟨y, hy, hother⟩ := List.mem_filterMap.mp hmem
  have hfeature : y.wanted.feature = x.wanted.feature := by
    by_contra hne
    simp [Settlement.held?, hne] at hother
  obtain rfl := List.inj_on_of_nodup_map honce hy hx hfeature
  exact Option.some.inj (hother.symm.trans hheld)

theorem feature?_lookupMark (t : Toggle) (found : Option String) :
    (lookupMark t found).feature? = some t.name := by
  cases found <;> rfl

theorem markAll_lookupMark {unread : List Toggle} (hnames : (unread.map (·.name)).Nodup)
    (ht : t ∈ unread) (expected : Nat) {found : Toggle → Option String}
    (hfound : found t = some body) :
    let session := (Session.ofExpected expected).markAll
      (unread.map fun t => lookupMark t (found t))
    session.manifest? t.name = some ⟨t.version, body⟩ ∧
      session.state? t.name = some (.cached t.version) := by
  intro session
  have hmarked : session.Marked _ := (Session.marked_ofExpected expected).markAll _
  have hlast : Mark.last? t.name (unread.map fun t => lookupMark t (found t)) =
      some (.cached t.name t.version body) := by
    refine Mark.last?_of_mem (List.mem_map.mpr ⟨t, ht, by rw [hfound, lookupMark]⟩) rfl ?_
    intro m hm hfeature
    obtain ⟨u, hu, rfl⟩ := List.mem_map.mp hm
    rw [feature?_lookupMark] at hfeature
    obtain rfl := List.inj_on_of_nodup_map hnames hu ht (Option.some.inj hfeature)
    rw [hfound, lookupMark]
  obtain ⟨late, hstate⟩ := hmarked.state t.name
  refine ⟨(hmarked.held t.name).trans (Mark.lastHeld?_of_last? hlast (by simp [Mark.held?])), ?_⟩
  rw [hstate]
  exact hlast ▸ rfl

-- ---------------------------------------------------------------------------
-- After a round
-- ---------------------------------------------------------------------------

def Progress.failed (p : Progress) : List Wanted :=
  (p.settled.filter (·.body? = none)).map (·.wanted)

/-- When nothing is outstanding, the cache holds what each feature was settled with. -/
theorem Round.Kept.settlement (h : r.Kept number toggles c) (hread : r.unread = [])
    (hfetched : r.fetching = []) (ht : t ∈ enabled toggles) :
    ∃ x ∈ r.settled, x.wanted = t.wanted ∧ c.body? r.sync.files t.wanted.file = x.body? := by
  have hmem := h.complete.mem_iff.mpr (List.mem_map_of_mem ht)
  rw [hread, hfetched, List.append_nil, List.map_nil, List.append_nil] at hmem
  obtain ⟨x, hx, hsame⟩ := List.mem_map.mp hmem
  exact ⟨x, hx, hsame, hsame ▸ h.settled x hx⟩

theorem Round.Kept.body?_eq_none_iff (h : r.Kept number toggles c) (hread : r.unread = [])
    (hfetched : r.fetching = []) (ht : t ∈ enabled toggles) :
    c.body? r.sync.files t.wanted.file = none ↔ t.wanted ∈ r.failed := by
  constructor
  · intro hnone
    obtain ⟨x, hx, hsame, hbody⟩ := h.settlement hread hfetched ht
    exact List.mem_map.mpr ⟨x, List.mem_filter.mpr ⟨hx, by simpa [← hbody] using hnone⟩, hsame⟩
  · intro hfailed
    obtain ⟨x, hx, hsame⟩ := List.mem_map.mp hfailed
    obtain ⟨hx, hnone⟩ := List.mem_filter.mp hx
    rw [← hsame, h.settled x hx]
    simpa using hnone

theorem Round.Kept.manifest? (h : r.Kept number toggles c) (hread : r.unread = [])
    (hfetched : r.fetching = []) (hnames : ((enabled toggles).map (·.name)).Nodup)
    {session : Session} (haccounts : session.Accounts (enabled toggles).length r.settled)
    (ht : t ∈ enabled toggles) (hheld : t.wanted ∉ r.failed) :
    ∃ body, session.manifest? t.name = some ⟨t.version, body⟩ ∧
      c.body? r.sync.files t.wanted.file = some body := by
  obtain ⟨x, hx, hsame, hbody⟩ := h.settlement hread hfetched ht
  obtain ⟨body, hsome⟩ := Option.ne_none_iff_exists'.mp
    (mt (h.body?_eq_none_iff hread hfetched ht).mp hheld)
  have honce : (r.settled.map (·.wanted.feature)).Nodup := by
    have hperm := h.complete
    rw [hread, hfetched, List.append_nil, List.map_nil, List.append_nil] at hperm
    have hfeatures := hperm.map (·.feature)
    rw [List.map_map, List.map_map] at hfeatures
    exact hfeatures.nodup_iff.mpr hnames
  have hlast := lastHeld?_of_mem hx honce (hbody.symm.trans hsome)
  rw [hsame] at hlast
  exact ⟨body, (haccounts.held t.name).trans hlast, hsome⟩

/-- After a round whose fetches have all ended, and however far its clean-ups have gone, the
next setup fetches the features whose fetches failed, in their order. All others it takes
from the cache, with the bodies that the session of the round holds. -/
theorem setup_of_steps (s : Sync) (toggles : List Toggle)
    (hnames : ((enabled toggles).map (·.name)).Nodup)
    (hplain : ∀ t ∈ enabled toggles, Cache.Plain t.name t.version)
    (hopens : s.files.Opens s.cache.directory)
    {r : Round} (hsteps : (s.opening toggles).Steps s.sessions.length r)
    (hread : r.unread = []) (hfetched : r.fetching = [])
    (next : Sync) (hfiles : next.files = r.sync.files) (hcache : next.cache = r.sync.cache) :
    ∃ first second, r.sync.session? s.sessions.length = some first ∧
      (next.setup toggles).1.session? next.sessions.length = some second ∧
      (next.setup toggles).2.wanted =
        ((enabled toggles).map (·.wanted)).filter (· ∈ r.failed) ∧
      ∀ t ∈ enabled toggles, t.wanted ∉ r.failed →
        ∃ body, first.manifest? t.name = some ⟨t.version, body⟩ ∧
          second.manifest? t.name = some ⟨t.version, body⟩ ∧
          second.state? t.name = some (.cached t.version) := by
  have hapart : Apart ((enabled toggles).map (·.wanted)) := by
    refine ⟨?_, List.forall_mem_map.mpr hplain⟩
    rwa [List.map_map]
  have hkept := (kept_opening s toggles hopens).steps hapart hsteps
  obtain ⟨first, hfirst, haccounts⟩ := hkept.session
  -- the next setup looks up what the round has left
  let found (t : Toggle) : Option String := s.cache.body? r.sync.files t.wanted.file
  have hfound : ∀ t ∈ enabled toggles, next.cache.body? next.files t.wanted.file = found t := by
    intro t ht
    rw [hcache, hfiles, hkept.cache]
  obtain ⟨hwanted, hsecond⟩ := setup_outcome next hplain hfound
  refine ⟨first, _, hfirst, hsecond, ?wanted, fun t ht hheld => ?held⟩
  case wanted =>
    rw [hwanted, List.filter_map]
    refine congrArg (List.map _) (List.filter_congr fun t ht => decide_eq_decide.mpr ?_)
    exact hkept.body?_eq_none_iff hread hfetched ht
  case held =>
    obtain ⟨body, hmanifest, hbody⟩ :=
      hkept.manifest? hread hfetched hnames haccounts ht hheld
    exact ⟨body, hmanifest, markAll_lookupMark hnames ht _ hbody⟩

def outdated : Sync :=
  { stocked with files := (stocked.cache.write stocked.files "b" "0" "\x7b\x7d").2 }

/-- One manifest is in the cache, one is fetched while a file of its older version is
removed, and one fetch fails. -/
theorem setup_of_steps_outdated :
    let toggles : List Toggle :=
      [.enabled "a" "1", .enabled "b" "1", .disabled "d" "1", .enabled "c" "1"]
    ∃ r first second, (outdated.opening toggles).Steps 0 r ∧ r.fetching = [] ∧ r.cleanUps = [] ∧
      (r.sync.cache.read r.sync.files "b" "0").1 = none ∧
      r.sync.session? 0 = some first ∧
      (r.sync.setup toggles).1.session? r.sync.sessions.length = some second ∧
      (r.sync.setup toggles).2.wanted = [⟨"c", "1"⟩] ∧
      second.state? "a" = some (.cached "1") ∧ second.state? "b" = some (.cached "1") ∧
      second.manifest? "b" = first.manifest? "b" := by
  intro toggles
  have hcache : (outdated.opening toggles).cached? (.enabled "a" "1") = some "\x7b\x7d" := by
    decide +kernel
  have hfound : (outdated.opening toggles).Steps 0 _ := .single (.found rfl hcache)
  have hmissing := (hfound.tail (.missing rfl (by decide +kernel))).tail
    (.missing rfl (by decide +kernel))
  -- one fetch ends before the clean-ups, the other one between them
  have hfailed := hmissing.tail (.failed 1 rfl (.status "c/1" 404))
  have hcleaned := hfailed.trans (Round.steps_cleanUp 0 _ (List.getElem?_cons_zero ..))
  have hfetched := hcleaned.tail
    (.fetched 0 rfl "\x7b \x7d" (by decide +kernel) (by decide +kernel))
  have hlast := hfetched.tail (.cleaned 0)
  obtain ⟨first, second, hfirst, hsecond, hwanted, hheld⟩ := setup_of_steps outdated toggles
    (by decide) (by decide) (.inl ⟨["home", "cache"], by decide +kernel⟩) hlast rfl rfl _ rfl rfl
  obtain ⟨_, -, -, hcached⟩ := hheld (.enabled "a" "1") (by decide) (by decide)
  obtain ⟨body, hbefore, hafter, hstored⟩ := hheld (.enabled "b" "1") (by decide) (by decide)
  exact ⟨_, first, second, hlast, rfl, rfl, by decide +kernel, hfirst, hsecond,
    hwanted.trans (by decide), hcached, hstored, hafter.trans hbefore.symm⟩

end Sync

namespace Engine

/-- An engine has made the directory of its cache when it is set up. -/
theorem opens_of_bootstrap {parts : EngineParts} {e : Engine} (h : bootstrap parts = .ok e) :
    e.sync.files.Opens e.sync.cache.directory := by
  cases hmade : parts.files.makeDirectories parts.settings.cacheDirectory with
  | mk result made =>
    simp only [bootstrap, hmade] at h
    split at h
    -- with the fetcher that is given, and with the one of the host
    all_goals
      obtain ⟨fetcher, -, h⟩ := Fallible.bind_ok.mp h
      cases result with
      | error e => cases h
      | ok =>
        cases h
        exact .inl (Files.inside_of_makeDirectories hmade)

end Engine

end FeatureFlow
