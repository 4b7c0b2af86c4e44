import FeatureFlow.Proofs.Sync.Sessions
import Mathlib.Data.List.Perm.Basic
import Mathlib.Logic.Relation

/-!
# The accounts of a session

A setup looks its features up one by one, and the fetches that it has to begin come
to their ends in any order, with anything else going on in between. `Progress` keeps
what is still to be looked up, what is being fetched and how the rest was settled, and
the session agrees with it at every moment (`Progress.Sound.step`): it counts what is
settled, and holds what was settled last with a body.
-/

namespace FeatureFlow

open Relation (ReflTransGen)

def Toggle.wanted (t : Toggle) : Sync.Wanted :=
  ⟨t.name, t.version⟩

-- ---------------------------------------------------------------------------
-- Settlements
-- ---------------------------------------------------------------------------

inductive Settlement where
  | cached (wanted : Sync.Wanted) (body : String)
  | fetched (wanted : Sync.Wanted) (result : Except FetchError String)

namespace Settlement

def wanted : Settlement → Sync.Wanted
  | cached wanted _ | fetched wanted _ => wanted

def isCached : Settlement → Bool
  | cached _ _ => true
  | fetched _ _ => false

def body? : Settlement → Option String
  | cached _ body | fetched _ (.ok body) => some body
  | fetched _ (.error _) => none

def held? (feature : String) (x : Settlement) : Option HeldManifest :=
  if x.wanted.feature = feature then
    x.body?.map fun body => { version := x.wanted.version, body }
  else none

end Settlement

def lastHeld? (feature : String) (settled : List Settlement) : Option HeldManifest :=
  (settled.filterMap (·.held? feature)).getLast?

theorem lastHeld?_append (feature : String) (settled : List Settlement) (x : Settlement) :
    lastHeld? feature (settled ++ [x]) = (x.held? feature).or (lastHeld? feature settled) := by
  unfold lastHeld?
  cases h : x.held? feature <;> simp [h, List.filterMap_append]

namespace Session

variable {s : Session} {settled : List Settlement}

def settle (s : Session) : Settlement → Session
  | .cached wanted body => s.markCached wanted.feature wanted.version body
  | .fetched wanted (.ok body) => s.markFetched wanted.feature wanted.version body
  | .fetched wanted (.error e) => s.markFailed wanted.feature wanted.version e.message

structure Accounts (s : Session) (expected : Nat) (settled : List Settlement) : Prop where
  expected : s.expected = expected
  processed : s.processed = settled.length
  ready : ∀ feature, s.ready.get? feature = (lastHeld? feature settled).map (·.version)
  held : ∀ feature, s.manifest? feature = lastHeld? feature settled

variable {expected : Nat}

theorem accounts_ofExpected (expected : Nat) : (ofExpected expected).Accounts expected [] :=
  ⟨rfl, rfl, fun _ => rfl, fun _ => rfl⟩

theorem Accounts.markFetching (h : s.Accounts expected settled) (feature version : String) :
    (s.markFetching feature version).Accounts expected settled :=
  ⟨h.expected, h.processed, h.ready, h.held⟩

theorem Accounts.markReported (h : s.Accounts expected settled) :
    s.markReported.Accounts expected settled :=
  ⟨h.expected, h.processed, h.ready, h.held⟩

theorem Accounts.markReady (h : s.Accounts expected settled) {x : Settlement}
    (hbody : x.body? = some body) (state : FeatureState) :
    (s.markReady x.wanted.feature x.wanted.version body state).Accounts expected
      (settled ++ [x]) where
  expected := h.expected
  processed := by simp [Session.markReady, h.processed]
  ready feature := by
    rw [lastHeld?_append]
    by_cases hfeature : x.wanted.feature = feature <;>
      simp [Session.markReady, Table.get?_insert, Settlement.held?, hfeature, hbody, h.ready]
  held feature := by
    rw [lastHeld?_append]
    by_cases hfeature : x.wanted.feature = feature
    · simp [Session.markReady, manifest?, Settlement.held?, hfeature, hbody]
    · have hkept := h.held feature
      simpa [Session.markReady, manifest?, Table.get?_insert, Settlement.held?, hfeature]
        using hkept

theorem Accounts.settle (h : s.Accounts expected settled) (x : Settlement) :
    (s.settle x).Accounts expected (settled ++ [x]) := by
  cases x with
  | cached wanted body =>
    have hbody : (Settlement.cached wanted body).body? = some body := rfl
    exact h.markReady hbody _
  | fetched wanted result =>
    cases result with
    | ok body =>
      have hbody : (Settlement.fetched wanted (.ok body)).body? = some body := rfl
      exact h.markReady hbody _
    | error e =>
      have hlast (feature : String) :
          lastHeld? feature (settled ++ [.fetched wanted (.error e)]) =
            lastHeld? feature settled := by
        rw [lastHeld?_append]
        simp [Settlement.held?, Settlement.body?]
      refine ⟨h.expected, ?_, fun feature => ?_, fun feature => ?_⟩
      · simp [Session.settle, markFailed, h.processed]
      · rw [hlast]
        exact h.ready feature
      · rw [hlast]
        exact h.held feature

end Session

namespace Sync

-- ---------------------------------------------------------------------------
-- Setups in steps
-- ---------------------------------------------------------------------------

structure Progress where
  sync : Sync
  /-- The enabled features that are still to be looked up. -/
  unread : List Toggle
  fetching : List Wanted
  /-- What is settled, in the order of the events. -/
  settled : List Settlement

def Progress.cached? (p : Progress) (t : Toggle) : Option String :=
  (p.sync.cache.read p.sync.files t.name t.version).1

/-- What can happen in the course of a setup: the next feature is looked up, a fetch
ends, the barrier reports, or something happens that leaves the session alone. -/
inductive Progress.Step (number : Nat) : Progress → Progress → Prop
  | found {p : Progress} (hnext : p.unread = t :: rest) (hcache : p.cached? t = some body) :
      Step number p
        { sync := (p.sync.resolve number t).1, unread := rest, fetching := p.fetching
          settled := p.settled ++ [.cached t.wanted body] }
  | missing {p : Progress} (hnext : p.unread = t :: rest) (hcache : p.cached? t = none) :
      Step number p
        { sync := (p.sync.resolve number t).1, unread := rest
          fetching := p.fetching ++ [t.wanted], settled := p.settled }
  | fetched {p : Progress} (index : Nat) (hfetch : p.fetching[index]? = some wanted)
      (result : Except FetchError String) :
      Step number p
        { sync := p.sync.fetched number wanted result, unread := p.unread
          fetching := p.fetching.eraseIdx index
          settled := p.settled ++ [.fetched wanted result] }
  | report {p : Progress} : Step number p { p with sync := (p.sync.report number).state }
  | elsewhere {p : Progress} (other : Sync)
      (hsession : other.session? number = p.sync.session? number) :
      Step number p { p with sync := other }

abbrev Progress.Steps (number : Nat) : Progress → Progress → Prop :=
  ReflTransGen (Progress.Step number)

def begun (s : Sync) (toggles : List Toggle) : Progress where
  sync := { s.withSession (enabled toggles).length (some s.sessions.length) with
    phase := .resolving }
  unread := enabled toggles
  fetching := []
  settled := []

variable {s : Sync} {toggles : List Toggle} {number : Nat} {p q : Progress}

theorem resolve_of_some (hcache : p.cached? t = some body) (number : Nat) :
    (p.sync.resolve number t).2 = none ∧
      (p.sync.resolve number t).1.session? number =
        (p.sync.session? number).map (·.settle (.cached t.wanted body)) := by
  unfold Progress.cached? at hcache
  simp only [resolve, hcache, session?_updateSession, if_true]
  exact ⟨trivial, rfl⟩

theorem resolve_of_none (hcache : p.cached? t = none) (number : Nat) :
    (p.sync.resolve number t).2 = some t.wanted ∧
      (p.sync.resolve number t).1.session? number =
        (p.sync.session? number).map (·.markFetching t.name t.version) := by
  unfold Progress.cached? at hcache
  simp only [resolve, hcache, session?_updateSession, if_true]
  exact ⟨rfl, rfl⟩

theorem sessions_finish (s : Sync) (ended : Nat) : (s.finish ended).sessions = s.sessions := by
  unfold finish
  split <;> rfl

theorem session?_finish (s : Sync) (ended n : Nat) :
    (s.finish ended).session? n = s.session? n :=
  congrArg (·[n]?) (s.sessions_finish ended)

theorem session?_fetched (s : Sync) (number : Nat) (wanted : Wanted)
    (result : Except FetchError String) :
    (s.fetched number wanted result).session? number =
      (s.session? number).map (·.settle (.fetched wanted result)) := by
  cases result <;> simp only [Sync.fetched, session?_updateSession, if_true] <;> rfl

theorem session?_fetched_of_ne (hne : m ≠ n) (wanted : Wanted)
    (result : Except FetchError String) :
    (s.fetched m wanted result).session? n = s.session? n := by
  cases result <;> exact (session?_updateSession ..).trans (if_neg hne)

-- ---------------------------------------------------------------------------
-- Setups without interruption
-- ---------------------------------------------------------------------------

theorem steps_resolveAll (number : Nat) (p : Progress) :
    ∃ settled, (∀ x ∈ settled, x.isCached = true) ∧
      p.Steps number
        { sync := (resolveAll number p.sync p.unread).1, unread := []
          fetching := p.fetching ++ (resolveAll number p.sync p.unread).2
          settled := p.settled ++ settled } := by
  generalize hunread : p.unread = unread
  induction unread generalizing p with
  | nil =>
    refine ⟨[], by simp, ?_⟩
    simp only [resolveAll, List.append_nil, ← hunread]
    exact .refl
  | cons t rest ih =>
    cases hcache : p.cached? t with
    | some body =>
      have hwanted := (resolve_of_some hcache number).1
      obtain ⟨settled, hcached, hsteps⟩ := ih
        { sync := (p.sync.resolve number t).1, unread := rest, fetching := p.fetching
          settled := p.settled ++ [.cached t.wanted body] } rfl
      refine ⟨.cached t.wanted body :: settled, by simpa [Settlement.isCached] using hcached, ?_⟩
      refine .head (.found hunread hcache) ?_
      simpa [resolveAll, hwanted] using hsteps
    | none =>
      have hwanted := (resolve_of_none hcache number).1
      obtain ⟨settled, hcached, hsteps⟩ := ih
        { sync := (p.sync.resolve number t).1, unread := rest
          fetching := p.fetching ++ [t.wanted], settled := p.settled } rfl
      refine ⟨settled, hcached, .head (.missing hunread hcache) ?_⟩
      simpa [resolveAll, hwanted] using hsteps

theorem setup_eq_begun (s : Sync) (toggles : List Toggle) :
    s.setup toggles =
      if enabled toggles = [] then
        ((s.begun toggles).sync.finish s.sessions.length, ⟨s.sessions.length, [], false⟩)
      else
        let (resolved, wanted) :=
          resolveAll s.sessions.length (s.begun toggles).sync (enabled toggles)
        ({ resolved with phase := .pendingSync }, ⟨s.sessions.length, wanted, true⟩) := by
  simp only [setup, List.isEmpty_iff]
  rfl

/-- A setup that nothing interrupts goes through these steps. -/
theorem steps_setup (s : Sync) (toggles : List Toggle) :
    ∃ settled, (∀ x ∈ settled, x.isCached = true) ∧
      (s.begun toggles).Steps s.sessions.length
        { sync := (s.setup toggles).1, unread := [], fetching := (s.setup toggles).2.wanted
          settled } := by
  obtain ⟨settled, hcached, hsteps⟩ := steps_resolveAll s.sessions.length (s.begun toggles)
  rw [setup_eq_begun]
  split
  · rename_i hnone
    have hbegun : s.begun toggles =
        { sync := (s.begun toggles).sync, unread := [], fetching := [], settled := [] } := by
      rw [begun, hnone]
    refine ⟨[], by simp, ?_⟩
    rw [hbegun]
    exact .single (.elsewhere _ (session?_finish ..))
  · exact ⟨settled, hcached, hsteps.tail (.elsewhere _ rfl)⟩

-- ---------------------------------------------------------------------------
-- The invariant
-- ---------------------------------------------------------------------------

/-- Every enabled feature is settled, being fetched or still to be looked up, and the
session agrees with the settlements. -/
structure Progress.Sound (number : Nat) (toggles : List Toggle) (p : Progress) : Prop where
  session : ∃ session, p.sync.session? number = some session ∧
    session.Accounts (enabled toggles).length p.settled
  complete : (p.settled.map (·.wanted) ++ p.fetching ++ p.unread.map (·.wanted)).Perm
    ((enabled toggles).map (·.wanted))

theorem sound_begun (s : Sync) (toggles : List Toggle) :
    (s.begun toggles).Sound s.sessions.length toggles where
  session := by
    refine ⟨.ofExpected (enabled toggles).length, ?_, Session.accounts_ofExpected _⟩
    exact (session?_withSession s _ (some s.sessions.length) _).trans (if_pos rfl)
  complete := .refl _

theorem Progress.Sound.step (h : p.Sound number toggles) (hstep : Step number p q) :
    q.Sound number toggles := by
  obtain ⟨session, hsession, haccounts⟩ := h.session
  cases hstep with
  | @found t rest body _ hnext hcache =>
    refine ⟨⟨_, ?_, haccounts.settle (.cached t.wanted body)⟩, ?_⟩
    · rw [(resolve_of_some hcache number).2, hsession]
      rfl
    · refine .trans ?_ h.complete
      rw [hnext]
      simp only [List.map_append, List.map_cons, List.map_nil, List.append_assoc,
        List.singleton_append]
      exact .append_left _ List.perm_middle.symm
  | @missing t rest _ hnext hcache =>
    refine ⟨⟨_, ?_, haccounts.markFetching t.name t.version⟩, ?_⟩
    · rw [(resolve_of_none hcache number).2, hsession]
      rfl
    · refine .trans ?_ h.complete
      rw [hnext]
      simp
  | @fetched wanted _ index hfetch result =>
    refine ⟨⟨_, ?_, haccounts.settle (.fetched wanted result)⟩, ?_⟩
    · rw [session?_fetched, hsession]
      rfl
    · refine .trans ?_ h.complete
      obtain ⟨hindex, rfl⟩ := List.getElem?_eq_some_iff.mp hfetch
      simp only [List.map_append, List.map_cons, List.map_nil, List.append_assoc]
      exact .append_left _ ((List.getElem_cons_eraseIdx_perm hindex).append_right _)
  | report =>
    refine ⟨⟨_, ?_, haccounts.markReported⟩, h.complete⟩
    rw [session?_report hsession, if_pos rfl, hsession]
    rfl
  | elsewhere other hother => exact ⟨⟨session, hother.trans hsession, haccounts⟩, h.complete⟩

theorem Progress.Sound.steps (h : p.Sound number toggles) (hsteps : Steps number p q) :
    q.Sound number toggles := by
  induction hsteps with
  | refl => exact h
  | tail _ hstep ih => exact ih.step hstep

theorem Progress.Sound.length (h : p.Sound number toggles) :
    p.settled.length + p.fetching.length + p.unread.length = (enabled toggles).length := by
  simpa [Nat.add_assoc] using h.complete.length_eq

theorem Progress.Sound.isComplete_iff (h : p.Sound number toggles) {session : Session}
    (haccounts : session.Accounts (enabled toggles).length p.settled) :
    session.isComplete = true ↔ p.fetching = [] ∧ p.unread = [] := by
  have hlength := h.length
  simp only [Session.isComplete, haccounts.expected, haccounts.processed, Bool.or_eq_true,
    beq_iff_eq, decide_eq_true_eq, ← List.length_eq_zero_iff]
  omega

/-- At every moment of a setup, however its fetches come to their ends, the session has
counted the features that were in the cache and the fetches that ended, and nothing
else. Of each feature that was settled with a body it holds the last one, and reports
its version. A setup without interruption is one of the runs. -/
theorem accounts_of_steps (s : Sync) (toggles : List Toggle) :
    (∃ settled, (∀ x ∈ settled, x.isCached = true) ∧
      (s.begun toggles).Steps s.sessions.length
        { sync := (s.setup toggles).1, unread := [], fetching := (s.setup toggles).2.wanted
          settled }) ∧
      ∀ p, (s.begun toggles).Steps s.sessions.length p →
        ∃ session, p.sync.session? s.sessions.length = some session ∧
          session.expected = (enabled toggles).length ∧
          session.processed =
            p.settled.countP (·.isCached) + p.settled.countP (!·.isCached) ∧
          session.processed ≤ session.expected ∧
          (session.isComplete = true ↔ p.fetching = [] ∧ p.unread = []) ∧
          (p.settled.map (·.wanted) ++ p.fetching ++ p.unread.map (·.wanted)).Perm
            ((enabled toggles).map (·.wanted)) ∧
          (∀ feature, session.ready.get? feature =
            (lastHeld? feature p.settled).map (·.version)) ∧
          (∀ feature, session.manifest? feature = lastHeld? feature p.settled) ∧
          (p.sync.report s.sessions.length).sent =
            (p.sync.orchestrator.link.send (.readyList session.ready)).sent := by
  refine ⟨s.steps_setup toggles, fun p hsteps => ?_⟩
  have hsound := (s.sound_begun toggles).steps hsteps
  obtain ⟨session, hsession, haccounts⟩ := hsound.session
  have hcounted : p.settled.length =
      p.settled.countP (·.isCached) + p.settled.countP (!·.isCached) := by
    simpa using p.settled.length_eq_countP_add_countP (·.isCached)
  have hlength := hsound.length
  refine ⟨session, hsession, haccounts.expected, haccounts.processed.trans hcounted, ?_,
    hsound.isComplete_iff haccounts, hsound.complete, haccounts.ready, haccounts.held,
    (report_outcome hsession).2.2⟩
  rw [haccounts.expected, haccounts.processed]
  omega

def stocked : Sync :=
  let cache : Cache := { directory := "cache" }
  .start (cache.write (.ofHome ["home"]) "a" "1" "\x7b\x7d").2 cache (.ofRegistry .empty) .empty

/-- A name comes twice, and the fetch that began later ends earlier. -/
theorem accounts_of_steps_stocked :
    let toggles : List Toggle :=
      [.enabled "a" "1", .enabled "b" "1", .disabled "c" "1", .enabled "b" "2", .enabled "d" "1"]
    ∃ p session, (stocked.begun toggles).Steps 0 p ∧ p.sync.session? 0 = some session ∧
      p.unread = [] ∧ p.fetching = [⟨"d", "1"⟩] ∧ session.processed = 3 ∧
      session.isComplete = false ∧ session.ready.get? "b" = some "1" ∧
      session.manifest? "b" = some ⟨"1", "first"⟩ := by
  intro toggles
  have hcache : (stocked.begun toggles).cached? (.enabled "a" "1") = some "\x7b\x7d" := by
    decide +kernel
  have hfirst : (stocked.begun toggles).Steps 0 _ := .single (.found rfl hcache)
  have hsecond := hfirst.tail (.missing rfl (by decide +kernel))
  have hthird := hsecond.tail (.missing rfl (by decide +kernel))
  have hfourth := hthird.tail (.fetched 1 rfl (.ok "second"))
  have hlast := ((hfourth.tail (.missing rfl (by decide +kernel))).tail
    (.fetched 0 rfl (.ok "first"))).tail .report
  obtain ⟨session, hsession, -, hprocessed, -, hcomplete, -, hready, hheld, -⟩ :=
    (accounts_of_steps stocked toggles).2 _ hlast
  refine ⟨_, session, hlast, hsession, rfl, rfl, hprocessed, ?_, (hready "b").trans rfl,
    (hheld "b").trans rfl⟩
  exact Bool.eq_false_iff.mpr fun h => nomatch (hcomplete.mp h).1

end Sync

end FeatureFlow
