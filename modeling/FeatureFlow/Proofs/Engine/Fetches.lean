import FeatureFlow.Proofs.Engine.Conversation
import FeatureFlow.Proofs.Sync.Accounting

/-!
# Fetches among the background work

Each manifest that a setup does not find in the cache is fetched by a job of its own.
`Schedule.fetching` lists what the jobs of a session are still after, and whatever the
engine does, its sessions make progress against these lists (`Engine.Attended`). So a
session has counted all of its features but the ones that are being fetched
(`processed_of_run`).
-/

namespace FeatureFlow

def Work.fetching? (session : Nat) : Work → Option Sync.Wanted
  | .beginFetch n wanted | .endFetch n wanted _ => if n = session then some wanted else none
  | _ => none

-- ---------------------------------------------------------------------------
-- Sessions in progress
-- ---------------------------------------------------------------------------

namespace Sync

variable {s t : Sync} {n : Nat} {toggles : List Toggle} {fetching rest : List Wanted}

/-- A session was begun for the toggles, all of them were looked up, and these
manifests are still being fetched. -/
def InProgress (s : Sync) (n : Nat) (toggles : List Toggle) (fetching : List Wanted) : Prop :=
  ∃ (earlier : Sync) (p : Progress), earlier.sessions.length = n ∧
    (earlier.begun toggles).Steps n p ∧ p.sync = s ∧ p.unread = [] ∧ p.fetching.Perm fetching

theorem inProgress_setup (s : Sync) (toggles : List Toggle) :
    (s.setup toggles).1.InProgress s.sessions.length toggles (s.setup toggles).2.wanted := by
  obtain ⟨settled, -, hsteps⟩ := s.steps_setup toggles
  exact ⟨s, _, rfl, hsteps, rfl, rfl, .refl _⟩

theorem InProgress.elsewhere (h : s.InProgress n toggles fetching)
    (hsession : t.session? n = s.session? n) (hrest : fetching.Perm rest) :
    t.InProgress n toggles rest := by
  obtain ⟨earlier, p, hbegun, hsteps, rfl, hread, hfetching⟩ := h
  exact ⟨earlier, { p with sync := t }, hbegun, hsteps.tail (.elsewhere t hsession), rfl, hread,
    hfetching.trans hrest⟩

theorem InProgress.fetched (h : s.InProgress n toggles (wanted :: rest))
    (result : Except FetchError String) :
    (s.fetched n wanted result).InProgress n toggles rest := by
  obtain ⟨earlier, p, hbegun, hsteps, rfl, hread, hfetching⟩ := h
  have hmem : wanted ∈ p.fetching := hfetching.mem_iff.mpr (by simp)
  obtain ⟨index, hindex⟩ := List.getElem?_of_mem hmem
  refine ⟨earlier, _, hbegun, hsteps.tail (.fetched index hindex result), rfl, hread, ?_⟩
  exact ((Schedule.perm_eraseIdx hindex).symm.trans hfetching).cons_inv

theorem InProgress.report (h : s.InProgress n toggles fetching) :
    (s.report n).state.InProgress n toggles fetching := by
  obtain ⟨earlier, p, hbegun, hsteps, rfl, hread, hfetching⟩ := h
  exact ⟨earlier, _, hbegun, hsteps.tail .report, rfl, hread, hfetching⟩

/-- The session counts everything but what is being fetched. -/
theorem InProgress.accounts (h : s.InProgress n toggles fetching) :
    ∃ session, s.session? n = some session ∧ session.expected = (enabled toggles).length ∧
      session.processed + fetching.length = session.expected ∧
      (session.isComplete = true ↔ fetching = []) := by
  obtain ⟨earlier, p, rfl, hsteps, rfl, hread, hfetching⟩ := h
  have hsound := (sound_begun earlier toggles).steps hsteps
  obtain ⟨session, hsession, haccounts⟩ := hsound.session
  refine ⟨session, hsession, haccounts.expected, ?_, ?_⟩
  · have hlength := hsound.length
    rw [hread, hfetching.length_eq] at hlength
    rw [haccounts.processed, haccounts.expected]
    exact hlength
  · rw [hsound.isComplete_iff haccounts, ← List.length_eq_zero_iff, hfetching.length_eq,
      List.length_eq_zero_iff]
    exact and_iff_left hread

theorem length_fetched (s : Sync) (m : Nat) (wanted : Wanted)
    (result : Except FetchError String) :
    (s.fetched m wanted result).sessions.length = s.sessions.length :=
  (s.later_fetched m wanted result).length

theorem report_of_none (h : s.session? m = none) : (s.report m).state = s := by
  simp only [Sync.report, h]
  rfl

theorem session?_report_of_ne (hne : m ≠ n) : (s.report m).state.session? n = s.session? n := by
  cases h : s.session? m with
  | none => rw [report_of_none h]
  | some session => rw [session?_report h, if_neg hne]

theorem session?_resolve_of_ne (hne : m ≠ n) (s : Sync) (t : Toggle) :
    (resolve m s t).1.session? n = s.session? n := by
  unfold resolve
  generalize s.cache.read s.files t.name t.version = found
  obtain ⟨body, files⟩ := found
  cases body <;> exact (session?_updateSession ..).trans (if_neg hne)

theorem session?_resolveAll_of_ne (hne : m ≠ n) (s : Sync) (toggles : List Toggle) :
    (resolveAll m s toggles).1.session? n = s.session? n := by
  induction toggles generalizing s with
  | nil => rfl
  | cons t rest ih => exact (ih _).trans (session?_resolve_of_ne hne s t)

theorem session?_setup_of_lt (hn : n < s.sessions.length) (toggles : List Toggle) :
    (s.setup toggles).1.session? n = s.session? n := by
  have hne : s.sessions.length ≠ n := Nat.ne_of_gt hn
  have hbegun : (s.begun toggles).sync.session? n = s.session? n :=
    (session?_withSession s _ (some s.sessions.length) n).trans (if_neg hne.symm)
  rw [setup_eq_begun]
  split
  · exact (session?_finish ..).trans hbegun
  · exact (session?_resolveAll_of_ne hne ..).trans hbegun

theorem sessions_onMessage (s : Sync) (m : ServerMessage) :
    (s.onMessage m).state.sessions = s.sessions := by
  unfold onMessage
  split
  · simp only [Outcome.quiet, onSyncMessage]
    split
    · exact s.sessions_push _
    · rfl
  · split
    · rfl
    · split <;> rfl

end Sync

namespace Work.Ran

variable {s : Sync} {work : Work} {o : Outcome Sync (Option Work)} {n : Nat}

theorem length (h : work.Ran s o) : o.state.sessions.length = s.sessions.length := by
  cases h with
  | fetches | ends => exact s.length_fetched ..
  | @reports n =>
    show (s.report n).state.sessions.length = _
    cases hsession : s.session? n with
    | none => rw [Sync.report_of_none hsession]
    | some session => exact Sync.length_report hsession
  | _ => rfl

theorem polled? (h : work.Ran s o) (hleft : o.answer = some left) :
    left.polled? = work.polled? := by
  cases h <;> cases hleft <;> rfl

theorem fetching?_eq_none (h : work.Ran s o) (hwork : work.fetching? n = none) :
    o.answer.bind (·.fetching? n) = none := by
  cases h with
  | begins => exact hwork
  | _ => rfl

/-- A turn takes every session one step on, or leaves it. -/
theorem inProgress (h : work.Ran s o)
    (hs : s.InProgress n toggles ((work.fetching? n).toList ++ rest)) :
    o.state.InProgress n toggles ((o.answer.bind (·.fetching? n)).toList ++ rest) := by
  have hfetched {m : Nat} {wanted : Sync.Wanted} (result : Except FetchError String)
      (hs : s.InProgress n toggles ((if m = n then some wanted else none).toList ++ rest)) :
      (s.fetched m wanted result).InProgress n toggles rest := by
    by_cases hm : m = n
    · subst hm
      rw [if_pos rfl] at hs
      exact hs.fetched result
    · rw [if_neg hm] at hs
      exact hs.elsewhere (Sync.session?_fetched_of_ne hm wanted result) (.refl _)
  cases h with
  | cleansUp => exact hs.elsewhere rfl (.refl _)
  | fetches result => exact hfetched result hs
  | ends => exact hfetched _ hs
  | @reports m =>
    by_cases hm : m = n
    · exact hm ▸ hs.report
    · exact hs.elsewhere (Sync.session?_report_of_ne hm) (.refl _)
  | stepsBack | begins | naps => exact hs

end Work.Ran

-- ---------------------------------------------------------------------------
-- The jobs of a session
-- ---------------------------------------------------------------------------

namespace Schedule

variable {s t : Schedule} {n : Nat} {barrier : Option Nat}

def fetching (s : Schedule) (n : Nat) : List Sync.Wanted :=
  s.jobs.filterMap (·.work.fetching? n)

theorem fetching_cons (h : t.jobs.Perm (job :: s.jobs)) (n : Nat) :
    (t.fetching n).Perm ((job.work.fetching? n).toList ++ s.fetching n) :=
  perm_of_cons (·.fetching? n) h

theorem fetching_spawn (s : Schedule) (work : Work) (n : Nat) :
    ((s.spawn work).1.fetching n).Perm ((work.fetching? n).toList ++ s.fetching n) :=
  fetching_cons (jobs_enqueue s { number := s.next, work }) n

theorem fetching_spawnFetch (session : Nat) (s : Schedule) (wanted : Sync.Wanted) (n : Nat) :
    ((spawnFetch session s wanted).fetching n).Perm
      ((if session = n then [wanted] else []) ++ s.fetching n) := by
  have hcleanUp := s.fetching_spawn (.cleanUp wanted false) n
  have hfetch := (s.spawn (.cleanUp wanted false)).1.fetching_spawn (.beginFetch session wanted) n
  refine hfetch.trans ?_
  by_cases hsession : session = n <;> simpa [Work.fetching?, hsession] using hcleanUp

theorem fetching_spawnFetches (session : Nat) (wanted : List Sync.Wanted) (s : Schedule)
    (n : Nat) :
    ((wanted.foldl (spawnFetch session) s).fetching n).Perm
      ((if session = n then wanted else []) ++ s.fetching n) := by
  induction wanted generalizing s with
  | nil => simp
  | cons w rest ih =>
    refine (ih (spawnFetch session s w)).trans ?_
    refine ((fetching_spawnFetch session s w n).append_left _).trans ?_
    by_cases hsession : session = n
    · simp only [hsession, if_true, List.cons_append]
      exact List.perm_middle
    · simp [hsession]

theorem fetching_setup (s : Schedule) (toggles : List Toggle) (n : Nat) :
    ((s.setup toggles).1.fetching n).Perm
      ((if s.sync.sessions.length = n then (s.sync.setup toggles).2.wanted else []) ++
        s.fetching n) := by
  have hsession := (s.sync.later_setup toggles).1
  unfold setup
  generalize s.sync.setup toggles = begun at hsession ⊢
  obtain ⟨sync, started⟩ := begun
  have hfetches := fetching_spawnFetches started.session started.wanted { s with sync } n
  dsimp only at hsession ⊢
  rw [← hsession]
  cases started.barrier with
  | false => exact hfetches
  | true => exact (fetching_spawn _ (.poll started.session 0) n).trans hfetches

-- ---------------------------------------------------------------------------
-- Cancelling
-- ---------------------------------------------------------------------------

/-- Jobs have numbers that were given out, and the number of the barrier that is kept
stands for barriers only. -/
structure Tends (s : Schedule) (barrier : Option Nat) : Prop where
  numbered : ∀ job ∈ s.jobs, job.number < s.next
  given : ∀ number, barrier = some number → number < s.next
  barrier : ∀ number, barrier = some number → ∀ job ∈ s.jobs, job.number = number →
    job.work.polled? ≠ none

theorem fetching?_of_polled? {work : Work} (h : work.polled? ≠ none) (n : Nat) :
    work.fetching? n = none := by
  cases work with
  | poll => rfl
  | _ => exact absurd rfl h

theorem Tends.of_subset (h : s.Tends barrier) (hnext : t.next = s.next)
    (hjobs : t.jobs ⊆ s.jobs) : t.Tends barrier where
  numbered job hjob := hnext ▸ h.numbered job (hjobs hjob)
  given number hnumber := hnext ▸ h.given number hnumber
  barrier number hnumber job hjob := h.barrier number hnumber job (hjobs hjob)

theorem Tends.fetching_cancelBarrier (h : s.Tends barrier) (n : Nat) :
    (Engine.cancelBarrier s barrier).fetching n = s.fetching n := by
  cases barrier with
  | none => rfl
  | some number =>
    simp only [Engine.cancelBarrier, fetching, jobs_cancel, List.filterMap_filter]
    refine List.filterMap_congr fun job hjob => ?_
    by_cases hnumber : job.number = number
    · have hbarrier := h.barrier number rfl job hjob hnumber
      simp [hnumber, fetching?_of_polled? hbarrier n]
    · simp [hnumber]

theorem Tends.cancelBarrier (h : s.Tends barrier) (kept : Option Nat) :
    (Engine.cancelBarrier s kept).Tends barrier := by
  cases kept with
  | none => exact h
  | some number =>
    refine h.of_subset rfl ?_
    rw [Engine.cancelBarrier, jobs_cancel]
    exact List.filter_subset_self _

theorem Tends.spawn (h : s.Tends barrier) (work : Work) : (s.spawn work).1.Tends barrier where
  numbered job hjob := by
    rcases List.mem_cons.mp ((jobs_enqueue s _).subset hjob) with rfl | hold
    · exact Nat.lt_succ_self _
    · exact Nat.lt_succ_of_lt (h.numbered job hold)
  given number hnumber := Nat.lt_succ_of_lt (h.given number hnumber)
  barrier number hnumber job hjob heq := by
    rcases List.mem_cons.mp ((jobs_enqueue s _).subset hjob) with rfl | hold
    · exact absurd heq (Nat.ne_of_gt (h.given number hnumber))
    · exact h.barrier number hnumber job hold heq

theorem Tends.spawnBarrier (h : s.Tends barrier) (session : Nat) :
    (s.spawn (.poll session 0)).1.Tends (some (s.spawn (.poll session 0)).2) where
  numbered := (h.spawn _).numbered
  given number hnumber := Option.some.inj hnumber ▸ Nat.lt_succ_self _
  barrier number hnumber job hjob heq := by
    rcases List.mem_cons.mp ((jobs_enqueue s _).subset hjob) with rfl | hold
    · simp [Work.polled?]
    · obtain rfl := Option.some.inj hnumber
      exact absurd heq (Nat.ne_of_lt (h.numbered job hold))

theorem Tends.forget (h : s.Tends barrier) : s.Tends none :=
  ⟨h.numbered, fun _ h => (nomatch h), fun _ h => nomatch h⟩

theorem Tends.spawnFetches (h : s.Tends barrier) (session : Nat) (wanted : List Sync.Wanted) :
    (wanted.foldl (spawnFetch session) s).Tends barrier := by
  induction wanted generalizing s with
  | nil => exact h
  | cons w rest ih => exact ih ((h.spawn (.cleanUp w false)).spawn (.beginFetch session w))

theorem Tends.setup (h : s.Tends barrier) (toggles : List Toggle) :
    (s.setup toggles).1.Tends barrier ∧ (s.setup toggles).1.Tends (s.setup toggles).2 := by
  unfold Schedule.setup
  generalize s.sync.setup toggles = begun
  obtain ⟨sync, started⟩ := begun
  have hsync : ({ s with sync } : Schedule).Tends barrier := h.of_subset rfl (List.Subset.refl _)
  have hfetches := hsync.spawnFetches started.session started.wanted
  dsimp only
  cases started.barrier with
  | false => exact ⟨hfetches, hfetches.forget⟩
  | true => exact ⟨hfetches.spawn _, hfetches.spawnBarrier started.session⟩

theorem origin_step (hjob : s.queue[index]? = some job) :
    ∀ new ∈ (s.step job (s.queue.eraseIdx index)).jobs, ∃ old ∈ s.jobs,
      old.number = new.number ∧ new.work.polled? = old.work.polled? := by
  obtain ⟨o, hran, hafter⟩ := s.ran_step job (s.queue.eraseIdx index)
  have htaken := jobs_take hjob
  intro new hnew
  rcases List.mem_append.mp (hafter.jobs.subset hnew) with hleft | hold
  · obtain ⟨left, hanswer, rfl⟩ := Option.map_eq_some_iff.mp (Option.mem_toList.mp hleft)
    exact ⟨job, htaken.mem_iff.mpr (by simp), rfl, hran.polled? hanswer⟩
  · exact ⟨new, htaken.mem_iff.mpr (List.mem_cons_of_mem job hold), rfl, rfl⟩

theorem next_step (s : Schedule) (job : Job) (rest : List Job) :
    (s.step job rest).next = s.next := by
  obtain ⟨o, -, hafter⟩ := s.ran_step job rest
  exact hafter.next

theorem Tends.turn (h : s.Tends barrier) (hjob : s.queue[index]? = some job) :
    (s.step job (s.queue.eraseIdx index)).Tends barrier := by
  have hfrom := origin_step hjob
  have hnext := s.next_step job (s.queue.eraseIdx index)
  constructor
  case numbered =>
    intro new hnew
    obtain ⟨old, hold, hnumber, -⟩ := hfrom new hnew
    rw [hnext, ← hnumber]
    exact h.numbered old hold
  case given => exact fun number hnumber => hnext ▸ h.given number hnumber
  case barrier =>
    intro number hnumber new hnew heq
    obtain ⟨old, hold, hsame, hpolled⟩ := hfrom new hnew
    rw [hpolled]
    exact h.barrier number hnumber old hold (hsame.trans heq)

end Schedule

-- ---------------------------------------------------------------------------
-- Engines
-- ---------------------------------------------------------------------------

namespace Engine

variable {e e' : Engine} {setups : List (List Toggle)}

/-- The sessions of the setups have come as far as their jobs. -/
structure Attended (setups : List (List Toggle)) (e : Engine) : Prop where
  tends : e.schedule.Tends e.barrier
  begun : e.sync.sessions.length = setups.length
  unbegun : ∀ n, setups.length ≤ n → e.schedule.fetching n = []
  inProgress : ∀ n toggles, setups[n]? = some toggles →
    e.sync.InProgress n toggles (e.schedule.fetching n)

theorem Attended.keep (h : e.Attended setups) (htends : e'.schedule.Tends e'.barrier)
    (hsessions : e'.sync.sessions = e.sync.sessions)
    (hfetching : ∀ n, (e.schedule.fetching n).Perm (e'.schedule.fetching n)) :
    e'.Attended setups where
  tends := htends
  begun := hsessions ▸ h.begun
  unbegun n hn := List.perm_nil.mp (h.unbegun n hn ▸ (hfetching n).symm)
  inProgress n toggles hn := by
    refine (h.inProgress n toggles hn).elsewhere ?_ (hfetching n)
    rw [Sync.session?, hsessions, Sync.session?]

theorem Attended.same (h : e.Attended setups) (hjobs : e'.schedule.jobs = e.schedule.jobs)
    (hnext : e'.schedule.next = e.schedule.next) (hbarrier : e'.barrier = e.barrier)
    (hsessions : e'.sync.sessions = e.sync.sessions) : e'.Attended setups := by
  refine h.keep ?_ hsessions fun n => .of_eq ?_
  · rw [hbarrier]
    exact h.tends.of_subset hnext (hjobs ▸ List.Subset.refl _)
  · rw [Schedule.fetching, Schedule.fetching, hjobs]

theorem Attended.setup (h : e.Attended setups) (toggles : List Toggle)
    (htends : e'.schedule.Tends e'.barrier) (hsync : e'.sync = (e.sync.setup toggles).1)
    (hfetching : ∀ n, (e'.schedule.fetching n).Perm
      ((e.schedule.setup toggles).1.fetching n)) : e'.Attended (setups ++ [toggles]) := by
  have hnew (n : Nat) := (hfetching n).trans (e.schedule.fetching_setup toggles n)
  have hlater := (e.sync.later_setup toggles).2.length
  have hlength : e.schedule.sync.sessions.length = setups.length := h.begun
  constructor
  case tends => exact htends
  case begun =>
    rw [hsync, hlater]
    simp [Sync.withSession, h.begun]
  case unbegun =>
    intro n hn
    rw [List.length_append, List.length_singleton] at hn
    have hnone := hnew n
    rw [if_neg (by omega), h.unbegun n (by omega)] at hnone
    exact List.perm_nil.mp hnone
  case inProgress =>
    intro n found hn
    rcases Nat.lt_trichotomy n setups.length with hlt | rfl | hgt
    · rw [List.getElem?_append_left hlt] at hn
      have hkept := hnew n
      rw [if_neg (by omega)] at hkept
      refine (h.inProgress n found hn).elsewhere ?_ hkept.symm
      rw [hsync]
      exact Sync.session?_setup_of_lt (hlength ▸ hlt) toggles
    · obtain rfl : toggles = found := by simpa using hn
      have hbegun := hnew setups.length
      rw [if_pos hlength, h.unbegun _ (Nat.le_refl _), List.append_nil] at hbegun
      rw [hsync, ← h.begun]
      exact (e.sync.inProgress_setup toggles).elsewhere rfl (h.begun ▸ hbegun.symm)
    · rw [List.getElem?_eq_none (by simp; omega)] at hn
      cases hn

theorem Attended.turn (h : e.Attended setups) (hjob : e.schedule.queue[index]? = some job) :
    ({ e with schedule := e.schedule.step job (e.schedule.queue.eraseIdx index) } :
      Engine).Attended setups := by
  obtain ⟨o, hran, hafter⟩ := e.schedule.ran_step job (e.schedule.queue.eraseIdx index)
  have htaken := Schedule.fetching_cons (Schedule.jobs_take hjob)
  have hleft (n : Nat) := hafter.perm (·.fetching? n)
  constructor
  case tends => exact h.tends.turn hjob
  case begun =>
    exact (congrArg (·.sessions.length) hafter.sync).trans (hran.length.trans h.begun)
  case unbegun =>
    intro n hn
    have hnone := List.perm_nil.mp (h.unbegun n hn ▸ (htaken n).symm)
    obtain ⟨hwork, hrest⟩ := List.append_eq_nil_iff.mp hnone
    have hnext := hran.fetching?_eq_none (Option.toList_eq_nil_iff.mp hwork)
    have hlast := hleft n
    rw [hnext] at hlast
    exact List.perm_nil.mp (hlast.trans (.of_eq hrest))
  case inProgress =>
    intro n toggles hn
    have hbefore := (h.inProgress n toggles hn).elsewhere rfl (htaken n)
    exact (hran.inProgress hbefore).elsewhere (congrArg (·.session? n) hafter.sync)
      (hleft n).symm

end Engine

namespace Conversation

variable {c : Conversation} {before : List (List Toggle)}

def Event.setup? : Event → Option (List Toggle)
  | .startSync toggles | .setup toggles => some toggles
  | _ => none

/-- The toggles of all setups. Each one begins the next session. -/
def setups (events : List Event) : List (List Toggle) :=
  events.filterMap Event.setup?

theorem attended_startSync (h : c.engine.Attended before) (toggles : List Toggle) :
    (c.handle (.startSync toggles)).engine.Attended (before ++ [toggles]) := by
  obtain ⟨hkept, hnew⟩ := h.tends.setup toggles
  -- the former barrier is cancelled, and the new one is kept
  refine h.setup toggles (hnew.cancelBarrier c.engine.barrier) ?_ fun n => ?_
  · have hsync := (Schedule.cancelBarrier_outcome
      (c.engine.schedule.setup toggles).1 c.engine.barrier).1
    exact hsync.trans (c.engine.schedule.setup_outcome toggles).1
  · exact .of_eq (hkept.fetching_cancelBarrier n)

theorem attended_turn (h : c.engine.Attended before) (index : Nat) :
    (c.turn index).engine.Attended before := by
  unfold Conversation.turn
  dsimp only
  split
  · exact h
  · rename_i job hjob
    exact h.turn hjob

theorem attended_wake (h : c.engine.Attended before) (index : Nat) :
    (c.wake index).engine.Attended before := by
  unfold Conversation.wake
  dsimp only
  split
  · exact h
  · rename_i timer htimer
    have hjobs := Schedule.jobs_wake htimer
    exact h.keep (h.tends.of_subset rfl hjobs.subset) rfl fun n => (hjobs.filterMap _).symm

theorem attended_message (h : c.engine.Attended before) (m : ServerMessage) :
    (c.engine.handleIncoming m).Attended before :=
  h.same rfl rfl rfl (c.sync.sessions_onMessage m)

theorem attended_handle (h : c.engine.Attended before) (event : Event) :
    (c.handle event).engine.Attended (before ++ event.setup?.toList) := by
  have hsame {engine : Engine} (hengine : engine.Attended before) :
      engine.Attended (before ++ []) := (List.append_nil before).symm ▸ hengine
  cases event with
  | startSync toggles => exact attended_startSync h toggles
  | setup toggles =>
    obtain ⟨hkept, -⟩ := h.tends.setup toggles
    exact h.setup toggles hkept (c.engine.schedule.setup_outcome toggles).1 fun _ => .refl _
  | takeBarrier => exact hsame (h.keep h.tends.forget rfl fun _ => .refl _)
  | shutdown =>
    refine hsame (h.keep (h.tends.cancelBarrier c.engine.barrier).forget ?_ fun n => ?_)
    · have hsync := (Schedule.cancelBarrier_outcome c.engine.schedule c.engine.barrier).1
      exact congrArg Sync.sessions hsync
    · exact .of_eq (h.tends.fetching_cancelBarrier n).symm
  | closeLink => exact hsame (h.same rfl rfl rfl rfl)
  | refetch fetcher => exact hsame (h.same rfl rfl rfl rfl)
  | turn index => exact hsame (attended_turn h index)
  | wake index => exact hsame (attended_wake h index)
  | elapse moment => exact hsame (h.same rfl rfl rfl rfl)
  | answer index features =>
    refine hsame ?_
    simp only [Conversation.handle, Conversation.answer]
    split
    · exact h
    · split
      · exact attended_message h _
      · exact h
  | message m =>
    refine hsame ?_
    simp only [Conversation.handle]
    split
    · exact h
    · exact attended_message h m

theorem attended_run (h : c.engine.Attended before) (events : List Event) :
    (c.run events).engine.Attended (before ++ setups events) := by
  induction events generalizing c before with
  | nil => exact (List.append_nil before).symm ▸ h
  | cons event rest ih =>
    have hsetups : setups (event :: rest) = event.setup?.toList ++ setups rest := by
      cases hsetup : event.setup? <;> simp [setups, hsetup]
    rw [hsetups, ← List.append_assoc]
    exact ih (attended_handle h event)

theorem attended_start {e : Engine} (h : Engine.bootstrap parts = .ok e) : e.Attended [] := by
  obtain ⟨files, cache, orchestrator, elements, fetcher, timing, hschedule, hbarrier⟩ :=
    bootstrap_outcome h
  have hjobs : e.schedule.jobs = [] := congrArg Schedule.jobs hschedule
  have hsessions : e.sync.sessions = [] := congrArg (·.sync.sessions) hschedule
  refine ⟨⟨?numbered, ?given, ?barrier⟩, ?begun, ?unbegun, ?inProgress⟩
  case numbered => simp [hjobs]
  case given => simp [hbarrier]
  case barrier => simp [hbarrier]
  case begun => simp [hsessions]
  case unbegun => simp [Schedule.fetching, hjobs]
  case inProgress => simp

/-- In every run of an engine, the session of each setup has counted all of its features
but the ones that are being fetched, and it is complete when there are none of these. -/
theorem processed_of_run {e : Engine} (h : Engine.bootstrap parts = .ok e)
    (events : List Event) (hn : (setups events)[n]? = some toggles) :
    let c := (start e).run events
    ∃ session, c.sync.session? n = some session ∧
      session.expected = (Sync.enabled toggles).length ∧
      session.processed + (c.engine.schedule.fetching n).length = session.expected ∧
      (session.isComplete = true ↔ c.engine.schedule.fetching n = []) :=
  have hattended : (start e).engine.Attended [] := attended_start h
  ((attended_run hattended events).inProgress n toggles hn).accounts

end Conversation

end FeatureFlow
