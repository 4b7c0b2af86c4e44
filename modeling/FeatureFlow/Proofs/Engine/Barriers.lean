import FeatureFlow.Engine
import FeatureFlow.Proofs.Sync.Sessions
import Mathlib.Data.List.Perm.Basic

/-!
# Barriers among the background work

`Schedule.polled` lists the sessions that barriers look at, once for each barrier
that is queued or waiting. A setup adds the session it begins, a report takes one
out, and nothing else changes the list but for its order. So each turn is either
a report or leaves the sessions as they were, apart from fetches (`step_outcome`).
-/

namespace FeatureFlow

/-- The session that a barrier looks at. -/
def Work.polled? : Work → Option Nat
  | .poll session _ => some session
  | _ => none

namespace Schedule

variable {s : Schedule}

def jobs (s : Schedule) : List Job :=
  s.queue ++ s.timers.map (·.job)

def polled (s : Schedule) : List Nat :=
  s.jobs.filterMap (·.work.polled?)

theorem perm_of_cons {α : Type} (f : Work → Option α) {t : Schedule}
    (h : t.jobs.Perm (job :: s.jobs)) :
    (t.jobs.filterMap (f ·.work)).Perm
      ((f job.work).toList ++ s.jobs.filterMap (f ·.work)) := by
  refine (h.filterMap _).trans ?_
  cases hwork : f job.work <;> simp [hwork]

theorem polled_cons {t : Schedule} (h : t.jobs.Perm (job :: s.jobs)) :
    t.polled.Perm (job.work.polled?.toList ++ s.polled) :=
  perm_of_cons Work.polled? h

theorem perm_eraseIdx {items : List α} (h : items[index]? = some item) :
    items.Perm (item :: items.eraseIdx index) := by
  obtain ⟨hindex, rfl⟩ := List.getElem?_eq_some_iff.mp h
  exact (List.getElem_cons_eraseIdx_perm hindex).symm

theorem insertTimer_perm (timer : Timer) (timers : List Timer) :
    (insertTimer timer timers).Perm (timer :: timers) := by
  induction timers with
  | nil => exact .refl _
  | cons other rest ih =>
    rw [insertTimer]
    split
    · exact .refl _
    · exact (ih.cons other).trans (.swap timer other rest)

theorem jobs_waitFor (s : Schedule) (delay : Nat) (job : Job) :
    (s.waitFor delay job).jobs.Perm (job :: s.jobs) := by
  have htimers := (insertTimer_perm { due := s.now + delay, job } s.timers).map (·.job)
  exact (htimers.append_left s.queue).trans List.perm_middle

theorem jobs_enqueue (s : Schedule) (job : Job) :
    ({ s with queue := s.queue ++ [job] } : Schedule).jobs.Perm (job :: s.jobs) := by
  rw [jobs, jobs, List.append_assoc]
  exact List.perm_middle

theorem jobs_take (h : s.queue[index]? = some job) :
    s.jobs.Perm (job :: ({ s with queue := s.queue.eraseIdx index } : Schedule).jobs) :=
  (perm_eraseIdx h).append_right _

theorem jobs_wake (h : s.timers[index]? = some timer) :
    ({ s with queue := s.queue ++ [timer.job], timers := s.timers.eraseIdx index } :
      Schedule).jobs.Perm s.jobs := by
  have htimers := (perm_eraseIdx h).map (·.job)
  refine (jobs_enqueue { s with timers := s.timers.eraseIdx index } timer.job).trans ?_
  exact ((htimers.append_left s.queue).trans List.perm_middle).symm

theorem polled_enqueue (s : Schedule) (job : Job) :
    ({ s with queue := s.queue ++ [job] } : Schedule).polled.Perm
      (job.work.polled?.toList ++ s.polled) :=
  polled_cons (jobs_enqueue s job)

theorem polled_spawn (s : Schedule) (work : Work) :
    (s.spawn work).1.polled.Perm (work.polled?.toList ++ s.polled) :=
  polled_enqueue s { number := s.next, work }

theorem jobs_cancel (s : Schedule) (number : Nat) :
    (s.cancel number).jobs = s.jobs.filter (·.number ≠ number) := by
  simp [jobs, cancel, List.filter_map, Function.comp_def]

theorem polled_cancel (s : Schedule) (number : Nat) :
    (s.cancel number).polled.Sublist s.polled := by
  rw [polled, jobs_cancel]
  exact List.filter_sublist.filterMap _

theorem cancelBarrier_outcome (s : Schedule) (barrier : Option Nat) :
    (Engine.cancelBarrier s barrier).sync = s.sync ∧
      (Engine.cancelBarrier s barrier).polled.Sublist s.polled := by
  cases barrier with
  | none => exact ⟨rfl, .refl _⟩
  | some number => exact ⟨rfl, s.polled_cancel number⟩

-- ---------------------------------------------------------------------------
-- Setting up
-- ---------------------------------------------------------------------------

theorem polled_spawnFetch (session : Nat) (s : Schedule) (wanted : Sync.Wanted) :
    (spawnFetch session s wanted).polled.Perm s.polled :=
  (polled_spawn _ _).trans (polled_spawn s _)

theorem spawnFetch_fold (session : Nat) (wanted : List Sync.Wanted) (s : Schedule) :
    (wanted.foldl (spawnFetch session) s).sync = s.sync ∧
      (wanted.foldl (spawnFetch session) s).polled.Perm s.polled := by
  induction wanted generalizing s with
  | nil => exact ⟨rfl, .refl _⟩
  | cons w rest ih =>
    obtain ⟨hsync, hpolled⟩ := ih (spawnFetch session s w)
    exact ⟨hsync, hpolled.trans (polled_spawnFetch session s w)⟩

theorem setup_outcome (s : Schedule) (toggles : List Toggle) :
    (s.setup toggles).1.sync = (s.sync.setup toggles).1 ∧
      (s.setup toggles).1.polled.Perm
        ((if (s.sync.setup toggles).2.barrier then [s.sync.sessions.length] else []) ++
          s.polled) := by
  have hsession := (s.sync.later_setup toggles).1
  unfold setup
  generalize s.sync.setup toggles = begun at hsession ⊢
  obtain ⟨sync, started⟩ := begun
  obtain ⟨hsync, hpolled⟩ := spawnFetch_fold started.session started.wanted { s with sync }
  dsimp only at hsession ⊢
  cases started.barrier with
  | false => exact ⟨hsync, hpolled⟩
  | true => exact ⟨hsync, (polled_spawn _ _).trans (hsession ▸ hpolled.cons _)⟩

-- ---------------------------------------------------------------------------
-- Turns
-- ---------------------------------------------------------------------------

end Schedule

/-- What a turn of some work does to the synchronisation. The answer is the work that
it leaves. -/
inductive Work.Ran (s : Sync) : Work → Outcome Sync (Option Work) → Prop
  | stepsBack : Ran s (.cleanUp wanted false) (.quiet s (some (.cleanUp wanted true)))
  | cleansUp : Ran s (.cleanUp wanted true) (.quiet (s.cleanUp wanted) none)
  | begins (result : Except FetchError String) :
      Ran s (.beginFetch n wanted) (.quiet s (some (.endFetch n wanted result)))
  | fetches (result : Except FetchError String) :
      Ran s (.beginFetch n wanted) (.quiet (s.fetched n wanted result) none)
  | ends : Ran s (.endFetch n wanted result) (.quiet (s.fetched n wanted result) none)
  | naps (waited : Nat) : Ran s (.poll n before) (.quiet s (some (.poll n waited)))
  | reports : Ran s (.poll n waited) ((s.report n).map fun _ => none)

namespace Schedule

structure Follows (s : Schedule) (job : Job) (o : Outcome Sync (Option Work))
    (t : Schedule) : Prop where
  sync : t.sync = o.state
  sent : t.sent = s.sent ++ o.sent
  reports : t.reports = s.reports ++ o.reports
  next : t.next = s.next
  jobs : t.jobs.Perm ((o.answer.map fun work => { job with work }).toList ++ s.jobs)

theorem ran_step (s : Schedule) (job : Job) (rest : List Job) :
    ∃ o, job.work.Ran s.sync o ∧ Follows { s with queue := rest } job o (s.step job rest) := by
  have hquiet {α : Type} {items : List α} : items = items ++ [] := (List.append_nil items).symm
  obtain ⟨number, work⟩ := job
  cases work with
  | cleanUp wanted steppedBack =>
    cases steppedBack with
    | false =>
      exact ⟨_, .stepsBack, rfl, hquiet, hquiet, rfl, jobs_enqueue { s with queue := rest } _⟩
    | true => exact ⟨_, .cleansUp, rfl, hquiet, hquiet, rfl, .refl _⟩
  | beginFetch session wanted =>
    generalize hfetch : s.fetcher s.sync.files wanted.feature wanted.version = fetch
    by_cases hdelay : fetch.delay = 0
    · refine ⟨_, .fetches fetch.result, ?_⟩
      simp only [step, turn, hfetch, hdelay, if_true]
      exact ⟨rfl, hquiet, hquiet, rfl, .refl _⟩
    · refine ⟨_, .begins fetch.result, ?_⟩
      simp only [step, turn, hfetch, hdelay, if_false]
      exact ⟨rfl, hquiet, hquiet, rfl, jobs_waitFor ..⟩
  | endFetch session wanted result => exact ⟨_, .ends, rfl, hquiet, hquiet, rfl, .refl _⟩
  | poll session waited =>
    simp only [step, turn]
    generalize (if s.sync.isComplete session then none else nap? s.timing waited) = nap
    cases nap with
    | none => exact ⟨_, .reports, rfl, rfl, rfl, rfl, .refl _⟩
    | some delay => exact ⟨_, .naps _, rfl, hquiet, hquiet, rfl, jobs_waitFor ..⟩

theorem Follows.perm {α : Type} (f : Work → Option α) (h : Follows s job o t) :
    (t.jobs.filterMap (f ·.work)).Perm
      ((o.answer.bind f).toList ++ s.jobs.filterMap (f ·.work)) := by
  obtain ⟨-, -, -, -, hjobs⟩ := h
  cases hleft : o.answer with
  | none => exact (hleft ▸ hjobs).filterMap _
  | some work => exact perm_of_cons f (hleft ▸ hjobs)

/-- One turn of a job that has left the queue. Unless it is a report, it keeps
the sessions and the barriers. -/
theorem step_outcome (s : Schedule) (job : Job) (rest : List Job) :
    (s.sync.Later (s.step job rest).sync ∧ (s.step job rest).sent = s.sent ∧
      (s.step job rest).polled.Perm
        (job.work.polled?.toList ++ ({ s with queue := rest } : Schedule).polled)) ∨
    ∃ n, job.work.polled? = some n ∧ (s.step job rest).sync = (s.sync.report n).state ∧
      (s.step job rest).sent = s.sent ++ (s.sync.report n).sent ∧
      (s.step job rest).polled.Perm ({ s with queue := rest } : Schedule).polled := by
  obtain ⟨o, hran, hafter⟩ := s.ran_step job rest
  have hpolled := hafter.perm Work.polled?
  have hsync := hafter.sync
  have hsent := hafter.sent
  generalize job.work = work at hran
  cases hran with
  | reports => exact .inr ⟨_, rfl, hsync, hsent, hpolled⟩
  | stepsBack | begins | naps =>
    exact .inl ⟨hsync ▸ .refl _, hsent.trans (List.append_nil _), hpolled⟩
  | cleansUp =>
    exact .inl ⟨hsync ▸ s.sync.later_cleanUp _, hsent.trans (List.append_nil _), hpolled⟩
  | fetches | ends =>
    exact .inl ⟨hsync ▸ s.sync.later_fetched .., hsent.trans (List.append_nil _), hpolled⟩

end Schedule

end FeatureFlow
