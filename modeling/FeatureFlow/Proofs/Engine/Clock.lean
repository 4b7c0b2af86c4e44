import FeatureFlow.Proofs.Engine.Passing
import Mathlib.Data.List.TakeWhile

/-!
# Runs on the clock

The events of a schedule that keeps to its clock: time moves only while nothing is queued, and
never past a timer. Each job that is pending has a moment at which it takes its next turn
(`Schedule.agenda`), and the clock does not change it. Letting time pass is a run of this kind, at
whose end nothing is due up to the deadline (`goesOn_pass`).
-/

namespace FeatureFlow

namespace Schedule

inductive Event where
  | turn (index : Nat)
  /-- The clock moves to a moment. -/
  | elapse (moment : Nat)
  /-- Something is done to the synchronisation at once. -/
  | act (f : Sync → Outcome Sync Unit)
  | setup (toggles : List Toggle)
  | cancel (number : Nat)
  /-- From now on, fetches go another way. -/
  | refetch (fetcher : Fetcher)

/-- Nothing is to be done before the moment. -/
def mayElapse (s : Schedule) (moment : Nat) : Bool :=
  s.queue.isEmpty && decide (s.now ≤ moment) && s.timers.all fun timer => moment ≤ timer.due

/-- What an event makes of the schedule. What cannot happen changes nothing. -/
def handle (s : Schedule) : Event → Schedule
  | .turn index =>
    match s.queue[index]? with
    | none => s
    | some job => s.step job (s.queue.eraseIdx index)
  | .elapse moment => if s.mayElapse moment then s.moveTo moment else s
  | .act f => (s.doing f).1
  | .setup toggles => (s.setup toggles).1
  | .cancel number => s.cancel number
  | .refetch fetcher => { s with fetcher }

def run (s : Schedule) (events : List Event) : Schedule :=
  events.foldl handle s

theorem run_append (s : Schedule) (events more : List Event) :
    s.run (events ++ more) = (s.run events).run more :=
  List.foldl_append ..

-- ---------------------------------------------------------------------------
-- What is pending
-- ---------------------------------------------------------------------------

/-- The pending jobs, each with the moment at which it takes its next turn. -/
def agenda (s : Schedule) : List (Nat × Job) :=
  s.queue.map (s.now, ·) ++ s.timers.map fun timer => (timer.due, timer.job)

def agendaOf (s : Schedule) (number : Nat) : List (Nat × Job) :=
  s.agenda.filter (·.2.number = number)

/-- Both stand at the same moment with the same work. -/
structure Abreast (s t : Schedule) : Prop where
  timing : t.timing = s.timing
  now : t.now = s.now
  queue : t.queue = s.queue
  timers : t.timers = s.timers
  next : t.next = s.next

def Turn.left? : Turn → Option (Nat × Work)
  | .ends => none
  | .again work => some (0, work)
  | .waits delay work => some (delay, work)

def remainder (moment : Nat) (job : Job) (result : Turn) : List (Nat × Job) :=
  (result.left?.map fun (delay, work) => (moment + delay, { job with work })).toList

variable {s t u : Schedule} {timing : BarrierTiming} {job : Job} {number moment deadline : Nat}

theorem Abreast.agenda (h : Abreast s t) : t.agenda = s.agenda := by
  simp only [Schedule.agenda, h.now, h.queue, h.timers]

theorem abreast_turn (s : Schedule) (work : Work) : Abreast s (s.turn work).1 := by
  unfold turn
  split
  · exact ⟨rfl, rfl, rfl, rfl, rfl⟩
  · exact ⟨rfl, rfl, rfl, rfl, rfl⟩
  · dsimp only
    split <;> exact ⟨rfl, rfl, rfl, rfl, rfl⟩
  · exact ⟨rfl, rfl, rfl, rfl, rfl⟩
  · split <;> exact ⟨rfl, rfl, rfl, rfl, rfl⟩

theorem isPending_eq_false_iff : s.isPending number = false ↔ s.agendaOf number = [] := by
  simp [isPending, agendaOf, agenda, List.filter_eq_nil_iff]

theorem agenda_enqueue (s : Schedule) (job : Job) :
    ({ s with queue := s.queue ++ [job] } : Schedule).agenda.Perm ((s.now, job) :: s.agenda) := by
  simp only [agenda, List.map_append, List.append_assoc]
  exact List.perm_middle

theorem agenda_waitFor (s : Schedule) (delay : Nat) (job : Job) :
    (s.waitFor delay job).agenda.Perm ((s.now + delay, job) :: s.agenda) := by
  have htimers := (insertTimer_perm { due := s.now + delay, job } s.timers).map
    fun timer => (timer.due, timer.job)
  exact (htimers.append_left _).trans List.perm_middle

theorem agenda_take (h : s.queue[index]? = some job) :
    s.agenda.Perm ((s.now, job) ::
      ({ s with queue := s.queue.eraseIdx index } : Schedule).agenda) :=
  ((perm_eraseIdx h).map (s.now, ·)).append_right _

theorem exists_step (s : Schedule) (job : Job) (rest : List Job) :
    let left : Schedule := { s with queue := rest }
    ∃ after, Abreast left after ∧ s.step job rest = match (left.turn job.work).2 with
      | .ends => after
      | .again work => { after with queue := after.queue ++ [{ job with work }] }
      | .waits delay work => after.waitFor delay { job with work } :=
  ⟨_, abreast_turn { s with queue := rest } job.work, rfl⟩

theorem agenda_step (s : Schedule) (job : Job) (rest : List Job) :
    let left : Schedule := { s with queue := rest }
    (s.step job rest).agenda.Perm (remainder s.now job (left.turn job.work).2 ++ left.agenda) := by
  intro left
  obtain ⟨after, habreast, hstep⟩ := s.exists_step job rest
  rw [hstep, ← habreast.agenda]
  cases (left.turn job.work).2 with
  | ends => exact .refl _
  | again work => exact habreast.now ▸ agenda_enqueue after { job with work }
  | waits delay work => exact habreast.now ▸ agenda_waitFor after delay { job with work }

theorem agenda_moveTo (h : s.mayElapse moment = true) : (s.moveTo moment).agenda = s.agenda := by
  simp only [mayElapse, Bool.and_eq_true, List.isEmpty_iff, List.all_eq_true,
    decide_eq_true_eq] at h
  obtain ⟨⟨hqueue, -⟩, hdue⟩ := h
  have hnow : (s.timers.takeWhile (·.due ≤ moment)).map (fun timer => (moment, timer.job)) =
      (s.timers.takeWhile (·.due ≤ moment)).map fun timer => (timer.due, timer.job) := by
    refine List.map_congr_left fun timer htimer => ?_
    have hreached := List.mem_takeWhile_imp htimer
    have hmem := (List.takeWhile_prefix _).subset htimer
    rw [Nat.le_antisymm (of_decide_eq_true hreached) (hdue timer hmem)]
  simp only [agenda, moveTo, hqueue, List.map_nil, List.nil_append, List.map_map,
    Function.comp_def, hnow, ← List.map_append, List.takeWhile_append_dropWhile]

theorem agenda_cancel (s : Schedule) (number : Nat) :
    (s.cancel number).agenda = s.agenda.filter (·.2.number ≠ number) := by
  simp [agenda, cancel, List.filter_map, Function.comp_def]

-- ---------------------------------------------------------------------------
-- Schedules that keep time
-- ---------------------------------------------------------------------------

/-- Jobs have numbers that were given out, and timers stand in their order, all of them ahead. -/
structure Timely (timing : BarrierTiming) (s : Schedule) : Prop where
  timing : s.timing = timing
  numbered : ∀ entry ∈ s.agenda, entry.2.number < s.next
  rising : s.timers.Pairwise (·.due ≤ ·.due)
  ahead : ∀ timer ∈ s.timers, s.now < timer.due

theorem timely_ofSync (sync : Sync) (fetcher : Fetcher) (timing : BarrierTiming) :
    Timely timing (.ofSync sync fetcher timing) :=
  ⟨rfl, nofun, .nil, nofun⟩

theorem Timely.abreast (h : Timely timing s) (habreast : Abreast s t) : Timely timing t where
  timing := habreast.timing.trans h.timing
  numbered := by
    rw [habreast.agenda, habreast.next]
    exact h.numbered
  rising := habreast.timers ▸ h.rising
  ahead := by
    rw [habreast.timers, habreast.now]
    exact h.ahead

theorem Timely.enqueue (h : Timely timing s) (hnumber : job.number < s.next) :
    Timely timing { s with queue := s.queue ++ [job] } where
  timing := h.timing
  numbered entry hentry := by
    rcases List.mem_cons.mp ((agenda_enqueue s job).subset hentry) with rfl | hold
    · exact hnumber
    · exact h.numbered entry hold
  rising := h.rising
  ahead := h.ahead

theorem pairwise_insertTimer {timers : List Timer} (h : timers.Pairwise (·.due ≤ ·.due))
    (timer : Timer) : (insertTimer timer timers).Pairwise (·.due ≤ ·.due) := by
  induction timers with
  | nil => exact List.pairwise_singleton ..
  | cons other rest ih =>
    obtain ⟨hother, hrest⟩ := List.pairwise_cons.mp h
    rw [insertTimer]
    split
    · rename_i hlt
      refine List.pairwise_cons.mpr ⟨fun later hlater => ?_, h⟩
      rcases List.mem_cons.mp hlater with rfl | hlater
      · exact Nat.le_of_lt hlt
      · exact Nat.le_trans (Nat.le_of_lt hlt) (hother later hlater)
    · rename_i hge
      refine List.pairwise_cons.mpr ⟨fun later hlater => ?_, ih hrest⟩
      rcases List.mem_cons.mp ((insertTimer_perm timer rest).subset hlater) with rfl | hlater
      · exact Nat.le_of_not_lt hge
      · exact hother later hlater

theorem Timely.waitFor (h : Timely timing s) (hnumber : job.number < s.next)
    (hdelay : 0 < delay) : Timely timing (s.waitFor delay job) where
  timing := h.timing
  numbered entry hentry := by
    rcases List.mem_cons.mp ((agenda_waitFor s delay job).subset hentry) with rfl | hold
    · exact hnumber
    · exact h.numbered entry hold
  rising := pairwise_insertTimer h.rising _
  ahead timer htimer := by
    rcases List.mem_cons.mp ((insertTimer_perm _ s.timers).subset htimer) with rfl | hold
    · exact Nat.lt_add_of_pos_right hdelay
    · exact h.ahead timer hold

theorem turn_waits_pos (h : (s.turn work).2 = .waits delay left) : 0 < delay := by
  unfold turn at h
  split at h
  · cases h
  · cases h
  · dsimp only at h
    split at h
    · cases h
    · rename_i hdelay
      cases h
      exact Nat.pos_of_ne_zero hdelay
  · cases h
  · rename_i session waited
    split at h
    · cases h
    · rename_i nap hnap
      cases h
      split at hnap
      · cases hnap
      · rw [nap?] at hnap
        split at hnap
        · cases hnap
        · rename_i hwaited
          obtain rfl := Option.some.inj hnap
          exact Nat.lt_min.mpr ⟨s.timing.tick_pos, Nat.sub_pos_of_lt (Nat.lt_of_not_le hwaited)⟩

theorem Timely.step (h : Timely timing s) (hjob : s.queue[index]? = some job) :
    Timely timing (s.step job (s.queue.eraseIdx index)) := by
  have htaken := agenda_take hjob
  have hnumber : job.number < s.next := h.numbered (s.now, job) (htaken.mem_iff.mpr (by simp))
  have hleft : Timely timing { s with queue := s.queue.eraseIdx index } :=
    ⟨h.timing, fun entry hentry => h.numbered entry
      (htaken.mem_iff.mpr (List.mem_cons_of_mem _ hentry)), h.rising, h.ahead⟩
  obtain ⟨after, habreast, hstep⟩ := s.exists_step job (s.queue.eraseIdx index)
  have hafter := hleft.abreast habreast
  have hgiven : job.number < after.next := habreast.next ▸ hnumber
  rw [hstep]
  cases hturn : (({ s with queue := s.queue.eraseIdx index } : Schedule).turn job.work).2 with
  | ends => exact hafter
  | again work => exact hafter.enqueue hgiven
  | waits delay work => exact hafter.waitFor hgiven (turn_waits_pos hturn)

theorem Timely.spawn (h : Timely timing s) (work : Work) : Timely timing (s.spawn work).1 := by
  have hlater : Timely timing { s with next := s.next + 1 } :=
    ⟨h.timing, fun entry hentry => Nat.lt_succ_of_lt (h.numbered entry hentry), h.rising, h.ahead⟩
  exact hlater.enqueue (Nat.lt_succ_self s.next)

theorem Timely.spawnFetches (h : Timely timing s) (session : Nat) (wanted : List Sync.Wanted) :
    Timely timing (wanted.foldl (spawnFetch session) s) := by
  induction wanted generalizing s with
  | nil => exact h
  | cons w rest ih => exact ih ((h.spawn (.cleanUp w false)).spawn (.beginFetch session w))

theorem Timely.setup (h : Timely timing s) (toggles : List Toggle) :
    Timely timing (s.setup toggles).1 := by
  unfold Schedule.setup
  generalize s.sync.setup toggles = begun
  obtain ⟨sync, started⟩ := begun
  have hbegun : Timely timing { s with sync } := h.abreast ⟨rfl, rfl, rfl, rfl, rfl⟩
  have hfetches := hbegun.spawnFetches started.session started.wanted
  dsimp only
  cases started.barrier with
  | false => exact hfetches
  | true => exact hfetches.spawn _

theorem lt_due_of_mem_dropWhile {timers : List Timer} (h : timers.Pairwise (·.due ≤ ·.due))
    (hmem : timer ∈ timers.dropWhile (·.due ≤ moment)) : moment < timer.due := by
  induction timers with
  | nil => cases hmem
  | cons first rest ih =>
    obtain ⟨hfirst, hrest⟩ := List.pairwise_cons.mp h
    by_cases hreached : first.due ≤ moment
    · rw [List.dropWhile_cons_of_pos (by simpa using hreached)] at hmem
      exact ih hrest hmem
    · rw [List.dropWhile_cons_of_neg (by simpa using hreached)] at hmem
      rcases List.mem_cons.mp hmem with rfl | hmem
      · exact Nat.lt_of_not_le hreached
      · exact Nat.lt_of_lt_of_le (Nat.lt_of_not_le hreached) (hfirst timer hmem)

theorem Timely.moveTo (h : Timely timing s) (hmay : s.mayElapse moment = true) :
    Timely timing (s.moveTo moment) where
  timing := h.timing
  numbered := by
    rw [agenda_moveTo hmay]
    exact h.numbered
  rising := h.rising.sublist (List.dropWhile_sublist _)
  ahead timer htimer := lt_due_of_mem_dropWhile h.rising htimer

theorem Timely.cancel (h : Timely timing s) (number : Nat) : Timely timing (s.cancel number) where
  timing := h.timing
  numbered entry hentry := by
    rw [agenda_cancel] at hentry
    exact h.numbered entry (List.mem_of_mem_filter hentry)
  rising := h.rising.filter _
  ahead timer htimer := h.ahead timer (List.mem_of_mem_filter htimer)

theorem Timely.handle (h : Timely timing s) (event : Event) : Timely timing (s.handle event) := by
  cases event with
  | turn index =>
    simp only [Schedule.handle]
    split
    · exact h
    · rename_i hjob
      exact h.step hjob
  | elapse moment =>
    simp only [Schedule.handle]
    split
    · rename_i hmay
      exact h.moveTo hmay
    · exact h
  | act f => exact h.abreast ⟨rfl, rfl, rfl, rfl, rfl⟩
  | setup toggles => exact h.setup toggles
  | cancel number => exact h.cancel number
  | refetch fetcher => exact h.abreast ⟨rfl, rfl, rfl, rfl, rfl⟩

theorem Timely.run (h : Timely timing s) (events : List Event) : Timely timing (s.run events) := by
  induction events generalizing s with
  | nil => exact h
  | cons event rest ih => exact ih (h.handle event)

-- ---------------------------------------------------------------------------
-- Letting time pass
-- ---------------------------------------------------------------------------

inductive Event.Runs : Event → Prop
  | turn (index : Nat) : Runs (.turn index)
  | elapse (moment : Nat) : Runs (.elapse moment)

def GoesOn (s t : Schedule) : Prop :=
  ∃ events : List Event, (∀ event ∈ events, event.Runs) ∧ s.run events = t

theorem GoesOn.refl (s : Schedule) : GoesOn s s :=
  ⟨[], nofun, rfl⟩

theorem GoesOn.trans (h : GoesOn s t) (hnext : GoesOn t u) : GoesOn s u := by
  obtain ⟨events, hruns, rfl⟩ := h
  obtain ⟨more, hmore, rfl⟩ := hnext
  exact ⟨events ++ more, List.forall_mem_append.mpr ⟨hruns, hmore⟩, run_append ..⟩

theorem GoesOn.handle (h : event.Runs) : GoesOn s (s.handle event) :=
  ⟨[event], List.forall_mem_singleton.mpr h, rfl⟩

theorem GoesOn.timely (h : GoesOn s t) (hs : Timely timing s) : Timely timing t := by
  obtain ⟨events, -, rfl⟩ := h
  exact hs.run events

theorem now_step (s : Schedule) (job : Job) (rest : List Job) : (s.step job rest).now = s.now := by
  obtain ⟨after, habreast, hstep⟩ := s.exists_step job rest
  rw [hstep]
  split <;> exact habreast.now

theorem goesOn_settle (s : Schedule) :
    GoesOn s s.settle ∧ s.settle.queue = [] ∧ s.settle.now = s.now := by
  induction s using Schedule.settle.induct with
  | case1 s hqueue =>
    rw [settle_of_nil hqueue]
    exact ⟨.refl s, hqueue, rfl⟩
  | case2 s job rest hqueue ih =>
    obtain ⟨hrest, hnil, hnow⟩ := ih
    have hturn : s.handle (.turn 0) = s.step job rest := by simp [Schedule.handle, hqueue]
    rw [settle_of_cons hqueue]
    refine ⟨.trans ?_ hrest, hnil, hnow.trans (s.now_step job rest)⟩
    exact hturn ▸ .handle (.turn 0)

theorem mayElapse_of_nextMoment? (h : Timely timing s) (hqueue : s.queue = [])
    (hnext : s.nextMoment? deadline = some moment) :
    s.mayElapse moment = true ∧ s.now < moment := by
  obtain ⟨hhead, -⟩ := Option.filter_eq_some_iff.mp hnext
  obtain ⟨first, hfirst, rfl⟩ := Option.map_eq_some_iff.mp hhead
  obtain ⟨rest, htimers⟩ := List.head?_eq_some_iff.mp hfirst
  have hrising := h.rising
  have hlt : s.now < first.due := h.ahead first (by simp [htimers])
  rw [htimers] at hrising
  have hall : ∀ timer ∈ s.timers, first.due ≤ timer.due := by
    rw [htimers]
    exact List.forall_mem_cons.mpr ⟨Nat.le_refl _, (List.pairwise_cons.mp hrising).1⟩
  refine ⟨?_, hlt⟩
  simp only [mayElapse, hqueue, List.isEmpty_nil, Nat.le_of_lt hlt, decide_true, Bool.and_true,
    Bool.true_and, List.all_eq_true, decide_eq_true_eq]
  exact hall

theorem lt_due_of_nextMoment? (h : Timely timing s) (hnext : s.nextMoment? deadline = none) :
    ∀ timer ∈ s.timers, deadline < timer.due := by
  have hrising := h.rising
  rw [nextMoment?] at hnext
  cases htimers : s.timers with
  | nil => nofun
  | cons first rest =>
    rw [htimers] at hrising hnext
    have hfirst : deadline < first.due := by simpa using hnext
    intro timer htimer
    rcases List.mem_cons.mp htimer with rfl | hrest
    · exact hfirst
    · exact Nat.lt_of_lt_of_le hfirst ((List.pairwise_cons.mp hrising).1 timer hrest)

theorem goesOn_passFor (h : Timely timing s) {left : Nat} (hleft : deadline + 1 - s.now ≤ left) :
    let t := s.passFor (fun _ => false) deadline left
    GoesOn s t ∧ t.queue = [] ∧ ∀ timer ∈ t.timers, deadline < timer.due := by
  induction left generalizing s with
  | zero =>
    -- the deadline is over, and all timers are ahead
    obtain ⟨hsettle, hqueue, hnow⟩ := s.goesOn_settle
    have hover : deadline < s.settle.now := by omega
    exact ⟨hsettle, hqueue, fun timer htimer =>
      Nat.lt_trans hover ((hsettle.timely h).ahead timer htimer)⟩
  | succ left ih =>
    obtain ⟨hsettle, hqueue, hnow⟩ := s.goesOn_settle
    have htimely := hsettle.timely h
    simp only [passFor, Bool.false_eq_true, if_false]
    cases hnext : s.settle.nextMoment? deadline with
    | none => exact ⟨hsettle, hqueue, lt_due_of_nextMoment? htimely hnext⟩
    | some moment =>
      obtain ⟨hmay, hlt⟩ := mayElapse_of_nextMoment? htimely hqueue hnext
      have helapse : s.settle.handle (.elapse moment) = s.settle.moveTo moment := if_pos hmay
      have hmoved : GoesOn s (s.settle.moveTo moment) :=
        hsettle.trans (helapse ▸ .handle (.elapse moment))
      have hless : deadline + 1 - (s.settle.moveTo moment).now ≤ left := by
        show deadline + 1 - moment ≤ left
        omega
      obtain ⟨hrest, hdone⟩ := ih (hmoved.timely h) hless
      exact ⟨hmoved.trans hrest, hdone⟩

/-- Letting time pass up to a deadline does all that is due until then. -/
theorem goesOn_pass (h : Timely timing s) (deadline : Nat) :
    let t := s.pass (fun _ => false) deadline
    GoesOn s t ∧ t.queue = [] ∧ ∀ timer ∈ t.timers, deadline < timer.due :=
  goesOn_passFor h (Nat.le_refl _)

end Schedule

end FeatureFlow
