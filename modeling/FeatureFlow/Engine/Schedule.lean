import FeatureFlow.Settings
import FeatureFlow.Sync

/-!
# Background work on a virtual clock

Work that can go on stands in a queue and is done first in, first out; work that
waits for a moment has a timer. Time stands still while anything is queued, and
then moves to the next timer.
-/

namespace FeatureFlow

/-- A piece of background work up to the point where it waits. -/
inductive Work where
  /-- The removal of stale manifests, which steps back once for what was started
  together with it. -/
  | cleanUp (wanted : Sync.Wanted) (steppedBack : Bool)
  | beginFetch (session : Nat) (wanted : Sync.Wanted)
  | endFetch (session : Nat) (wanted : Sync.Wanted) (result : Except FetchError String)
  /-- A look of the barrier at its session, after a wait. -/
  | poll (session : Nat) (waited : Nat)

namespace Work

def turns : Work → Nat
  | cleanUp _ false => 2
  | _ => 1

theorem turns_pos (w : Work) : 0 < w.turns := by
  unfold turns
  split <;> omega

end Work

structure Job where
  number : Nat
  work : Work

structure Timer where
  due : Nat
  job : Job

/-- The synchronisation with its background work. What was sent, reported and
fetched is noted in the order of events. -/
structure Schedule where
  sync : Sync
  fetcher : Fetcher
  timing : BarrierTiming
  now : Nat
  queue : List Job
  /-- In the order of their moments, and for one moment in the order of setting. -/
  timers : List Timer
  /-- The number of the next job. -/
  next : Nat
  sent : List ServerMessage
  reports : List Report
  begun : List Sync.Wanted

namespace Schedule

-- ---------------------------------------------------------------------------
-- The queue and the timers
-- ---------------------------------------------------------------------------

def ofSync (sync : Sync) (fetcher : Fetcher) (timing : BarrierTiming) : Schedule :=
  { sync, fetcher, timing, now := 0, queue := [], timers := [], next := 0, sent := [],
    reports := [], begun := [] }

def doing (s : Schedule) (f : Sync → Outcome Sync α) : Schedule × α :=
  let o := f s.sync
  ({ s with sync := o.state, sent := s.sent ++ o.sent, reports := s.reports ++ o.reports },
    o.answer)

def spawn (s : Schedule) (work : Work) : Schedule × Nat :=
  ({ s with queue := s.queue ++ [{ number := s.next, work }], next := s.next + 1 }, s.next)

def insertTimer (timer : Timer) : List Timer → List Timer
  | [] => [timer]
  | other :: rest =>
    if timer.due < other.due then timer :: other :: rest else other :: insertTimer timer rest

def waitFor (s : Schedule) (delay : Nat) (job : Job) : Schedule :=
  { s with timers := insertTimer { due := s.now + delay, job } s.timers }

-- ---------------------------------------------------------------------------
-- Turns
-- ---------------------------------------------------------------------------

/-- How long the barrier sleeps after it has waited for a while, none where it
has waited long enough. -/
def nap? (timing : BarrierTiming) (waited : Nat) : Option Nat :=
  if timing.ceiling ≤ waited then none else some (min timing.tick (timing.ceiling - waited))

inductive Turn where
  | ends
  | again (work : Work)
  | waits (delay : Nat) (work : Work)

def turn (s : Schedule) (work : Work) : Schedule × Turn :=
  match work with
  | .cleanUp wanted false => (s, .again (.cleanUp wanted true))
  | .cleanUp wanted true => ({ s with sync := s.sync.cleanUp wanted }, .ends)
  | .beginFetch session wanted =>
    let fetch := s.fetcher s.sync.files wanted.feature wanted.version
    let s := { s with begun := s.begun ++ [wanted] }
    if fetch.delay = 0 then
      ({ s with sync := s.sync.fetched session wanted fetch.result }, .ends)
    else (s, .waits fetch.delay (.endFetch session wanted fetch.result))
  | .endFetch session wanted result =>
    ({ s with sync := s.sync.fetched session wanted result }, .ends)
  | .poll session waited =>
    -- the barrier looks at the session before it looks at the clock
    match (if s.sync.isComplete session then none else nap? s.timing waited) with
    | none => ((s.doing (·.report session)).1, .ends)
    | some nap => (s, .waits nap (.poll session (waited + nap)))

def step (s : Schedule) (job : Job) (rest : List Job) : Schedule :=
  let (after, result) := { s with queue := rest }.turn job.work
  match result with
  | .ends => after
  | .again work => { after with queue := after.queue ++ [{ job with work }] }
  | .waits delay work => after.waitFor delay { job with work }

def turnsLeft : List Job → Nat
  | [] => 0
  | job :: rest => job.work.turns + turnsLeft rest

theorem turnsLeft_append (queue more : List Job) :
    turnsLeft (queue ++ more) = turnsLeft queue + turnsLeft more := by
  induction queue with
  | nil => simp [turnsLeft]
  | cons job rest ih => simp [turnsLeft, ih, Nat.add_assoc]

theorem turn_queue (s : Schedule) (work : Work) : (s.turn work).1.queue = s.queue := by
  unfold turn
  split <;> try rfl
  · dsimp only
    split <;> rfl
  · split <;> rfl

theorem turn_again {s after : Schedule} {work again : Work}
    (h : s.turn work = (after, .again again)) : again.turns < work.turns := by
  unfold turn at h
  split at h
  · simp only [Prod.mk.injEq, Turn.again.injEq] at h
    rw [← h.2]
    simp [Work.turns]
  · simp at h
  · dsimp only at h
    split at h <;> simp at h
  · simp at h
  · split at h <;> simp at h

theorem turnsLeft_step (s : Schedule) (job : Job) (rest : List Job) :
    turnsLeft (s.step job rest).queue < turnsLeft (job :: rest) := by
  have hqueue := turn_queue { s with queue := rest } job.work
  have hpos := job.work.turns_pos
  unfold step
  generalize hturn : ({ s with queue := rest } : Schedule).turn job.work = result at hqueue
  obtain ⟨after, outcome⟩ := result
  cases outcome with
  | ends => simp_all [turnsLeft]
  | again work =>
    have := turn_again hturn
    simp_all [turnsLeft, turnsLeft_append]
    omega
  | waits delay work => simp_all [turnsLeft, waitFor]

/-- Does all queued work without moving the clock. -/
def settle (s : Schedule) : Schedule :=
  match _h : s.queue with
  | [] => s
  | job :: rest => settle (s.step job rest)
termination_by turnsLeft s.queue
decreasing_by
  rw [_h]
  exact turnsLeft_step s job rest

-- ---------------------------------------------------------------------------
-- The clock
-- ---------------------------------------------------------------------------

def moveTo (s : Schedule) (moment : Nat) : Schedule :=
  { s with
    now := moment
    queue := s.queue ++ (s.timers.takeWhile (·.due ≤ moment)).map (·.job)
    timers := s.timers.dropWhile (·.due ≤ moment) }

def nextMoment? (s : Schedule) (deadline : Nat) : Option Nat :=
  (s.timers.head?.map (·.due)).filter (· ≤ deadline)

/-- Lets time pass until a condition holds or nothing more happens up to the
deadline. Every moment is later than the one before, so the time that is left
bounds their number. -/
def passFor (stop : Schedule → Bool) (deadline : Nat) : Nat → Schedule → Schedule
  | 0, s => s.settle
  | left + 1, s =>
    let s := s.settle
    if stop s then s
    else
      match s.nextMoment? deadline with
      | none => s
      | some moment => passFor stop deadline left (s.moveTo moment)

def pass (s : Schedule) (stop : Schedule → Bool) (deadline : Nat) : Schedule :=
  passFor stop deadline (deadline + 1 - s.now) s

def cancel (s : Schedule) (number : Nat) : Schedule :=
  { s with
    queue := s.queue.filter (·.number ≠ number)
    timers := s.timers.filter (·.job.number ≠ number) }

def isPending (s : Schedule) (number : Nat) : Bool :=
  s.queue.any (·.number == number) || s.timers.any (·.job.number == number)

-- ---------------------------------------------------------------------------
-- Sessions
-- ---------------------------------------------------------------------------

def spawnFetch (session : Nat) (s : Schedule) (wanted : Sync.Wanted) : Schedule :=
  ((s.spawn (.cleanUp wanted false)).1.spawn (.beginFetch session wanted)).1

def setup (s : Schedule) (toggles : List Toggle) : Schedule × Option Nat :=
  let (sync, started) := s.sync.setup toggles
  let s := started.wanted.foldl (spawnFetch started.session) { s with sync }
  if started.barrier then
    let (s, number) := s.spawn (.poll started.session 0)
    (s, some number)
  else (s, none)

end Schedule

end FeatureFlow
