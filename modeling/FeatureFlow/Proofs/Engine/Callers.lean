import FeatureFlow.Proofs.Engine.Custody
import FeatureFlow.Proofs.Engine.Handshake
import FeatureFlow.Proofs.Sync.Setups

/-!
# Calls that overlap

Several tasks can call one engine. A start sets up a session and starts its barrier, and in
the end it cancels the barrier that the engine keeps and hands over its own, with anything
else in between. Whoever waits for a report has taken the barrier out of the hand of the
engine.

So a start that returns and a shutdown miss the barriers that were taken and those of
starts that have not returned (`unsilenced`). No other barrier of an earlier session
reports any more (`session_of_sentAlong`). The lists are those that the engine has really
sent (`noted_run`).

The last turn of a barrier, in which it looks, reports and sends, is one event here. With
several threads a barrier can be cancelled while one of them is in the middle of that turn,
and then it still comes to its end. Such a cancellation is outside of this model.
-/

namespace FeatureFlow

-- ---------------------------------------------------------------------------
-- Fetches
-- ---------------------------------------------------------------------------

theorem Schedule.spawnFetches_outcome (session : Nat) (wanted : List Sync.Wanted)
    (s : Schedule) :
    let after := wanted.foldl (spawnFetch session) s
    after.sync = s.sync ∧ after.sent = s.sent ∧ after.barriers.Perm s.barriers ∧
      s.next ≤ after.next := by
  induction wanted generalizing s with
  | nil => exact ⟨rfl, rfl, .refl _, Nat.le_refl _⟩
  | cons w rest ih =>
    obtain ⟨hsync, hsent, hbarriers, hnext⟩ := ih (spawnFetch session s w)
    refine ⟨hsync, hsent, hbarriers.trans (barriers_spawnFetch session s w), ?_⟩
    exact Nat.le_trans (Nat.le_add_right s.next 2) hnext

-- ---------------------------------------------------------------------------
-- Calls
-- ---------------------------------------------------------------------------

structure Callers where
  engine : Engine
  /-- The starts that are still setting up. -/
  setups : List Sync.Setup
  handovers : List Handover
  /-- The barriers that were taken by those who wait for a report. -/
  taken : List Nat
  /-- Every ready list that was sent. -/
  sent : List Owed

namespace Callers

inductive Event where
  /-- A start is called, with the experiments as they are then. -/
  | start (toggles : List Toggle)
  /-- A start makes the next step of its setup. -/
  | advance (index : Nat)
  /-- A start hands its barrier over and returns. -/
  | handOver (index : Nat)
  /-- Somebody begins to wait for a report. -/
  | takeBarrier
  | shutdown
  | closeLink
  /-- From now on, fetches go another way. -/
  | refetch (fetcher : Fetcher)
  /-- A queued job takes its turn. -/
  | turn (index : Nat)
  /-- A timer runs out. -/
  | wake (index : Nat)
  /-- The clock moves to a moment. -/
  | elapse (moment : Nat)

def Event.isStart : Event → Bool
  | start _ => true
  | _ => false

def sync (c : Callers) : Sync :=
  c.engine.schedule.sync

def withSchedule (c : Callers) (schedule : Schedule) : Callers :=
  { c with engine := { c.engine with schedule } }

/-- A start that has set up starts its barrier, if there is anything to wait for. -/
def take (c : Callers) : Sync.Yield → Callers
  | .fetch session wanted =>
    c.withSchedule (Schedule.spawnFetch session c.engine.schedule wanted)
  | .returns session true =>
    let (schedule, number) := c.engine.schedule.spawn (.poll session 0)
    { c.withSchedule schedule with
      handovers := c.handovers ++ [{ session, barrier := some number }] }
  | .returns session false =>
    { c with handovers := c.handovers ++ [{ session, barrier := none }] }

def host : Sync.Host Callers where
  setups c := { sync := c.sync, running := c.setups }
  put c s :=
    { c.withSchedule { c.engine.schedule with sync := s.sync } with setups := s.running }
  take := take
  put_setups _ := rfl
  setups_put _ _ := rfl
  put_put _ _ _ := rfl
  take_put _ _ y := by
    cases y with
    | fetch => rfl
    | returns session barrier => cases barrier <;> rfl

def handOver (c : Callers) (index : Nat) : Callers :=
  match c.handovers[index]? with
  | some { session := _, barrier } =>
    let schedule := Engine.cancelBarrier c.engine.schedule c.engine.barrier
    { c with
      engine := { c.engine with schedule, barrier }
      handovers := c.handovers.eraseIdx index }
  | none => c

def takeBarrier (c : Callers) : Callers :=
  let (engine, barrier) := c.engine.takeBarrier
  { c with engine, taken := c.taken ++ barrier.toList }

def along (c : Callers) (after : Conversation) : Callers :=
  { c with engine := after.engine, sent := c.sent ++ after.owed }

/-- What an event makes of the engine and its calls. What cannot happen changes nothing. -/
def handle (c : Callers) : Event → Callers
  | .start toggles =>
    host.begin { c with engine := { c.engine with experiments := toggles } } toggles
  | .advance index => host.step c index
  | .handOver index => c.handOver index
  | .takeBarrier => c.takeBarrier
  | .shutdown => { c with engine := c.engine.shutdown }
  | .closeLink => { c with engine := c.engine.closeLink }
  | .refetch fetcher => c.withSchedule { c.engine.schedule with fetcher }
  | .turn index => c.along ((Conversation.start c.engine).turn index)
  | .wake index => c.along ((Conversation.start c.engine).wake index)
  | .elapse moment => c.withSchedule { c.engine.schedule with now := moment }

def ofEngine (engine : Engine) : Callers :=
  { engine, setups := [], handovers := [], taken := [], sent := [] }

def run (c : Callers) (events : List Event) : Callers :=
  events.foldl handle c

variable {c d : Callers}

-- ---------------------------------------------------------------------------
-- Without interruption
-- ---------------------------------------------------------------------------

theorem foldl_fetch (c : Callers) (session : Nat) (wanted : List Sync.Wanted) :
    (wanted.map (.fetch session)).foldl take c =
      c.withSchedule (wanted.foldl (Schedule.spawnFetch session) c.engine.schedule) := by
  induction wanted generalizing c with
  | nil => rfl
  | cons w rest ih => exact ih (c.take (.fetch session w))

theorem foldl_take_sent (yields : List Sync.Yield) (c : Callers) :
    (yields.foldl take c).sent = c.sent ∧
      (yields.foldl take c).engine.schedule.sent = c.engine.schedule.sent := by
  induction yields generalizing c with
  | nil => exact ⟨rfl, rfl⟩
  | cons y rest ih =>
    have htaken : (c.take y).sent = c.sent ∧
        (c.take y).engine.schedule.sent = c.engine.schedule.sent := by
      cases y with
      | fetch => exact ⟨rfl, rfl⟩
      | returns session barrier => cases barrier <;> exact ⟨rfl, rfl⟩
    exact ⟨(ih _).1.trans htaken.1, (ih _).2.trans htaken.2⟩

theorem handOver_append (h : c.handovers = earlier ++ [⟨session, barrier⟩]) :
    c.handOver earlier.length =
      { c with
        engine := { c.engine with
          schedule := Engine.cancelBarrier c.engine.schedule c.engine.barrier
          barrier }
        handovers := earlier } := by
  have hindex : c.handovers[earlier.length]? = some ⟨session, barrier⟩ := by simp [h]
  have herased : c.handovers.eraseIdx earlier.length = earlier := by
    simp [h, List.eraseIdx_append_of_length_le]
  simp only [handOver, hindex, herased]

/-- The steps of a start, when nothing comes in between. -/
def startSteps (c : Callers) (toggles : List Toggle) : List Event :=
  .start toggles ::
    ((List.replicate (Sync.Setups.length toggles) c.setups.length).map .advance ++
      [.handOver c.handovers.length])

theorem run_startSteps (c : Callers) (toggles : List Toggle) :
    c.run (c.startSteps toggles) =
      { c with engine := ({ c.engine with experiments := toggles } : Engine).startSync.1 } := by
  let called : Callers := { c with engine := { c.engine with experiments := toggles } }
  have hrun : c.run (c.startSteps toggles) =
      ((c.sync.setup toggles).2.yields.foldl take (host.put called
        { sync := (c.sync.setup toggles).1, running := c.setups })).handOver
          c.handovers.length := by
    rw [run, startSteps, List.foldl_cons, List.foldl_append, List.foldl_map]
    exact congrArg (·.handOver c.handovers.length) (host.run_whole called toggles)
  rw [hrun, Sync.Started.yields, List.foldl_append, foldl_fetch]
  simp only [Engine.startSync, Schedule.setup]
  have hsync : c.engine.schedule.sync = c.sync := rfl
  rw [hsync]
  generalize c.sync.setup toggles = begun
  obtain ⟨sync, session, wanted, barrier⟩ := begun
  cases barrier with
  | true => exact handOver_append rfl
  | false => exact handOver_append rfl

end Callers

/-- A setup whose barrier nobody keeps is a start whose barrier is taken at once. -/
theorem Engine.setup_eq_taken (e : Engine) (hbarrier : e.barrier = none) :
    (e.setup e.experiments).1 = e.startSync.1.takeBarrier.1 := by
  simp only [Engine.setup, Engine.startSync, Engine.takeBarrier, hbarrier, Engine.cancelBarrier]

-- ---------------------------------------------------------------------------
-- What was sent
-- ---------------------------------------------------------------------------

namespace Callers

variable {c : Callers}

def Noted (c : Callers) : Prop :=
  c.sent.map (·.ready) = c.engine.schedule.sent.filterMap (·.ready?)

theorem Noted.turn (h : c.Noted) (index : Nat) : (c.handle (.turn index)).Noted := by
  simp only [Callers.handle, Conversation.turn]
  split
  · simpa [Noted, along, Conversation.start] using h
  · rename_i job hjob
    let rest := c.engine.schedule.queue.eraseIdx index
    obtain ⟨new, hsent, hquiet⟩ : ∃ new, (c.engine.schedule.step job rest).sent =
        c.engine.schedule.sent ++ new ∧ (job.work.polled? = none → new = []) := by
      rcases c.engine.schedule.step_outcome job rest with ⟨-, hsame, -⟩ | ⟨n, hn, -, hsent, -⟩
      · exact ⟨[], hsame.trans (List.append_nil _).symm, fun _ => rfl⟩
      · exact ⟨_, hsent, fun hnone => absurd (hn.symm.trans hnone) (Option.some_ne_none n)⟩
    have hnew := Conversation.ready_newlyOwed hsent hquiet
    show (c.sent ++ ([] ++ _)).map _ = List.filterMap _ (c.engine.schedule.step job rest).sent
    rw [hsent, List.nil_append, List.map_append, List.filterMap_append, h]
    exact congrArg _ hnew

theorem Noted.handle (h : c.Noted) (x : Event) : (c.handle x).Noted := by
  have hsame {after : Callers} (hnoted : after.sent = c.sent)
      (hsent : after.engine.schedule.sent = c.engine.schedule.sent) : after.Noted := by
    rw [Noted, hnoted, hsent]
    exact h
  cases x with
  | advance index =>
    obtain ⟨hnoted, hsent⟩ := foldl_take_sent ((host.setups c).step index).2 (host.put c _)
    exact hsame hnoted hsent
  | handOver index =>
    simp only [Callers.handle, handOver]
    split
    · exact hsame rfl (c.engine.schedule.sent_cancelBarrier c.engine.barrier)
    · exact h
  | shutdown => exact hsame rfl (c.engine.schedule.sent_cancelBarrier c.engine.barrier)
  | start | takeBarrier | refetch | elapse => exact hsame rfl rfl
  | closeLink => exact hsame rfl (List.append_nil _)
  | turn index => exact h.turn index
  | wake index =>
    simp only [Callers.handle, Conversation.wake]
    split <;> simpa [Noted, along, Conversation.start] using h

theorem Noted.run (h : c.Noted) (events : List Event) : (c.run events).Noted := by
  induction events generalizing c with
  | nil => exact h
  | cons x rest ih => exact ih (h.handle x)

/-- In every run, the lists that are noted are those that the engine has sent. -/
theorem noted_run {e : Engine} (h : Engine.bootstrap parts = .ok e) (events : List Event) :
    ((ofEngine e).run events).Noted := by
  obtain ⟨files, cache, orchestrator, elements, fetcher, timing, hschedule, -⟩ :=
    Conversation.bootstrap_outcome h
  have hstart : (ofEngine e).Noted := by
    rw [Noted, ofEngine, hschedule]
    rfl
  exact hstart.run events

end Callers

-- ---------------------------------------------------------------------------
-- The barriers
-- ---------------------------------------------------------------------------

namespace Callers

def custody (c : Callers) : Custody where
  barriers := c.engine.schedule.barriers
  next := c.engine.schedule.next
  begun := c.sync.sessions.length
  kept := c.engine.barrier
  setups := c.setups.map (·.session)
  handovers := c.handovers
  taken := c.taken

variable {c d : Callers}

theorem step_goesOn (hholders : d.custody.kept = c.custody.kept ∧
      d.custody.setups = c.custody.setups ∧ d.custody.handovers = c.custody.handovers ∧
      d.custody.taken = c.custody.taken)
    (hbarriers : d.custody.barriers ⊆ c.custody.barriers)
    (hnext : c.custody.next ≤ d.custody.next) (hbegun : d.custody.begun = c.custody.begun)
    (hreporting : reporting ⊆ c.custody.barriers.map Barrier.session) :
    c.custody.Step false reporting d.custody := by
  generalize d.custody = after at *
  obtain ⟨barriers, next, begun, kept, setups, handovers, taken⟩ := after
  obtain ⟨rfl, rfl, rfl, rfl⟩ := hholders
  obtain rfl := hbegun
  exact .goesOn hbarriers hnext hreporting

theorem step_refl (c : Callers) : c.custody.Step false [] c.custody :=
  .goesOn (List.Subset.refl _) (Nat.le_refl _) (List.nil_subset _)

theorem custody_start (c : Callers) (toggles : List Toggle) :
    (c.handle (.start toggles)).custody =
      { c.custody with
        begun := c.custody.begun + 1
        setups := c.custody.setups ++ [c.custody.begun] } := by
  have hbegun : (c.handle (.start toggles)).sync.sessions.length = c.sync.sessions.length + 1 :=
    List.length_append
  have hsetups : (c.handle (.start toggles)).setups.map (·.session) =
      c.setups.map (·.session) ++ [c.sync.sessions.length] := List.map_append
  unfold custody
  rw [hbegun, hsetups]
  rfl

theorem custody_put (c : Callers) {s : Sync.Setups}
    (h : s.sync.sessions.length = c.sync.sessions.length) :
    (host.put c s).custody = { c.custody with setups := s.running.map (·.session) } := by
  have hbegun : (host.put c s).sync.sessions.length = c.sync.sessions.length := h
  unfold custody
  rw [hbegun]
  rfl

theorem step_advance (c : Callers) (index : Nat) :
    (c.handle (.advance index)).sent = c.sent ∧
      c.custody.Step false [] (c.handle (.advance index)).custody := by
  obtain ⟨-, hlength, hcourse⟩ := (host.setups c).step_outcome index
  have hstep : c.handle (.advance index) =
      ((host.setups c).step index).2.foldl take (host.put c ((host.setups c).step index).1) := rfl
  rw [hstep]
  generalize (host.setups c).step index = result at hlength hcourse
  obtain ⟨after, yields⟩ := result
  rcases hcourse with ⟨session, wanted, rfl, hsetups⟩ | ⟨session, barrier, rfl, hsetups⟩
  · obtain ⟨hsync, -, hbarriers, hnext⟩ := Schedule.spawnFetches_outcome session wanted
      (host.put c after).engine.schedule
    rw [foldl_fetch]
    refine ⟨rfl, step_goesOn ⟨rfl, hsetups, rfl, rfl⟩ hbarriers.subset hnext ?begun
      (List.nil_subset _)⟩
    case begun => exact (congrArg (·.sessions.length) hsync).trans hlength
  · have hput := c.custody_put hlength
    cases barrier with
    | true =>
      have hbarriers := Schedule.barriers_spawn (host.put c after).engine.schedule
        (.poll session 0)
      refine ⟨rfl, ?_⟩
      show c.custody.Step false []
        { (host.put c after).custody with
          barriers := ((host.put c after).engine.schedule.spawn (.poll session 0)).1.barriers
          next := c.custody.next + 1
          handovers := c.custody.handovers ++ [⟨session, some c.custody.next⟩] }
      rw [hput]
      exact .settles hsetups hbarriers.subset
    | false =>
      refine ⟨rfl, ?_⟩
      show c.custody.Step false []
        { (host.put c after).custody with
          handovers := c.custody.handovers ++ [⟨session, none⟩] }
      rw [hput]
      exact .finishes hsetups

theorem custody_handOver (h : c.handovers[index]? = some handover) :
    (c.handOver index).custody =
      { c.custody with
        barriers := (Engine.cancelBarrier c.engine.schedule c.engine.barrier).barriers
        kept := handover.barrier
        handovers := c.handovers.eraseIdx index } := by
  have hsync := (c.engine.schedule.cancelBarrier_outcome c.engine.barrier).1
  simp only [handOver, h, custody, sync, c.engine.schedule.next_cancelBarrier, hsync]

theorem handOver_of_none (h : c.handovers[index]? = none) : c.handOver index = c := by
  simp only [handOver, h]

theorem step_handOver (c : Callers) (index : Nat) :
    (c.handOver index).sent = c.sent ∧ c.custody.Step false [] (c.handOver index).custody := by
  cases hindex : c.handovers[index]? with
  | none =>
    rw [handOver_of_none hindex]
    exact ⟨rfl, c.step_refl⟩
  | some handover =>
    rw [custody_handOver hindex]
    refine ⟨by simp only [handOver, hindex], .returns (Schedule.perm_eraseIdx hindex) ?_⟩
    exact fun b => Schedule.mem_barriers_cancelBarrier.mp

theorem step_shutdown (c : Callers) :
    c.custody.Step false [] (c.handle .shutdown).custody := by
  have hnext := c.engine.schedule.next_cancelBarrier c.engine.barrier
  have hsync := (c.engine.schedule.cancelBarrier_outcome c.engine.barrier).1
  have hstep := Custody.Step.stops (k := c.custody) fun b hb =>
    Schedule.mem_barriers_cancelBarrier.mp hb
  simp only [custody, sync, handle, Engine.shutdown] at hstep ⊢
  rwa [hnext, hsync]

theorem step_turn (c : Callers) (index : Nat) :
    let after := (Conversation.start c.engine).turn index
    c.custody.Step false (after.owed.map (·.session)) (c.along after).custody := by
  unfold Conversation.turn
  dsimp only
  split
  · exact c.step_refl
  · rename_i job hjob
    refine step_goesOn ⟨rfl, rfl, rfl, rfl⟩ (Schedule.barriers_step hjob)
      (Nat.le_of_eq (Schedule.next_step ..).symm) (Schedule.length_step ..) fun n hn => ?_
    obtain ⟨x, hx, rfl⟩ := List.mem_map.mp hn
    have hpolled := Conversation.polled?_of_newlyOwed hx
    have hmem : job ∈ c.engine.schedule.jobs :=
      (Schedule.jobs_take hjob).mem_iff.mpr List.mem_cons_self
    exact List.mem_map.mpr
      ⟨⟨job.number, x.session⟩, Schedule.mem_barriers.mpr ⟨job, hmem, hpolled, rfl⟩, rfl⟩

theorem step_wake (c : Callers) (index : Nat) :
    let after := (Conversation.start c.engine).wake index
    after.owed = [] ∧ c.custody.Step false [] (c.along after).custody := by
  unfold Conversation.wake
  dsimp only
  split
  · exact ⟨rfl, c.step_refl⟩
  · rename_i timer htimer
    refine ⟨rfl, step_goesOn ⟨rfl, rfl, rfl, rfl⟩ ?_ (Nat.le_refl _) rfl (List.nil_subset _)⟩
    exact ((Schedule.jobs_wake htimer).filterMap _).subset

theorem step_handle (c : Callers) (x : Event) :
    ∃ new, (c.handle x).sent = c.sent ++ new ∧
      c.custody.Step x.isStart (new.map (·.session)) (c.handle x).custody := by
  have hquiet {after : Callers} (h : after.sent = c.sent ∧
      c.custody.Step x.isStart [] after.custody) : ∃ new, after.sent = c.sent ++ new ∧
        c.custody.Step x.isStart (new.map (·.session)) after.custody :=
    ⟨[], h.1.trans (List.append_nil _).symm, h.2⟩
  cases x with
  | start toggles =>
    have hstart : c.custody.Step true [] (c.handle (.start toggles)).custody := by
      rw [custody_start]
      exact .begins
    exact hquiet ⟨rfl, hstart⟩
  | advance index => exact hquiet (c.step_advance index)
  | handOver index => exact hquiet (c.step_handOver index)
  | takeBarrier => exact hquiet ⟨rfl, .takes⟩
  | shutdown => exact hquiet ⟨rfl, c.step_shutdown⟩
  | closeLink | refetch | elapse => exact hquiet ⟨rfl, c.step_refl⟩
  | turn index => exact ⟨_, rfl, c.step_turn index⟩
  | wake index =>
    obtain ⟨hnone, hstep⟩ := c.step_wake index
    exact hquiet ⟨by simp [handle, along, hnone], hstep⟩

-- ---------------------------------------------------------------------------
-- Runs
-- ---------------------------------------------------------------------------

theorem sound_run (h : c.custody.Sound) (events : List Event) : (c.run events).custody.Sound := by
  induction events generalizing c with
  | nil => exact h
  | cons x rest ih =>
    obtain ⟨new, -, hstep⟩ := c.step_handle x
    exact ih (h.step hstep)

theorem leads_run (c : Callers) (events : List Event) :
    ∃ new, (c.run events).sent = c.sent ++ new ∧
      c.custody.Leads (new.map (·.session)) (c.run events).custody := by
  induction events generalizing c with
  | nil => exact ⟨[], (List.append_nil _).symm, .refl _⟩
  | cons x rest ih =>
    obtain ⟨new, hsent, hstep⟩ := c.step_handle x
    obtain ⟨more, hmore, hrest⟩ := ih (c.handle x)
    refine ⟨new ++ more, ?_, ?_⟩
    · rw [← List.append_assoc, ← hsent]
      exact hmore
    · rw [List.map_append]
      exact (Custody.leads_step hstep).trans hrest

theorem begun_run (hevents : ∀ x ∈ events, x.isStart = false) :
    (c.run events).custody.begun = c.custody.begun := by
  induction events generalizing c with
  | nil => rfl
  | cons x rest ih =>
    obtain ⟨hx, hrest⟩ := List.forall_mem_cons.mp hevents
    obtain ⟨new, -, hstep⟩ := c.step_handle x
    rw [hx] at hstep
    exact (ih hrest).trans (Custody.begun_step hstep)

def sentAlong (c : Callers) (events : List Event) : List Owed :=
  (c.run events).sent.drop c.sent.length

theorem session_of_mem (hx : x ∈ c.sentAlong events) :
    x.session ∈ c.custody.pending ∨
      c.custody.begun ≤ x.session ∧ x.session < (c.run events).custody.begun := by
  obtain ⟨new, hsent, hleads⟩ := c.leads_run events
  rw [sentAlong, hsent, List.drop_left] at hx
  exact hleads.reports x.session (List.mem_map_of_mem hx)

theorem sound_ofEngine {e : Engine} (h : Engine.bootstrap parts = .ok e) :
    (ofEngine e).custody.Sound := by
  obtain ⟨files, cache, orchestrator, elements, fetcher, timing, hschedule, hbarrier⟩ :=
    Conversation.bootstrap_outcome h
  have hbarriers : (ofEngine e).custody.barriers = [] := congrArg Schedule.barriers hschedule
  constructor
  case numbered => simp [hbarriers]
  case held => simp [hbarriers]
  case begun => simp [ofEngine, custody, Custody.underway]
  case given => simp [ofEngine, custody]
  case own => simp [ofEngine, custody]

/-- After a start has returned, a list of an earlier session comes from a barrier that was
taken or from a start that had not returned, and after a shutdown every list does, as long
as there is no other start. -/
theorem session_of_sentAlong {e : Engine} (h : Engine.bootstrap parts = .ok e)
    (events more : List Event) :
    let c := (ofEngine e).run events
    (∀ index handover, c.handovers[index]? = some handover →
      let returned := c.handle (.handOver index)
      ∀ x ∈ returned.sentAlong more, x.session < handover.session →
        x.session ∈ returned.custody.takenSessions ∨ x.session ∈ returned.custody.underway) ∧
    ((∀ x ∈ more, x.isStart = false) →
      let stopped := c.handle .shutdown
      ∀ x ∈ stopped.sentAlong more,
        x.session ∈ stopped.custody.takenSessions ∨ x.session ∈ stopped.custody.underway) := by
  intro c
  have hsound : c.custody.Sound := sound_run (sound_ofEngine h) events
  constructor
  · intro index handover hindex returned x hx hearlier
    have hmem : handover ∈ c.custody.handovers := List.mem_of_getElem? hindex
    have hreturned : returned.custody = _ := custody_handOver hindex
    have hbegun : handover.session < returned.custody.begun := by
      rw [hreturned]
      exact hsound.begun _ (List.mem_append_right _ (List.mem_map_of_mem hmem))
    rcases session_of_mem hx with hpending | ⟨hlater, -⟩
    · have hafter : returned.custody.Sound := sound_run hsound [.handOver index]
      refine (hafter.of_pending hpending).resolve_left ?_
      -- the barrier that the engine keeps is the one that was handed over
      rintro ⟨b, hb, hkept, hsession⟩
      rw [hreturned] at hb hkept
      have hold := (Schedule.mem_barriers_cancelBarrier.mp hb).1
      have hown := hsound.own handover hmem b hold hkept
      exact Nat.ne_of_lt hearlier (hsession.symm.trans hown)
    · exact absurd (Nat.lt_of_lt_of_le hbegun hlater) (Nat.lt_asymm hearlier)
  · intro hmore stopped x hx
    rcases session_of_mem hx with hpending | ⟨hlater, hbegun⟩
    · have hafter : stopped.custody.Sound := sound_run hsound [.shutdown]
      refine (hafter.of_pending hpending).resolve_left ?_
      rintro ⟨b, -, hkept, -⟩
      cases hkept
    · rw [begun_run hmore] at hbegun
      exact absurd hlater (Nat.not_le_of_lt hbegun)

/-- A start sets up, up to the moment when it is about to return. -/
def settingUp (feature : String) : List Event :=
  [.start [.enabled feature "1"], .advance 0, .advance 0, .advance 0]

/-- The first barrier is taken, and reports after the second start has returned and after
the engine is shut down. -/
theorem session_of_sentAlong_taken :
    let c := (ofEngine (Conversation.prompted "{}")).run
      (settingUp "old" ++ [.handOver 0, .takeBarrier] ++ settingUp "new")
    let more : List Event := [.turn 1, .turn 1]
    Engine.bootstrap (Conversation.prompt "{}") = .ok (Conversation.prompted "{}") ∧
      c.handovers[0]? = some ⟨1, some 5⟩ ∧
      (c.handle (.handOver 0)).sentAlong more = [⟨0, ["old"]⟩] ∧
      (0 ∈ (c.handle (.handOver 0)).custody.takenSessions ∨
        0 ∈ (c.handle (.handOver 0)).custody.underway) ∧
      (∀ x ∈ more, x.isStart = false) ∧
      (c.handle .shutdown).sentAlong more = [⟨0, ["old"]⟩] ∧
      (0 ∈ (c.handle .shutdown).custody.takenSessions ∨
        0 ∈ (c.handle .shutdown).custody.underway) := by
  intro c more
  have hhandover : c.handovers[0]? = some ⟨1, some 5⟩ := by decide +kernel
  have hreturned : (c.handle (.handOver 0)).sentAlong more = [⟨0, ["old"]⟩] := by
    decide +kernel
  have hstopped : (c.handle .shutdown).sentAlong more = [⟨0, ["old"]⟩] := by decide +kernel
  have hmore : ∀ x ∈ more, x.isStart = false := by simp [more, Event.isStart]
  obtain ⟨hreturns, hstops⟩ := session_of_sentAlong (Conversation.bootstrap_prompt "{}")
    (settingUp "old" ++ [.handOver 0, .takeBarrier] ++ settingUp "new") more
  exact ⟨Conversation.bootstrap_prompt "{}", hhandover, hreturned,
    hreturns 0 _ hhandover ⟨0, ["old"]⟩ (by rw [hreturned]; simp) (by decide), hmore, hstopped,
    hstops hmore ⟨0, ["old"]⟩ (by rw [hstopped]; simp)⟩

/-- Once a start has returned, no list of an earlier session is sent. -/
def SilencesEarlier (c : Callers) : Prop :=
  ∀ index handover more, c.handovers[index]? = some handover →
    ∀ x ∈ (c.handle (.handOver index)).sentAlong more, handover.session ≤ x.session

/-- After a shutdown no list is sent, as long as there is no other start. -/
def SilencesAll (c : Callers) : Prop :=
  ∀ more, (∀ x ∈ more, x.isStart = false) → (c.handle .shutdown).sentAlong more = []

/-- A barrier that was taken reports after a later start has returned, and so does that of
a start which returns later than a newer one. Both report after a shutdown. -/
theorem unsilenced :
    let begun := ofEngine (Conversation.prompted "{}")
    let taken := begun.run (settingUp "old" ++ [.handOver 0, .takeBarrier])
    Engine.bootstrap (Conversation.prompt "{}") = .ok (Conversation.prompted "{}") ∧
      ¬ (taken.run (settingUp "new")).SilencesEarlier ∧
      ¬ (begun.run (settingUp "old" ++ settingUp "new")).SilencesEarlier ∧
      ¬ taken.SilencesAll ∧ ¬ (begun.run (settingUp "old")).SilencesAll := by
  intro begun taken
  refine ⟨Conversation.bootstrap_prompt "{}", fun h => ?taken, fun h => ?overtaken,
    fun h => ?takenStopped, fun h => ?startStopped⟩
  case taken =>
    have hlater := h 0 ⟨1, some 5⟩ [.turn 1, .turn 1] (by decide +kernel) ⟨0, ["old"]⟩
      (by decide +kernel)
    exact absurd hlater (by decide)
  case overtaken =>
    have hlater := h 1 ⟨1, some 5⟩ [.handOver 0, .turn 1, .turn 1] (by decide +kernel)
      ⟨0, ["old"]⟩ (by decide +kernel)
    exact absurd hlater (by decide)
  case takenStopped =>
    have hnone := h [.turn 1, .turn 1] (by simp [Event.isStart])
    revert hnone
    decide +kernel
  case startStopped =>
    have hnone := h [.handOver 0, .turn 1, .turn 1] (by simp [Event.isStart])
    revert hnone
    decide +kernel

end Callers

end FeatureFlow
