import FeatureFlow.Proofs.Engine.Barriers
import FeatureFlow.Proofs.Sync.Activation

/-!
# Conversations with the server

An engine together with the ready lists that the server has not answered yet.
The events are the steps that the engine and its surroundings can take, in any
order: background jobs take their turns and timers run out at any moment, and
the server answers a list with some of its features, once.
-/

namespace FeatureFlow

/-- A ready list that the server has not answered. -/
structure Owed where
  session : Nat
  ready : List String
deriving DecidableEq

structure Conversation where
  engine : Engine
  owed : List Owed
  /-- Whether a push came in since the newest session began. -/
  pushed : Bool

namespace Conversation

inductive Event where
  /-- A start, with the experiments as they are then. -/
  | startSync (toggles : List Toggle)
  /-- A setup whose barrier nobody keeps. -/
  | setup (toggles : List Toggle)
  | takeBarrier
  | shutdown
  | closeLink
  /-- From now on, fetches go another way. -/
  | refetch (fetcher : Fetcher)
  /-- A queued job takes its turn. -/
  | turn (index : Nat)
  /-- A timer runs out. -/
  | wake (index : Nat)
  /-- The clock moves to a moment. -/
  | elapse (moment : Nat)
  /-- The server answers a ready list. -/
  | answer (index : Nat) (features : List String)
  /-- Any message of the server but a push. -/
  | message (message : ServerMessage)

def newlyOwed (work : Work) (before after : Schedule) : List Owed :=
  match work.polled? with
  | none => []
  | some session => (after.sent.drop before.sent.length).filterMap fun m =>
      m.ready?.map fun ready => { session, ready }

def turn (c : Conversation) (index : Nat) : Conversation :=
  let before := c.engine.schedule
  match before.queue[index]? with
  | none => c
  | some job =>
    let after := before.step job (before.queue.eraseIdx index)
    { c with
      engine := { c.engine with schedule := after }
      owed := c.owed ++ newlyOwed job.work before after }

def wake (c : Conversation) (index : Nat) : Conversation :=
  let s := c.engine.schedule
  match s.timers[index]? with
  | none => c
  | some timer =>
    { c with engine := { c.engine with schedule := { s with
        queue := s.queue ++ [timer.job]
        timers := s.timers.eraseIdx index } } }

/-- The server may only name features of the list that it answers. -/
def answer (c : Conversation) (index : Nat) (features : List String) : Conversation :=
  match c.owed[index]? with
  | none => c
  | some o =>
    if features ⊆ o.ready then
      { engine := c.engine.handleIncoming (.activeFeatures features)
        owed := c.owed.eraseIdx index
        pushed := true }
    else c

/-- What an event makes of the conversation. What cannot happen changes nothing. -/
def handle (c : Conversation) : Event → Conversation
  | .startSync toggles =>
    { c with engine := ({ c.engine with experiments := toggles } : Engine).startSync.1
             pushed := false }
  | .setup toggles => { c with engine := (c.engine.setup toggles).1, pushed := false }
  | .takeBarrier => { c with engine := c.engine.takeBarrier.1 }
  | .shutdown => { c with engine := c.engine.shutdown }
  | .closeLink => { c with engine := c.engine.closeLink }
  | .refetch fetcher =>
    { c with engine := { c.engine with schedule := { c.engine.schedule with fetcher } } }
  | .turn index => c.turn index
  | .wake index => c.wake index
  | .elapse moment =>
    { c with engine := { c.engine with schedule := { c.engine.schedule with now := moment } } }
  | .answer index features => c.answer index features
  | .message m =>
    if m.name = ServerMessage.syncFeatures then c
    else { c with engine := c.engine.handleIncoming m }

def start (engine : Engine) : Conversation :=
  { engine, owed := [], pushed := false }

def run (c : Conversation) (events : List Event) : Conversation :=
  events.foldl handle c

def sync (c : Conversation) : Sync :=
  c.engine.schedule.sync

def polled (c : Conversation) : List Nat :=
  c.engine.schedule.polled

-- ---------------------------------------------------------------------------
-- The invariant
-- ---------------------------------------------------------------------------

/-- Every feature of a list that is owed has a manifest in its session. A session
has one barrier before its report and none after it. Until a push comes in, the
newest session is current as long as there is something to wait for. -/
structure Sound (c : Conversation) : Prop where
  current : ∀ n, c.sync.current = some n → n + 1 = c.sync.sessions.length
  backed : ∀ n session, c.sync.session? n = some session → session.Backed
  once : c.polled.Nodup
  polled : ∀ n ∈ c.polled, ∃ session, c.sync.session? n = some session ∧ session.reported = false
  owed : ∀ o ∈ c.owed, ∃ session, c.sync.session? o.session = some session ∧
    session.reported = true ∧
    ∀ feature ∈ o.ready, ∃ held, session.manifest? feature = some held
  pollsCurrent : c.pushed = false → ∀ n ∈ c.polled, n + 1 = c.sync.sessions.length →
    c.sync.current = some n
  owesCurrent : c.pushed = false → ∀ o ∈ c.owed, o.session + 1 = c.sync.sessions.length →
    o.ready ≠ [] → c.sync.current = some o.session

variable {c : Conversation}

theorem Sound.later (h : Sound c) {engine : Engine} (hsync : c.sync.Later engine.schedule.sync)
    (honce : engine.schedule.polled.Nodup) (hpolled : engine.schedule.polled ⊆ c.polled) :
    Sound { c with engine } where
  current n hn := by
    have hlength : engine.schedule.sync.sessions.length = c.sync.sessions.length := hsync.length
    exact (h.current n (hsync.current ▸ hn)).trans hlength.symm
  backed n other hother := by
    obtain ⟨session, hsession, hlater⟩ := hsync.origin hother
    exact hlater.backed (h.backed n session hsession)
  once := honce
  polled n hn := by
    obtain ⟨session, hsession, hreported⟩ := h.polled n (hpolled hn)
    obtain ⟨other, hother, hlater⟩ := hsync.session n session hsession
    exact ⟨other, hother, hlater.reported.trans hreported⟩
  owed o ho := by
    obtain ⟨session, hsession, hreported, hheld⟩ := h.owed o ho
    obtain ⟨other, hother, hlater⟩ := hsync.session o.session session hsession
    refine ⟨other, hother, hlater.reported.trans hreported, fun feature hfeature => ?_⟩
    obtain ⟨held, hheld⟩ := hheld feature hfeature
    exact hlater.held feature held hheld
  pollsCurrent hpushed n hn hnewest :=
    hsync.current.trans (h.pollsCurrent hpushed n (hpolled hn) (hnewest.trans hsync.length))
  owesCurrent hpushed o ho hnewest hready :=
    hsync.current.trans (h.owesCurrent hpushed o ho (hnewest.trans hsync.length) hready)

theorem Sound.report (h : Sound c) {engine : Engine}
    (hpolled : c.polled.Perm (n :: engine.schedule.polled))
    (hsync : engine.schedule.sync = (c.sync.report n).state)
    (hnew : ∀ o ∈ new, ∃ session, c.sync.session? n = some session ∧
      o = { session := n, ready := session.ready.keys }) :
    Sound { c with engine, owed := c.owed ++ new } := by
  have hgone : n ∉ engine.schedule.polled := (List.nodup_cons.mp (hpolled.nodup_iff.mp h.once)).1
  have hpolls : n ∈ c.polled := hpolled.mem_iff.mpr (by simp)
  have hothers : ∀ m ∈ engine.schedule.polled, m ∈ c.polled := fun m hm =>
    hpolled.mem_iff.mpr (List.mem_cons_of_mem n hm)
  obtain ⟨session, hsession, hunreported⟩ := h.polled n hpolls
  have hlength : engine.schedule.sync.sessions.length = c.sync.sessions.length :=
    hsync ▸ Sync.length_report hsession
  have hfound (m : Nat) : engine.schedule.sync.session? m =
      if n = m then (c.sync.session? m).map (·.markReported) else c.sync.session? m :=
    hsync ▸ Sync.session?_report hsession m
  have hstays {m : Nat} (hm : m ≠ n) (hcurrent : c.sync.current = some m) :
      engine.schedule.sync.current = some m :=
    hsync ▸ Sync.current_report_of_ne hsession hcurrent hm
  -- a list was owed before only for a session that had reported
  have hother {o : Owed} (ho : o ∈ c.owed) : o.session ≠ n := by
    rintro rfl
    obtain ⟨found, hm, hreported, -⟩ := h.owed o ho
    obtain rfl := Option.some.inj (hsession.symm.trans hm)
    simp [hreported] at hunreported
  constructor
  case current =>
    intro m hm
    have hm' : (c.sync.report n).state.current = some m := hsync ▸ hm
    exact (h.current m (Sync.current_of_current_report hsession hm')).trans hlength.symm
  case backed =>
    intro m other hm
    change engine.schedule.sync.session? m = some other at hm
    rw [hfound] at hm
    split at hm
    · obtain ⟨found, hbefore, rfl⟩ := Option.map_eq_some_iff.mp hm
      exact Session.backed_markReported (h.backed m found hbefore)
    · exact h.backed m other hm
  case once => exact (List.nodup_cons.mp (hpolled.nodup_iff.mp h.once)).2
  case polled =>
    intro m hm
    obtain ⟨found, hm', hreported⟩ := h.polled m (hothers m hm)
    have hne : n ≠ m := fun heq => hgone (heq ▸ hm)
    exact ⟨found, ((hfound m).trans (if_neg hne)).trans hm', hreported⟩
  case owed =>
    intro o ho
    rcases List.mem_append.mp ho with hold | hlast
    · obtain ⟨found, hm, hreported, hheld⟩ := h.owed o hold
      exact ⟨found, ((hfound _).trans (if_neg (hother hold).symm)).trans hm, hreported, hheld⟩
    · obtain ⟨found, hm, rfl⟩ := hnew o hlast
      obtain rfl := Option.some.inj (hsession.symm.trans hm)
      refine ⟨session.markReported, ?_, rfl, fun feature hfeature => ?_⟩
      · exact (hfound n).trans (by simp [hsession])
      · obtain ⟨version, hversion⟩ := Table.get?_of_mem_keys hfeature
        exact h.backed n session hsession feature version hversion
  case pollsCurrent =>
    intro hpushed m hm hnewest
    refine hstays (fun heq => hgone (heq ▸ hm)) ?_
    exact h.pollsCurrent hpushed m (hothers m hm) (hnewest.trans hlength)
  case owesCurrent =>
    intro hpushed o ho hnewest hready
    have hnewest' : o.session + 1 = c.sync.sessions.length := hnewest.trans hlength
    rcases List.mem_append.mp ho with hold | hlast
    · exact hstays (hother hold) (h.owesCurrent hpushed o hold hnewest' hready)
    · obtain ⟨found, hm, rfl⟩ := hnew o hlast
      obtain rfl := Option.some.inj (hsession.symm.trans hm)
      have hkept := Sync.current_report_of_ready hsession hready
      rw [← hsync] at hkept
      exact hkept.trans (h.pollsCurrent hpushed n hpolls hnewest')

def newBarrier (c : Conversation) (toggles : List Toggle) : List Nat :=
  if (c.sync.setup toggles).2.barrier then [c.sync.sessions.length] else []

theorem Sound.nodup_newBarrier (h : Sound c) (toggles : List Toggle) :
    (c.newBarrier toggles ++ c.polled).Nodup := by
  unfold newBarrier
  split
  · refine List.nodup_cons.mpr ⟨fun hmem => ?_, h.once⟩
    obtain ⟨session, hsession, -⟩ := h.polled _ hmem
    exact absurd (Sync.lt_of_session? hsession) (Nat.lt_irrefl _)
  · exact h.once

theorem Sound.setup (h : Sound c) (toggles : List Toggle) {engine : Engine}
    (hsync : engine.schedule.sync = (c.sync.setup toggles).1)
    (honce : engine.schedule.polled.Nodup)
    (hpolled : engine.schedule.polled ⊆ c.newBarrier toggles ++ c.polled) :
    Sound { engine, owed := c.owed, pushed := false } := by
  have hlater := (c.sync.later_setup toggles).2
  rw [← hsync] at hlater
  have hlength : engine.schedule.sync.sessions.length = c.sync.sessions.length + 1 := by
    simp [hlater.length, Sync.withSession]
  have hold (n : Nat) {session : Session} (hsession : c.sync.session? n = some session) :
      ∃ other, engine.schedule.sync.session? n = some other ∧ session.Later other := by
    refine hlater.session n session ?_
    rw [Sync.session?_withSession, if_neg (Nat.ne_of_lt (Sync.lt_of_session? hsession)), hsession]
  constructor
  case current =>
    intro n hn
    change engine.schedule.sync.current = some n at hn
    rw [hlater.current] at hn
    simp only [Sync.withSession] at hn
    split at hn
    · exact Option.some.inj hn ▸ hlength.symm
    · cases hn
  case backed =>
    intro n other hother
    obtain ⟨session, hsession, hsame⟩ := hlater.origin hother
    rw [Sync.session?_withSession] at hsession
    split at hsession
    · exact hsame.backed (Option.some.inj hsession ▸ Session.backed_ofExpected _)
    · exact hsame.backed (h.backed n session hsession)
  case once => exact honce
  case polled =>
    intro n hn
    rcases List.mem_append.mp (hpolled hn) with hnew | hmem
    · unfold newBarrier at hnew
      split at hnew
      · obtain rfl := List.mem_singleton.mp hnew
        obtain ⟨other, hother, hsame⟩ := hlater.session _ _
          ((Sync.session?_withSession ..).trans (if_pos rfl))
        exact ⟨other, hother, hsame.reported⟩
      · cases hnew
    · obtain ⟨session, hsession, hreported⟩ := h.polled n hmem
      obtain ⟨other, hother, hsame⟩ := hold n hsession
      exact ⟨other, hother, hsame.reported.trans hreported⟩
  case owed =>
    intro o ho
    obtain ⟨session, hsession, hreported, hheld⟩ := h.owed o ho
    obtain ⟨other, hother, hsame⟩ := hold o.session hsession
    refine ⟨other, hother, hsame.reported.trans hreported, fun feature hfeature => ?_⟩
    obtain ⟨held, hheld⟩ := hheld feature hfeature
    exact hsame.held feature held hheld
  case pollsCurrent =>
    intro _ n hn hnewest
    obtain rfl : n = c.sync.sessions.length := Nat.succ.inj (hnewest.trans hlength)
    rcases List.mem_append.mp (hpolled hn) with hnew | hmem
    · unfold newBarrier at hnew
      split at hnew
      · rename_i hbarrier
        exact hlater.current.trans (if_pos hbarrier)
      · cases hnew
    · obtain ⟨session, hsession, -⟩ := h.polled _ hmem
      exact absurd (Sync.lt_of_session? hsession) (Nat.lt_irrefl _)
  case owesCurrent =>
    intro _ o ho hnewest _
    obtain ⟨session, hsession, -⟩ := h.owed o ho
    have hlt := Sync.lt_of_session? hsession
    have hlast : o.session = c.sync.sessions.length := Nat.succ.inj (hnewest.trans hlength)
    exact absurd hlt (hlast ▸ Nat.lt_irrefl _)

theorem newlyOwed_of_report {work : Work} {before after : Schedule}
    (hn : work.polled? = some n) (hsession : before.sync.session? n = some session)
    (hsent : after.sent = before.sent ++ (before.sync.report n).sent) :
    ∀ o ∈ newlyOwed work before after, o = { session := n, ready := session.ready.keys } := by
  intro o ho
  simp only [newlyOwed, hn, hsent, List.drop_left, (Sync.report_outcome hsession).2.2] at ho
  cases hlink : before.sync.orchestrator.link with
  | connected => simpa [hlink, Link.send, ServerMessage.ready?_readyList] using ho
  | absent => simp [hlink, Link.send, Performance.fail] at ho
  | closed => simp [hlink, Link.send, Performance.fail] at ho

theorem Sound.turn (h : Sound c) (index : Nat) : Sound (c.turn index) := by
  unfold Conversation.turn
  dsimp only
  split
  · exact h
  · rename_i job hjob
    let left : Schedule :=
      { c.engine.schedule with queue := c.engine.schedule.queue.eraseIdx index }
    have hpolled : c.polled.Perm (job.work.polled?.toList ++ left.polled) :=
      Schedule.polled_cons (Schedule.jobs_take hjob)
    rcases c.engine.schedule.step_outcome job left.queue with
      ⟨hlater, hsent, hstep⟩ | ⟨n, hn, hsync, hsent, hstep⟩
    · have hnone : newlyOwed job.work c.engine.schedule
          (c.engine.schedule.step job left.queue) = [] := by
        unfold newlyOwed
        split
        · rfl
        · simp [hsent]
      rw [hnone, List.append_nil]
      have hsame := hstep.trans hpolled.symm
      exact h.later hlater (hsame.nodup_iff.mpr h.once) hsame.subset
    · rw [hn] at hpolled
      replace hpolled := hpolled.trans (hstep.symm.cons n)
      obtain ⟨session, hsession, -⟩ := h.polled n (hpolled.mem_iff.mpr (by simp))
      refine h.report hpolled hsync fun o ho => ⟨session, hsession, ?_⟩
      exact newlyOwed_of_report hn hsession hsent o ho

theorem Sound.wake (h : Sound c) (index : Nat) : Sound (c.wake index) := by
  unfold Conversation.wake
  dsimp only
  split
  · exact h
  · rename_i timer htimer
    have hsame := (Schedule.jobs_wake htimer).filterMap (·.work.polled?)
    exact h.later (.refl _) (hsame.nodup_iff.mpr h.once) hsame.subset

theorem Sound.answer (h : Sound c) (index : Nat) (features : List String) :
    Sound (c.answer index features) := by
  unfold Conversation.answer
  split
  · exact h
  · split
    · have hsync : (c.engine.handleIncoming (.activeFeatures features)).schedule.sync =
          (c.sync.push features).1 :=
        congrArg Outcome.state (c.sync.onMessage_activeFeatures features)
      have hsession (n : Nat) : (c.engine.handleIncoming
          (.activeFeatures features)).schedule.sync.session? n = c.sync.session? n := by
        rw [hsync, Sync.session?, Sync.sessions_push]
        rfl
      constructor
      case current =>
        intro n hn
        have hnone := c.sync.current_push features
        rw [← hsync] at hnone
        cases hnone.symm.trans hn
      case backed => exact fun n session hn => h.backed n session ((hsession n).symm.trans hn)
      case once => exact h.once
      case polled =>
        intro n hn
        obtain ⟨session, hn, hreported⟩ := h.polled n hn
        exact ⟨session, (hsession n).trans hn, hreported⟩
      case owed =>
        intro o ho
        obtain ⟨session, hn, hheld⟩ := h.owed o (List.mem_of_mem_eraseIdx ho)
        exact ⟨session, (hsession o.session).trans hn, hheld⟩
      case pollsCurrent =>
        intro hpushed
        cases hpushed
      case owesCurrent =>
        intro hpushed
        cases hpushed
    · exact h

theorem Sound.handle (h : Sound c) (event : Event) : Sound (c.handle event) := by
  cases event with
  | startSync toggles =>
    obtain ⟨hsync, hpolled⟩ := c.engine.schedule.setup_outcome toggles
    obtain ⟨hkept, hfewer⟩ := Schedule.cancelBarrier_outcome
      (c.engine.schedule.setup toggles).1 c.engine.barrier
    have honce := hpolled.nodup_iff.mpr (h.nodup_newBarrier toggles)
    exact h.setup toggles (hkept.trans hsync) (honce.sublist hfewer)
      (List.Subset.trans hfewer.subset hpolled.subset)
  | setup toggles =>
    obtain ⟨hsync, hpolled⟩ := c.engine.schedule.setup_outcome toggles
    exact h.setup toggles hsync (hpolled.nodup_iff.mpr (h.nodup_newBarrier toggles)) hpolled.subset
  | takeBarrier => exact h.later (.refl _) h.once (List.Subset.refl _)
  | shutdown =>
    obtain ⟨hkept, hfewer⟩ := Schedule.cancelBarrier_outcome c.engine.schedule c.engine.barrier
    exact h.later (Sync.later_of_eq (congrArg Sync.current hkept) (congrArg Sync.sessions hkept))
      (h.once.sublist hfewer) hfewer.subset
  | closeLink => exact h.later (Sync.later_of_eq rfl rfl) h.once (List.Subset.refl _)
  | refetch fetcher => exact h.later (.refl _) h.once (List.Subset.refl _)
  | turn index => exact h.turn index
  | wake index => exact h.wake index
  | elapse moment => exact h.later (.refl _) h.once (List.Subset.refl _)
  | answer index features => exact h.answer index features
  | message m =>
    simp only [Conversation.handle]
    split
    · exact h
    · rename_i hm
      exact h.later (Sync.later_onMessage _ hm) h.once (List.Subset.refl _)

theorem Sound.run (h : Sound c) (events : List Event) : Sound (c.run events) := by
  induction events generalizing c with
  | nil => exact h
  | cons event rest ih => exact ih (h.handle event)

theorem bootstrap_of_fetcher {parts : EngineParts} {e : Engine}
    (hfetcher : parts.fetcher = some fetcher) (h : Engine.bootstrap parts = .ok e) :
    ∃ files cache orchestrator elements timing,
      e.schedule = .ofSync (.start files cache orchestrator elements) fetcher timing ∧
        e.barrier = none := by
  simp only [Engine.bootstrap, hfetcher, pure_bind] at h
  generalize parts.files.makeDirectories parts.settings.cacheDirectory = made at h
  obtain ⟨_ | _, files⟩ := made
  · cases h
  · cases h
    exact ⟨_, _, _, _, _, rfl, rfl⟩

theorem bootstrap_outcome {e : Engine} (h : Engine.bootstrap parts = .ok e) :
    ∃ files cache orchestrator elements fetcher timing,
      e.schedule = .ofSync (.start files cache orchestrator elements) fetcher timing ∧
        e.barrier = none := by
  cases hfetcher : parts.fetcher with
  | some fetcher =>
    obtain ⟨files, cache, orchestrator, elements, timing, hstart⟩ :=
      bootstrap_of_fetcher hfetcher h
    exact ⟨files, cache, orchestrator, elements, fetcher, timing, hstart⟩
  | none =>
    cases hhost : Engine.hostFetcher parts.settings with
    | error reason =>
      simp only [Engine.bootstrap, hfetcher, hhost] at h
      cases h
    | ok fetcher =>
      -- an engine without a fetcher is one with the fetcher of its host
      have hparts : Engine.bootstrap { parts with fetcher := some fetcher } = .ok e := by
        rw [← h]
        simp only [Engine.bootstrap, hfetcher, hhost]
        rfl
      obtain ⟨files, cache, orchestrator, elements, timing, hstart⟩ :=
        bootstrap_of_fetcher rfl hparts
      exact ⟨files, cache, orchestrator, elements, fetcher, timing, hstart⟩

theorem sound_start {e : Engine} (h : Engine.bootstrap parts = .ok e) : Sound (start e) := by
  obtain ⟨files, cache, orchestrator, elements, fetcher, timing, hschedule, -⟩ :=
    bootstrap_outcome h
  have hsync : (start e).sync = .start files cache orchestrator elements :=
    congrArg Schedule.sync hschedule
  have hpolled : (start e).polled = [] := congrArg Schedule.polled hschedule
  constructor
  case current => simp [hsync, Sync.start]
  case backed => simp [hsync, Sync.start, Sync.session?]
  case once => simp [hpolled]
  case polled => simp [hpolled]
  case owed => simp [start]
  case pollsCurrent => simp [hpolled]
  case owesCurrent => simp [start]

end Conversation

end FeatureFlow
