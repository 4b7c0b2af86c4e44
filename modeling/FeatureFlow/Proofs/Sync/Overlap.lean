import FeatureFlow.Proofs.Sync.Setups

/-!
# Setups that overlap

Several setups can be under way at once, and the fetches and barriers of sessions that
were replaced go on. A barrier takes the ready list of its session, reports it, takes the
session out of its place and writes the phase, and a push of the server ends a session in the
same way, each step with anything else in between.

A session that is no longer current never becomes current again, and nothing of it comes
through to the session that is, with one exception (`current_of_late`). A session that has
just ended is no longer current when the phase is written, so that the phase of a newer one
may be written over (`disturbed_of_leave`). That happens once for a session at most, and never
for one that was replaced.
-/

namespace FeatureFlow

namespace Sync

structure Overlap where
  sync : Sync
  setups : List Setup
  /-- The fetches that have not come to their ends, each with its session. -/
  fetching : List (Nat × Wanted)
  /-- The clean-ups of the cache that have not begun. -/
  cleaning : List Wanted
  /-- The sessions whose barriers have not taken their ready lists. -/
  barriers : List Nat
  /-- The sessions whose ready lists are taken, with whether they are empty. -/
  reporting : List (Nat × Bool)
  /-- The sessions that are about to be ended, where they are still current. -/
  ending : List Nat
  /-- The phases that are to be written, each for the session that has ended or for a push
  that has found none. -/
  leaving : List (Option Nat)

namespace Overlap

inductive Event where
  | setup (toggles : List Toggle)
  /-- A setup makes its next step. -/
  | advance (index : Nat)
  | fetched (session : Nat) (wanted : Wanted) (result : Except FetchError String)
  | cleanUp (wanted : Wanted)
  /-- A barrier takes the ready list of its session. -/
  | look (session : Nat)
  /-- The session is marked as reported and its list is sent. -/
  | report (session : Nat) (empty : Bool)
  /-- A session is taken out of its place, unless a newer one is there. -/
  | finish (session : Nat)
  /-- The phase is written after the end of a session. -/
  | leave (session : Option Nat)
  /-- Any message of the server. -/
  | message (m : ServerMessage)

def Event.background? : Event → Option Nat
  | fetched session _ _ | look session | report session _ | finish session => some session
  | leave session => session
  | setup _ | advance _ | cleanUp _ | message _ => none

def take (o : Overlap) : Yield → Overlap
  | .fetch session wanted =>
    { o with
      fetching := o.fetching ++ [(session, wanted)]
      cleaning := o.cleaning ++ [wanted] }
  | .returns session barrier =>
    { o with barriers := o.barriers ++ if barrier then [session] else [] }

def host : Host Overlap where
  setups o := { sync := o.sync, running := o.setups }
  put o s := { o with sync := s.sync, setups := s.running }
  take := take
  put_setups _ := rfl
  setups_put _ _ := rfl
  put_put _ _ _ := rfl
  take_put _ _ y := by cases y <;> rfl

def look (o : Overlap) (session : Nat) : Overlap :=
  match o.sync.session? session with
  | some found =>
    if session ∈ o.barriers then
      { o with
        barriers := o.barriers.erase session
        reporting := o.reporting ++ [(session, found.ready.entries.isEmpty)] }
    else o
  | none => o

def report (o : Overlap) (session : Nat) (empty : Bool) : Overlap :=
  if (session, empty) ∈ o.reporting then
    { o with
      sync := o.sync.updateSession session (·.markReported)
      reporting := o.reporting.erase (session, empty)
      ending := if empty then o.ending ++ [session] else o.ending }
  else o

def finish (o : Overlap) (session : Nat) : Overlap :=
  if session ∈ o.ending then
    let ending := o.ending.erase session
    if o.sync.current = some session then
      { o with
        sync := { o.sync with current := none }, ending, leaving := o.leaving ++ [some session] }
    else { o with ending }
  else o

def leave (o : Overlap) (session : Option Nat) : Overlap :=
  if session ∈ o.leaving then
    { o with sync := { o.sync with phase := .synced }, leaving := o.leaving.erase session }
  else o

/-- A push ends the session that it has found. -/
def push (o : Overlap) (features : List String) : Overlap :=
  let (orchestrator, activated) :=
    activateAll o.sync.currentSession? o.sync.orchestrator features
  let sync := { o.sync with orchestrator, elements := o.sync.elements.wake activated }
  match o.sync.current with
  | some session => { o with sync, ending := o.ending ++ [session] }
  | none => { o with sync, leaving := o.leaving ++ [none] }

def message (o : Overlap) (m : ServerMessage) : Overlap :=
  if m.name = ServerMessage.syncFeatures then
    match m.parse ActiveFeaturesPush.decode with
    | .ok p => o.push p.features
    | .error _ => o
  else { o with sync := (o.sync.onMessage m).state }

/-- What an event makes of the synchronisation. What cannot happen changes nothing. -/
def handle (o : Overlap) : Event → Overlap
  | .setup toggles => host.begin o toggles
  | .advance index => host.step o index
  | .fetched session wanted result =>
    if (session, wanted) ∈ o.fetching then
      { o with
        sync := o.sync.fetched session wanted result
        fetching := o.fetching.erase (session, wanted) }
    else o
  | .cleanUp wanted =>
    if wanted ∈ o.cleaning then
      { o with sync := o.sync.cleanUp wanted, cleaning := o.cleaning.erase wanted }
    else o
  | .look session => o.look session
  | .report session empty => o.report session empty
  | .finish session => o.finish session
  | .leave session => o.leave session
  | .message m => o.message m

def start (sync : Sync) : Overlap :=
  { sync, setups := [], fetching := [], cleaning := [], barriers := [], reporting := []
    ending := [], leaving := [] }

def run (o : Overlap) (events : List Event) : Overlap :=
  events.foldl handle o

variable {o : Overlap} {n : Nat}

-- ---------------------------------------------------------------------------
-- Without interruption
-- ---------------------------------------------------------------------------

theorem foldl_fetch (o : Overlap) (session : Nat) (wanted : List Wanted) :
    (wanted.map (.fetch session)).foldl take o =
      { o with
        fetching := o.fetching ++ wanted.map (session, ·)
        cleaning := o.cleaning ++ wanted } := by
  induction wanted generalizing o with
  | nil => simp
  | cons w rest ih => simp [ih, take]

/-- A setup that nothing interrupts. -/
theorem run_setup (o : Overlap) (toggles : List Toggle) :
    let (sync, started) := o.sync.setup toggles
    o.run (.setup toggles ::
        (List.replicate (Setups.length toggles) o.setups.length).map .advance) =
      { o with
        sync
        fetching := o.fetching ++ started.wanted.map (started.session, ·)
        cleaning := o.cleaning ++ started.wanted
        barriers := o.barriers ++ if started.barrier then [started.session] else [] } := by
  dsimp only
  rw [run, List.foldl_cons, List.foldl_map]
  refine (host.run_whole o toggles).trans ?_
  show ((o.sync.setup toggles).2.yields).foldl take _ = _
  rw [Started.yields, List.foldl_append, foldl_fetch]
  rfl

theorem run_report (hsession : o.sync.session? n = some session) (hbarrier : n ∈ o.barriers)
    (hreporting : o.reporting = []) (hending : n ∉ o.ending) (hleaving : some n ∉ o.leaving) :
    o.run [.look n, .report n session.ready.entries.isEmpty, .finish n, .leave (some n)] =
      { o with sync := (o.sync.report n).state, barriers := o.barriers.erase n } := by
  simp only [run, List.foldl_cons, List.foldl_nil, handle, look, hsession, if_pos hbarrier,
    report, hreporting, Sync.report, Outcome.quiet]
  cases session.ready.entries.isEmpty with
  | true =>
    by_cases hcurrent : o.sync.current = some n <;>
      simp [finish, leave, Sync.finish, updateSession, hcurrent, hleaving,
        List.erase_append_right _ hending, List.erase_append_right _ hleaving]
  | false => simp [finish, leave, hending, hleaving]

theorem run_push (hm : m.name = ServerMessage.syncFeatures)
    (hparse : m.parse ActiveFeaturesPush.decode = .ok p) (hending : o.ending = [])
    (hleaving : o.leaving = []) :
    o.run (.message m :: match o.sync.current with
        | some n => [.finish n, .leave (some n)]
        | none => [.leave none]) =
      { o with sync := (o.sync.onMessage m).state } := by
  simp only [run, List.foldl_cons, handle, message, if_pos hm, hparse, push, onMessage,
    onSyncMessage, Sync.push, Outcome.quiet]
  cases hcurrent : o.sync.current with
  | none => simp [handle, leave, hleaving]
  | some n => simp [handle, finish, leave, Sync.finish, hending, hleaving]

end Overlap

-- ---------------------------------------------------------------------------
-- Which session is current
-- ---------------------------------------------------------------------------

variable {s t : Sync} {n : Nat}

/-- A session that was begun and is no longer current. -/
def Past (s : Sync) (n : Nat) : Prop :=
  n < s.sessions.length ∧ s.current ≠ some n

/-- From one moment to the next the current session stays, ends, or gives way to a session
that was not there before. -/
structure Follows (s t : Sync) : Prop where
  current : t.current = s.current ∨ t.current = none ∨
    t.current = some s.sessions.length ∧ s.sessions.length < t.sessions.length
  begun : s.sessions.length ≤ t.sessions.length

/-- The current session is the one that it was and as it was, and so is the phase. -/
structure Undisturbed (s t : Sync) : Prop where
  current : t.current = s.current
  session : t.currentSession? = s.currentSession?
  phase : t.phase = s.phase

theorem Undisturbed.refl (s : Sync) : Undisturbed s s :=
  ⟨rfl, rfl, rfl⟩

theorem Follows.current_of_ne (h : Follows s t) (hn : n ≠ s.sessions.length)
    (hcurrent : t.current = some n) : s.current = some n := by
  rcases h.current with hsame | hnone | ⟨hnew, -⟩
  · exact hsame.symm.trans hcurrent
  · cases hnone.symm.trans hcurrent
  · exact absurd (Option.some.inj (hcurrent.symm.trans hnew)) hn

theorem Follows.past (h : Follows s t) (hpast : s.Past n) : t.Past n :=
  ⟨Nat.lt_of_lt_of_le hpast.1 h.begun,
    fun hn => hpast.2 (h.current_of_ne (Nat.ne_of_lt hpast.1) hn)⟩

theorem follows_of_standing (h : t.standing = s.standing) : Follows s t :=
  ⟨.inl (congrArg Standing.current h), Nat.le_of_eq (congrArg Standing.begun h).symm⟩

theorem follows_step (s : Setups) (index : Nat) : Follows s.sync (s.step index).1.sync := by
  obtain ⟨hcurrent, hlength, -⟩ := s.step_outcome index
  exact ⟨hcurrent.imp_right .inl, Nat.le_of_eq hlength.symm⟩

theorem undisturbed_of_ne (h : t.standing = s.standing) (hn : s.current ≠ some n)
    (hothers : ∀ m, n ≠ m → t.session? m = s.session? m) : Undisturbed s t := by
  have hcurrent : t.current = s.current := congrArg Standing.current h
  refine ⟨hcurrent, ?_, congrArg Standing.phase h⟩
  unfold currentSession?
  rw [hcurrent]
  cases hm : s.current with
  | none => rfl
  | some m => exact hothers m fun heq => hn (heq ▸ hm)

namespace Overlap

variable {o p : Overlap} {x : Event}

theorem setups_advance (o : Overlap) (index : Nat) :
    host.setups (o.handle (.advance index)) = ((host.setups o).step index).1 :=
  host.setups_step o index

theorem leaving_advance (o : Overlap) (index : Nat) :
    (o.handle (.advance index)).leaving = o.leaving := by
  have hkept (yields : List Yield) (p : Overlap) : (yields.foldl take p).leaving = p.leaving := by
    induction yields generalizing p with
    | nil => rfl
    | cons y rest ih =>
      refine (ih (p.take y)).trans ?_
      cases y <;> rfl
  exact hkept ((host.setups o).step index).2 _

theorem follows_finish (o : Overlap) (session : Nat) : Follows o.sync (o.finish session).sync := by
  unfold finish
  split
  · split
    · exact ⟨.inr (.inl rfl), Nat.le_refl _⟩
    · exact follows_of_standing rfl
  · exact follows_of_standing rfl

theorem follows_message (o : Overlap) (m : ServerMessage) : Follows o.sync (o.message m).sync := by
  unfold message
  split
  · split
    · unfold push
      dsimp only
      split <;> exact ⟨.inl rfl, Nat.le_refl _⟩
    · exact follows_of_standing rfl
  · rename_i hm
    have hlater := o.sync.later_onMessage hm
    exact ⟨.inl hlater.current, Nat.le_of_eq hlater.length.symm⟩

theorem look_outcome (o : Overlap) (session : Nat) :
    (o.look session).sync = o.sync ∧ (o.look session).leaving = o.leaving := by
  unfold look
  split
  · split <;> exact ⟨rfl, rfl⟩
  · exact ⟨rfl, rfl⟩

theorem standing_report (o : Overlap) (session : Nat) (empty : Bool) :
    (o.report session empty).sync.standing = o.sync.standing := by
  unfold report
  split
  · exact standing_updateSession ..
  · rfl

theorem handle_leave (o : Overlap) (session : Option Nat) :
    (o.handle (.leave session)).sync =
      if session ∈ o.leaving then { o.sync with phase := .synced } else o.sync := by
  simp only [handle, leave]
  split <;> rfl

theorem follows_handle (o : Overlap) (x : Event) : Follows o.sync (o.handle x).sync := by
  cases x with
  | setup toggles =>
    have hlength : (o.handle (.setup toggles)).sync.sessions.length =
        o.sync.sessions.length + 1 := by
      simp [handle, host, Host.begin, Setups.begin, withSession]
    exact ⟨.inr (.inr ⟨rfl, by omega⟩), by omega⟩
  | advance index =>
    have hsync : (o.handle (.advance index)).sync = ((host.setups o).step index).1.sync :=
      congrArg Setups.sync (o.setups_advance index)
    rw [hsync]
    exact follows_step (host.setups o) index
  | fetched session wanted result =>
    simp only [handle]
    split
    · exact follows_of_standing (standing_fetched ..)
    · exact follows_of_standing rfl
  | cleanUp wanted =>
    simp only [handle]
    split <;> exact follows_of_standing rfl
  | look session => exact follows_of_standing (congrArg standing (o.look_outcome session).1)
  | report session empty => exact follows_of_standing (o.standing_report session empty)
  | finish session => exact o.follows_finish session
  | leave session =>
    rw [handle_leave]
    split
    · exact ⟨.inl rfl, Nat.le_refl _⟩
    · exact follows_of_standing rfl
  | message m => exact o.follows_message m

theorem past_run (h : o.sync.Past n) (events : List Event) : (o.run events).sync.Past n := by
  induction events generalizing o with
  | nil => exact h
  | cons x rest ih => exact ih ((follows_handle o x).past h)

-- ---------------------------------------------------------------------------
-- Phases that are still to be written
-- ---------------------------------------------------------------------------

/-- How often the phase is still to be written at the end of a session. -/
def ends (o : Overlap) (n : Nat) : Nat :=
  o.leaving.count (some n) + if o.sync.current = some n then 1 else 0

theorem ends_of_past (h : o.sync.Past n) : o.ends n = o.leaving.count (some n) := by
  rw [ends, if_neg h.2, Nat.add_zero]

/-- The phase of a session becomes due only when the session was current and has ended. -/
theorem due_handle (o : Overlap) (x : Event) (n : Nat) :
    (o.handle x).leaving.count (some n) ≤ o.leaving.count (some n) ∨
      o.sync.current = some n ∧ (o.handle x).sync.current = none ∧
        (o.handle x).leaving.count (some n) = o.leaving.count (some n) + 1 := by
  cases x with
  | setup toggles => exact .inl (Nat.le_refl _)
  | advance index => exact .inl (Nat.le_of_eq (congrArg _ (o.leaving_advance index)))
  | fetched session wanted result =>
    refine .inl ?_
    simp only [handle]
    split <;> exact Nat.le_refl _
  | cleanUp wanted =>
    refine .inl ?_
    simp only [handle]
    split <;> exact Nat.le_refl _
  | look session => exact .inl (Nat.le_of_eq (congrArg _ (o.look_outcome session).2))
  | report session empty =>
    refine .inl ?_
    simp only [handle, report]
    split <;> exact Nat.le_refl _
  | finish session =>
    simp only [handle, finish]
    split
    · split
      · rename_i hcurrent
        by_cases hsession : session = n
        · subst hsession
          exact .inr ⟨hcurrent, rfl, by simp [List.count_append]⟩
        · exact .inl (by simp [List.count_append, hsession])
      · exact .inl (Nat.le_refl _)
    · exact .inl (Nat.le_refl _)
  | leave session =>
    refine .inl ?_
    simp only [handle, leave]
    split
    · exact List.erase_sublist.count_le _
    · exact Nat.le_refl _
  | message m =>
    refine .inl ?_
    simp only [handle, message, push]
    split
    · split
      · split <;> simp [List.count_append]
      · exact Nat.le_refl _
    · exact Nat.le_refl _

theorem count_leaving_handle (o : Overlap) (x : Event) (n : Nat) :
    (o.handle x).leaving.count (some n) ≤ o.ends n := by
  rcases o.due_handle x n with hcount | ⟨hcurrent, -, hcount⟩
  · exact Nat.le_trans hcount (Nat.le_add_right ..)
  · rw [ends, if_pos hcurrent]
    exact Nat.le_of_eq hcount

theorem ends_handle (o : Overlap) (x : Event) (hn : n ≠ o.sync.sessions.length) :
    (o.handle x).ends n ≤ o.ends n := by
  by_cases hafter : (o.handle x).sync.current = some n
  · have hbefore := (follows_handle o x).current_of_ne hn hafter
    rcases o.due_handle x n with hcount | ⟨-, hnone, -⟩
    · simp only [ends, if_pos hafter, if_pos hbefore]
      exact Nat.add_le_add_right hcount 1
    · cases hnone.symm.trans hafter
  · rw [ends, if_neg hafter, Nat.add_zero]
    exact o.count_leaving_handle x n

theorem ends_run (hn : n < o.sync.sessions.length) (events : List Event) :
    (o.run events).ends n ≤ o.ends n := by
  induction events generalizing o with
  | nil => exact Nat.le_refl _
  | cons x rest ih =>
    have hbegun := Nat.lt_of_lt_of_le hn (follows_handle o x).begun
    exact Nat.le_trans (ih hbegun) (o.ends_handle x (Nat.ne_of_lt hn))

/-- Only sessions that were begun have ends, and no session has two. -/
structure Sound (o : Overlap) : Prop where
  begun : ∀ n, 0 < o.ends n → n < o.sync.sessions.length
  once : ∀ n, o.ends n ≤ 1

theorem sound_start (files : Files) (cache : Cache) (orchestrator : Orchestrator)
    (elements : Elements) : Sound (start (.start files cache orchestrator elements)) where
  begun _ h := absurd h (Nat.lt_irrefl 0)
  once _ := Nat.zero_le 1

theorem Sound.ends_next (h : o.Sound) : o.ends o.sync.sessions.length = 0 :=
  Nat.eq_zero_of_not_pos fun hends => Nat.lt_irrefl _ (h.begun _ hends)

theorem Sound.handle (h : o.Sound) (x : Event) : (o.handle x).Sound := by
  have hfollows := follows_handle o x
  have hnext : (o.handle x).leaving.count (some o.sync.sessions.length) = 0 :=
    Nat.eq_zero_of_le_zero (h.ends_next ▸ o.count_leaving_handle x o.sync.sessions.length)
  constructor
  case begun =>
    intro n hends
    by_cases hn : n = o.sync.sessions.length
    · -- nothing is due for a session that was not there, so it is the current one now
      subst hn
      have hcurrent : (o.handle x).sync.current = some o.sync.sessions.length := by
        by_contra hother
        rw [ends, hnext, if_neg hother] at hends
        exact Nat.lt_irrefl 0 hends
      rcases hfollows.current with hsame | hnone | ⟨-, hlt⟩
      · have hends := h.ends_next
        rw [ends, if_pos (hsame.symm.trans hcurrent)] at hends
        omega
      · cases hnone.symm.trans hcurrent
      · exact hlt
    · exact Nat.lt_of_lt_of_le (h.begun n (Nat.lt_of_lt_of_le hends (o.ends_handle x hn)))
        hfollows.begun
  case once =>
    intro n
    by_cases hn : n = o.sync.sessions.length
    · rw [hn, ends, hnext, Nat.zero_add]
      split <;> omega
    · exact Nat.le_trans (o.ends_handle x hn) (h.once n)

theorem Sound.run (h : o.Sound) (events : List Event) : (o.run events).Sound := by
  induction events generalizing o with
  | nil => exact h
  | cons x rest ih => exact ih (h.handle x)

theorem sound_run (files : Files) (cache : Cache) (orchestrator : Orchestrator)
    (elements : Elements) (events : List Event) :
    ((start (.start files cache orchestrator elements)).run events).Sound :=
  (sound_start files cache orchestrator elements).run events

theorem Sound.count_leaving (h : o.Sound) (hcurrent : o.sync.current = some n) :
    o.leaving.count (some n) = 0 := by
  have honce := h.once n
  rw [ends, if_pos hcurrent] at honce
  omega

-- ---------------------------------------------------------------------------
-- Sessions that are no longer current
-- ---------------------------------------------------------------------------

/-- The ends of a fetch and the steps of a barrier up to the phase. -/
theorem undisturbed_handle (hn : o.sync.current ≠ some n) (hx : x.background? = some n)
    (hleave : x ≠ .leave (some n)) : Undisturbed o.sync (o.handle x).sync := by
  cases x with
  | setup | advance | cleanUp | message => cases hx
  | fetched session wanted result =>
    obtain rfl : session = n := Option.some.inj hx
    simp only [handle]
    split
    · exact undisturbed_of_ne (standing_fetched ..) hn fun m hm =>
        session?_fetched_of_ne hm wanted result
    · exact .refl _
  | look session =>
    rw [handle, (o.look_outcome session).1]
    exact .refl _
  | report session empty =>
    obtain rfl : session = n := Option.some.inj hx
    simp only [handle, report]
    split
    · exact undisturbed_of_ne (standing_updateSession ..) hn fun m hm =>
        (session?_updateSession ..).trans (if_neg hm)
    · exact .refl _
  | finish session =>
    obtain rfl : session = n := Option.some.inj hx
    simp only [handle, finish, if_neg hn]
    split <;> exact .refl _
  | leave session => exact absurd (congrArg Event.leave hx) hleave

theorem run_append (o : Overlap) (events more : List Event) :
    o.run (events ++ more) = (o.run events).run more :=
  List.foldl_append

theorem count_leaving_run (h : o.sync.Past n) (events : List Event) :
    (o.run events).leaving.count (some n) ≤ o.leaving.count (some n) := by
  have hends := ends_run h.1 events
  rwa [ends_of_past h, ends_of_past (past_run h events)] at hends

theorem Sound.past_replaced (h : o.Sound) (hcurrent : o.sync.current = some n)
    (toggles : List Toggle) : (o.handle (.setup toggles)).sync.Past n := by
  have hbegun : n < o.sync.sessions.length :=
    h.begun n (by rw [ends, if_pos hcurrent]; exact Nat.succ_pos _)
  refine ⟨Nat.lt_of_lt_of_le hbegun (follows_handle o _).begun, fun hn => ?_⟩
  have hnew : (o.handle (.setup toggles)).sync.current = some o.sync.sessions.length := rfl
  exact Nat.ne_of_lt hbegun (Option.some.inj (hn.symm.trans hnew))

/-- For a session that was replaced while it was current, no phase is ever due. -/
theorem Sound.not_mem_leaving (h : o.Sound) (hcurrent : o.sync.current = some n)
    (toggles : List Toggle) (events : List Event) :
    some n ∉ ((o.handle (.setup toggles)).run events).leaving := by
  have hcount := count_leaving_run (h.past_replaced hcurrent toggles) events
  have hnone : (o.handle (.setup toggles)).leaving.count (some n) = 0 := h.count_leaving hcurrent
  rw [hnone] at hcount
  exact List.count_eq_zero.mp (Nat.eq_zero_of_le_zero hcount)

/-- Once a session is no longer current, it never is again, in whatever order setups, fetches,
barriers and messages go on. The ends of its fetches and the steps of its barrier leave the
current session and the phase as they are, but for the phase that is written when the session
has ended. That write changes nothing else, it comes once at most, and it comes only if it was
due already when the session was no longer current. When a newer session has replaced it, it
never comes, so that nothing of the session is seen any more. -/
theorem current_of_late (files : Files) (cache : Cache) (orchestrator : Orchestrator)
    (elements : Elements) (earlier later : List Event)
    (hpast :
      ((start (.start files cache orchestrator elements)).run earlier).sync.Past n) :
    let o := (start (.start files cache orchestrator elements)).run earlier
    let p := o.run later
    p.sync.Past n ∧
      (∀ x : Event, x.background? = some n → x ≠ .leave (some n) →
        Undisturbed p.sync (p.handle x).sync) ∧
      (p.handle (.leave (some n))).sync =
        (if some n ∈ p.leaving then { p.sync with phase := .synced } else p.sync) ∧
      p.leaving.count (some n) ≤ o.leaving.count (some n) ∧ o.leaving.count (some n) ≤ 1 ∧
      ∀ before toggles after, earlier = before ++ .setup toggles :: after →
        ((start (.start files cache orchestrator elements)).run before).sync.current = some n →
          ∀ x : Event, x.background? = some n → Undisturbed p.sync (p.handle x).sync := by
  intro o p
  have hlate : p.sync.Past n := past_run hpast later
  have honce := (sound_run files cache orchestrator elements earlier).once n
  rw [ends_of_past hpast] at honce
  have hkept (x : Event) (hx : x.background? = some n) (hleave : x ≠ .leave (some n)) :
      Undisturbed p.sync (p.handle x).sync :=
    undisturbed_handle hlate.2 hx hleave
  refine ⟨hlate, hkept, p.handle_leave (some n), count_leaving_run hpast later, honce, ?replaced⟩
  case replaced =>
    intro before toggles after hsplit hcurrent x hx
    by_cases hleave : x = .leave (some n)
    · have hsound := sound_run files cache orchestrator elements before
      have hnone := hsound.not_mem_leaving hcurrent toggles (after ++ later)
      have hp : p = (((start (.start files cache orchestrator elements)).run before).handle
          (.setup toggles)).run (after ++ later) := by
        simp only [p, o, hsplit, run_append]
        rfl
      rw [← hp] at hnone
      rw [hleave, handle_leave, if_neg hnone]
      exact .refl _
    · exact hkept x hx hleave

/-- The first session is replaced before its feature has been looked up, its barrier has
nothing to report, and it comes to its end while the second session is looking up. -/
theorem current_of_late_overlapping :
    let earlier : List Event :=
      [.setup [.enabled "a" "1"], .setup [.enabled "b" "1", .enabled "c" "1"], .advance 0,
        .advance 0, .advance 0]
    let later : List Event := [.advance 0, .advance 0, .look 0, .report 0 true]
    let o := (start (.start (.ofHome ["home"]) ⟨"cache"⟩ (.ofRegistry .empty) .empty)).run earlier
    let p := o.run later
    o.sync.Past 0 ∧ (Event.finish 0).background? = some 0 ∧ Event.finish 0 ≠ .leave (some 0) ∧
      p.ending = [0] ∧ p.sync.current = some 1 ∧
      Undisturbed p.sync (p.handle (.finish 0)).sync ∧
      Undisturbed p.sync (p.handle (.leave (some 0))).sync := by
  intro earlier later o p
  have hpast : o.sync.Past 0 := ⟨by decide +kernel, by decide +kernel⟩
  obtain ⟨-, hkept, -, -, -, hreplaced⟩ := current_of_late _ _ _ _ earlier later hpast
  exact ⟨hpast, rfl, nofun, by decide +kernel, by decide +kernel, hkept (.finish 0) rfl nofun,
    hreplaced [.setup [.enabled "a" "1"]] _ _ rfl (by decide +kernel) (.leave (some 0)) rfl⟩

/-- The fetch of the first session fails, and its barrier ends it. Before the phase is
written, a second session is set up, whose phase is the one that is written over. Without the
second session, the phase is written by the barrier of a session that is no longer current. -/
theorem disturbed_of_leave :
    let setUp (feature : String) : List Event :=
      [.setup [.enabled feature "1"], .advance 0, .advance 0, .advance 0]
    let failing : List Event :=
      [.fetched 0 ⟨"a", "1"⟩ (.error (.status "a/1" 404)), .look 0, .report 0 true, .finish 0]
    let ended := (start (.start (.ofHome ["home"]) ⟨"cache"⟩ (.ofRegistry .empty) .empty)).run
      (setUp "a" ++ failing)
    let replaced := ended.run (setUp "b")
    let x := Event.leave (some 0)
    x.background? = some 0 ∧ ended.sync.Past 0 ∧ replaced.sync.Past 0 ∧
      ended.sync.phase = .pendingSync ∧ (ended.handle x).sync.phase = .synced ∧
      replaced.sync.current = some 1 ∧ replaced.sync.phase = .pendingSync ∧
      (replaced.handle x).sync.current = some 1 ∧ (replaced.handle x).sync.phase = .synced ∧
      ¬ Undisturbed ended.sync (ended.handle x).sync ∧
      ¬ Undisturbed replaced.sync (replaced.handle x).sync := by
  intro setUp failing ended replaced x
  have hended : ended.sync.phase = .pendingSync := by decide +kernel
  have hwritten : (ended.handle x).sync.phase = .synced := by decide +kernel
  have hreplaced : replaced.sync.phase = .pendingSync := by decide +kernel
  have hover : (replaced.handle x).sync.phase = .synced := by decide +kernel
  refine ⟨rfl, ⟨by decide +kernel, by decide +kernel⟩, ⟨by decide +kernel, by decide +kernel⟩,
    hended, hwritten, by decide +kernel, hreplaced, by decide +kernel, hover, fun h => ?alone,
    fun h => ?newer⟩
  case alone =>
    have hphase := h.phase
    rw [hended, hwritten] at hphase
    cases hphase
  case newer =>
    have hphase := h.phase
    rw [hreplaced, hover] at hphase
    cases hphase

end Overlap

end Sync

end FeatureFlow
