import FeatureFlow.Proofs.Sync.Accounting
import FeatureFlow.Proofs.Sync.Activation

/-!
# Phases and ready lists

When no operation is under way, the phase says whether there is a session, and each
session with something to resolve has either its barrier or its ready list
(`Exchange.Sound.handle`). An operation decides this by little of the synchronisation
(`Standing`), so each one has an equation for what it does to that.
-/

namespace FeatureFlow

namespace Sync

-- ---------------------------------------------------------------------------
-- Standings
-- ---------------------------------------------------------------------------

structure Standing where
  phase : SyncPhase
  current : Option Nat
  /-- How many sessions were begun. -/
  begun : Nat
  link : Link

def standing (s : Sync) : Standing where
  phase := s.phase
  current := s.current
  begun := s.sessions.length
  link := s.orchestrator.link

def Standing.ended (t : Standing) : Standing :=
  { t with phase := .synced, current := none }

/-- Between operations with an open link: a session is there exactly in the phase that
waits for the server, and nothing is being resolved. -/
structure Standing.Settled (t : Standing) : Prop where
  link : t.link = .connected
  present : ∀ n, t.current = some n → n < t.begun
  pending : t.current.isSome = true ↔ t.phase = .pendingSync
  resolved : t.phase ≠ .resolving

theorem Standing.Settled.ended {t : Standing} (h : t.Settled) : t.ended.Settled where
  link := h.link
  present _ hn := nomatch hn
  pending := ⟨fun h => (Bool.false_ne_true h).elim, fun h => nomatch h⟩
  resolved h := nomatch h

theorem isSome_currentSession? {s : Sync} (h : ∀ n, s.current = some n → n < s.sessions.length) :
    s.currentSession?.isSome = s.current.isSome := by
  unfold currentSession?
  cases hcurrent : s.current with
  | none => rfl
  | some n => simp [session?, h n hcurrent]

theorem standing_updateSession (s : Sync) (number : Nat) (f : Session → Session) :
    (s.updateSession number f).standing = s.standing := by
  simp [standing, updateSession]

theorem standing_resolve (number : Nat) (s : Sync) (t : Toggle) :
    (resolve number s t).1.standing = s.standing := by
  unfold resolve
  generalize s.cache.read s.files t.name t.version = found
  obtain ⟨body, files⟩ := found
  cases body <;> exact standing_updateSession ..

theorem standing_resolveAll (number : Nat) (s : Sync) (toggles : List Toggle) :
    (resolveAll number s toggles).1.standing = s.standing := by
  induction toggles generalizing s with
  | nil => rfl
  | cons t rest ih => exact (ih _).trans (standing_resolve number s t)

theorem standing_setup (s : Sync) (toggles : List Toggle) :
    (s.setup toggles).1.standing =
      if enabled toggles = [] then { s.standing.ended with begun := s.sessions.length + 1 }
      else
        { phase := .pendingSync, current := some s.sessions.length
          begun := s.sessions.length + 1, link := s.orchestrator.link } := by
  rw [setup_eq_begun]
  split
  · simp [finish, begun, withSession, standing, Standing.ended]
  · have hresolved := standing_resolveAll s.sessions.length (s.begun toggles).sync (enabled toggles)
    simp only [standing, Standing.mk.injEq] at hresolved ⊢
    simpa [begun, withSession] using hresolved.2

theorem settled_setup {s : Sync} (h : s.standing.Settled) (toggles : List Toggle) :
    (s.setup toggles).1.standing.Settled := by
  rw [standing_setup]
  split
  · exact ⟨h.link, fun _ hn => (nomatch hn), h.ended.pending, h.ended.resolved⟩
  · refine ⟨h.link, fun n hn => ?_, ⟨fun _ => rfl, fun _ => rfl⟩, fun h => nomatch h⟩
    obtain rfl := Option.some.inj hn
    exact Nat.lt_succ_self _

theorem begun_setup (s : Sync) (toggles : List Toggle) :
    (s.setup toggles).1.sessions.length = s.sessions.length + 1 ∧
      (s.setup toggles).1.phase ≠ .idle := by
  have hstanding := s.standing_setup toggles
  have hphase := congrArg Standing.phase hstanding
  refine ⟨(congrArg Standing.begun hstanding).trans ?_, fun hidle => ?_⟩
  · split <;> rfl
  · change (s.setup toggles).1.phase = _ at hphase
    rw [hidle] at hphase
    split at hphase <;> cases hphase

theorem barrier_setup (s : Sync) (toggles : List Toggle) :
    (s.setup toggles).2.session = s.sessions.length ∧
      ((s.setup toggles).2.barrier = true ↔ enabled toggles ≠ []) := by
  rw [setup_eq_begun]
  split <;> simp [*]

theorem standing_fetched (s : Sync) (number : Nat) (wanted : Wanted)
    (result : Except FetchError String) :
    (s.fetched number wanted result).standing = s.standing := by
  cases result <;> exact standing_updateSession ..

theorem standing_report {s : Sync} (h : s.session? number = some session) :
    (s.report number).state.standing =
      if session.ready.entries.isEmpty ∧ s.current = some number then s.standing.ended
      else s.standing := by
  simp only [report, h, Outcome.quiet]
  cases session.ready.entries.isEmpty with
  | false => simp [standing_updateSession]
  | true =>
    by_cases hcurrent : s.current = some number <;>
      simp [finish, hcurrent, standing, updateSession, Standing.ended]

theorem link_activateAll (session : Option Session) (o : Orchestrator) (names : List String) :
    (activateAll session o names).1.link = o.link := by
  induction names generalizing o with
  | nil => rfl
  | cons name rest ih =>
    rw [activateAll]
    cases h : activate session o name with
    | none => exact ih o
    | some after =>
      refine (ih after).trans ?_
      unfold activate at h
      split at h
      · cases h
      · split at h
        · exact Option.some.inj h ▸ rfl
        · cases h

theorem standing_push (s : Sync) (features : List String) :
    (s.push features).1.standing = s.standing.ended := by
  have hlink := link_activateAll s.currentSession? s.orchestrator features
  unfold push
  cases hcurrent : s.current <;>
    simp [finish, hcurrent, standing, Standing.ended, hlink]

end Sync

-- ---------------------------------------------------------------------------
-- Operations
-- ---------------------------------------------------------------------------

/-- The synchronisation with the barriers that have not resolved, and what the others
have sent. -/
structure Exchange where
  sync : Sync
  /-- The sessions of the pending barriers. -/
  barriers : List Nat
  /-- Each message with the session whose barrier sent it. -/
  sent : List (Nat × ServerMessage)

namespace Exchange

open Sync (Standing Wanted enabled)

inductive Operation where
  | setup (toggles : List Toggle)
  | fetched (session : Nat) (wanted : Wanted) (result : Except FetchError String)
  /-- The barrier of a session stops waiting, for whatever reason. -/
  | resolve (session : Nat)
  /-- A push, or a message that cannot be read as one. -/
  | message (m : ServerMessage)

def start (sync : Sync) : Exchange :=
  { sync, barriers := [], sent := [] }

def handle (e : Exchange) : Operation → Exchange
  | .setup toggles =>
    let (sync, started) := e.sync.setup toggles
    { e with sync, barriers := e.barriers ++ if started.barrier then [started.session] else [] }
  | .fetched session wanted result => { e with sync := e.sync.fetched session wanted result }
  | .resolve session =>
    -- a barrier resolves once
    if session ∈ e.barriers then
      let reported := e.sync.report session
      { sync := reported.state, barriers := e.barriers.erase session
        sent := e.sent ++ reported.sent.map (session, ·) }
    else e
  | .message m => { e with sync := (e.sync.onSyncMessage m).1 }

def run (e : Exchange) (operations : List Operation) : Exchange :=
  operations.foldl handle e

def Operation.wakes : Operation → Bool
  | .setup _ => true
  | .message m => (m.parse ActiveFeaturesPush.decode).toBool
  | .fetched _ _ _ | .resolve _ => false

/-- The toggles of the setups. Each one begins the next session. -/
def setups (operations : List Operation) : List (List Toggle) :=
  operations.filterMap fun
    | .setup toggles => some toggles
    | _ => none

def lists (operations : List Operation) (session : Nat) : Nat :=
  match (setups operations)[session]? with
  | some toggles => if enabled toggles = [] then 0 else 1
  | none => 0

/-- How many ready lists are still to be sent for a session, or have been. -/
def accounted (e : Exchange) (session : Nat) : Nat :=
  e.barriers.count session + (e.sent.filter (·.1 == session)).length

-- ---------------------------------------------------------------------------
-- The invariant
-- ---------------------------------------------------------------------------

structure Sound (operations : List Operation) (e : Exchange) : Prop where
  settled : e.sync.standing.Settled
  begun : e.sync.sessions.length = (setups operations).length
  idle : e.sync.phase = .idle ↔ ∀ x ∈ operations, x.wakes = false
  accounted : ∀ n, e.accounted n = lists operations n
  sent : ∀ x ∈ e.sent, ∃ ready, x.2 = .readyList ready

variable {e : Exchange} {operations : List Operation} {operation : Operation} {s : Sync}

theorem setups_append (operations : List Operation) (operation : Operation) :
    setups (operations ++ [operation]) = setups operations ++ setups [operation] :=
  List.filterMap_append ..

theorem wakes_append (operations : List Operation) (operation : Operation) :
    (∀ x ∈ operations ++ [operation], x.wakes = false) ↔
      (∀ x ∈ operations, x.wakes = false) ∧ operation.wakes = false := by
  simp only [List.forall_mem_append, List.forall_mem_singleton]

theorem lists_append_of_nil (h : setups [operation] = []) (n : Nat) :
    lists (operations ++ [operation]) n = lists operations n := by
  rw [lists, setups_append, h, List.append_nil, lists]

theorem lists_append_setup (operations : List Operation) (toggles : List Toggle) (n : Nat) :
    lists (operations ++ [.setup toggles]) n =
      lists operations n +
        if enabled toggles ≠ [] ∧ n = (setups operations).length then 1 else 0 := by
  have hsetups : setups (operations ++ [.setup toggles]) = setups operations ++ [toggles] :=
    setups_append ..
  unfold lists
  rw [hsetups]
  rcases Nat.lt_trichotomy n (setups operations).length with hlt | rfl | hgt
  · rw [List.getElem?_append_left hlt, if_neg (by omega), Nat.add_zero]
  · by_cases hnone : enabled toggles = [] <;> simp [hnone]
  · rw [List.getElem?_eq_none (by simp; omega), List.getElem?_eq_none (by omega),
      if_neg (by omega)]

theorem Sound.keep (h : Sound operations e) (hsetups : setups [operation] = [])
    (hwakes : operation.wakes = false) (hstanding : s.standing = e.sync.standing) :
    Sound (operations ++ [operation]) { e with sync := s } where
  settled := hstanding ▸ h.settled
  begun := by
    rw [setups_append, hsetups, List.append_nil, ← h.begun]
    exact congrArg Standing.begun hstanding
  idle := by
    rw [wakes_append, ← h.idle]
    have hphase : s.phase = e.sync.phase := congrArg Standing.phase hstanding
    simp [hphase, hwakes]
  accounted n := (h.accounted n).trans (lists_append_of_nil hsetups n).symm
  sent := h.sent

theorem Sound.setup (h : Sound operations e) (toggles : List Toggle) :
    Sound (operations ++ [.setup toggles]) (e.handle (.setup toggles)) := by
  obtain ⟨hlength, hphase⟩ := e.sync.begun_setup toggles
  obtain ⟨hsession, hbarrier⟩ := e.sync.barrier_setup toggles
  refine ⟨Sync.settled_setup h.settled toggles, ?begun, ?idle, fun n => ?accounted, h.sent⟩
  case begun =>
    rw [setups_append, List.length_append, ← h.begun]
    exact hlength
  case idle =>
    rw [wakes_append]
    exact ⟨fun hidle => absurd hidle hphase, fun hall => nomatch hall.2⟩
  case accounted =>
    rw [lists_append_setup, ← h.accounted n, ← h.begun]
    simp only [Exchange.accounted, Exchange.handle, hsession]
    by_cases hnone : enabled toggles = []
    · simp [hnone, hbarrier]
    · have hyes := hbarrier.mpr hnone
      by_cases hn : n = e.sync.sessions.length
      · simp [hyes, hnone, hn]
        omega
      · simp [hyes, hnone, hn, Ne.symm hn]

theorem lt_of_lists (h : 0 < lists operations n) : n < (setups operations).length := by
  unfold lists at h
  split at h
  · rename_i hfound
    exact (List.getElem?_eq_some_iff.mp hfound).1
  · cases h

theorem Sound.session_of_barrier (h : Sound operations e) (hn : n ∈ e.barriers) :
    ∃ session, e.sync.session? n = some session := by
  have hcount : 0 < e.barriers.count n := List.count_pos_iff.mpr hn
  have haccounted := h.accounted n
  have hlt : n < e.sync.sessions.length := by
    rw [h.begun]
    refine lt_of_lists ?_
    unfold Exchange.accounted at haccounted
    omega
  exact ⟨_, List.getElem?_eq_getElem hlt⟩

theorem Sound.handle_resolve (h : Sound operations e) (hn : n ∈ e.barriers)
    (hsession : e.sync.session? n = some session) :
    e.handle (.resolve n) =
      { sync := (e.sync.report n).state, barriers := e.barriers.erase n
        sent := e.sent ++ [(n, .readyList session.ready)] } := by
  have hlink : e.sync.orchestrator.link = .connected := h.settled.link
  simp only [Exchange.handle, if_pos hn, (Sync.report_outcome hsession).2.2, hlink]
  rfl

theorem Sound.resolve (h : Sound operations e) (n : Nat) :
    Sound (operations ++ [.resolve n]) (e.handle (.resolve n)) := by
  by_cases hn : n ∈ e.barriers
  · obtain ⟨session, hsession⟩ := h.session_of_barrier hn
    have hstanding := Sync.standing_report hsession
    rw [h.handle_resolve hn hsession]
    constructor
    case settled =>
      rw [hstanding]
      split
      · exact h.settled.ended
      · exact h.settled
    case begun =>
      rw [setups_append, Sync.length_report hsession, h.begun]
      simp [setups]
    case idle =>
      rw [wakes_append, ← h.idle]
      have hphase := congrArg Standing.phase hstanding
      change (e.sync.report n).state.phase = _ at hphase
      rw [hphase]
      split
      · -- the session was current, so the phase was not idle before either
        rename_i hended
        have hpending := h.settled.pending.mp (by simp [Sync.standing, hended.2])
        change e.sync.phase = _ at hpending
        simp [Standing.ended, hpending]
      · exact ⟨fun hidle => ⟨hidle, rfl⟩, And.left⟩
    case accounted =>
      intro m
      rw [lists_append_of_nil rfl, ← h.accounted m]
      unfold Exchange.accounted
      by_cases hm : n = m
      · subst hm
        have hcount : 0 < e.barriers.count n := List.count_pos_iff.mpr hn
        simp
        omega
      · simp [hm, List.count_erase_of_ne (Ne.symm hm)]
    case sent =>
      intro x hx
      rcases List.mem_append.mp hx with hold | hnew
      · exact h.sent x hold
      · obtain rfl := List.mem_singleton.mp hnew
        exact ⟨session.ready, rfl⟩
  · have hsame : e.handle (.resolve n) = e := if_neg hn
    rw [hsame]
    exact h.keep rfl rfl rfl

theorem Sound.message (h : Sound operations e) (m : ServerMessage) :
    Sound (operations ++ [.message m]) (e.handle (.message m)) := by
  cases hparse : m.parse ActiveFeaturesPush.decode with
  | error reason =>
    have hsync : (e.sync.onSyncMessage m).1 = e.sync := by simp only [Sync.onSyncMessage, hparse]
    refine h.keep rfl ?_ (congrArg Sync.standing hsync)
    simp [Operation.wakes, hparse, Except.toBool]
  | ok push =>
    have hstanding : (e.sync.onSyncMessage m).1.standing = e.sync.standing.ended := by
      simp only [Sync.onSyncMessage, hparse, Sync.standing_push]
    constructor
    case settled =>
      exact hstanding ▸ h.settled.ended
    case begun =>
      rw [setups_append, List.length_append, ← h.begun]
      exact congrArg Standing.begun hstanding
    case idle =>
      rw [wakes_append]
      have hphase : (e.handle (.message m)).sync.phase = .synced :=
        congrArg Standing.phase hstanding
      simp [hphase, Operation.wakes, hparse, Except.toBool]
    case accounted =>
      intro n
      rw [lists_append_of_nil rfl, ← h.accounted n]
      rfl
    case sent => exact h.sent

theorem Sound.handle (h : Sound operations e) (operation : Operation) :
    Sound (operations ++ [operation]) (e.handle operation) := by
  cases operation with
  | setup toggles => exact h.setup toggles
  | fetched session wanted result => exact h.keep rfl rfl (Sync.standing_fetched ..)
  | resolve n => exact h.resolve n
  | message m => exact h.message m

theorem sound_start (files : Files) (cache : Cache) {orchestrator : Orchestrator}
    (hopen : orchestrator.link = .connected) (elements : Elements) :
    Sound [] (start (.start files cache orchestrator elements)) where
  settled :=
    { link := hopen
      present := fun _ hn => nomatch hn
      pending := ⟨fun h => (nomatch h), fun h => nomatch h⟩
      resolved := fun h => nomatch h }
  begun := rfl
  idle := ⟨fun _ _ hx => (nomatch hx), fun _ => rfl⟩
  accounted _ := rfl
  sent _ hx := nomatch hx

theorem Sound.run (h : Sound operations e) (more : List Operation) :
    Sound (operations ++ more) (e.run more) := by
  induction more generalizing operations e with
  | nil => exact (List.append_nil operations).symm ▸ h
  | cons operation rest ih =>
    have hrest := ih (h.handle operation)
    rwa [List.append_assoc, List.singleton_append] at hrest

/-- After any operations with an open link: there is a session exactly while the phase
waits for the server, the phase is idle exactly as long as there was neither a setup nor
a push, and nothing is left resolving. A session with something to resolve has sent one
ready list or has a barrier that will send it, and other sessions send none. -/
theorem phase_of_run (files : Files) (cache : Cache) {orchestrator : Orchestrator}
    (hopen : orchestrator.link = .connected) (elements : Elements)
    (operations : List Operation) :
    let e := (start (.start files cache orchestrator elements)).run operations
    (e.sync.currentSession?.isSome = true ↔ e.sync.phase = .pendingSync) ∧
      (e.sync.phase = .idle ↔ ∀ x ∈ operations, x.wakes = false) ∧
      e.sync.phase ≠ .resolving ∧
      e.sync.sessions.length = (setups operations).length ∧
      (∀ n, e.accounted n = lists operations n) ∧
      (∀ x ∈ e.sent, ∃ ready, x.2 = .readyList ready) ∧
      ∀ n ∈ e.barriers, ∃ session, e.sync.session? n = some session ∧
        (e.handle (.resolve n)).sent = e.sent ++ [(n, .readyList session.ready)] := by
  intro e
  have h : Sound operations e := (sound_start files cache hopen elements).run operations
  refine ⟨?_, h.idle, h.settled.resolved, h.begun, h.accounted, h.sent, fun n hn => ?_⟩
  · rw [Sync.isSome_currentSession? h.settled.present]
    exact h.settled.pending
  · obtain ⟨session, hsession⟩ := h.session_of_barrier hn
    exact ⟨session, hsession, congrArg Exchange.sent (h.handle_resolve hn hsession)⟩

/-- A session without anything to resolve, one that is replaced before its barrier
resolves, and one that the server answers. -/
theorem phase_of_run_replacing :
    let orchestrator := { Orchestrator.ofRegistry .empty with link := .connected }
    let operations : List Operation :=
      [.message { name := ServerMessage.syncFeatures
                  properties := [("active_features", .text "b")] },
        .setup [.disabled "a" "1"], .setup [.enabled "a" "1"], .setup [.enabled "b" "1"],
        .resolve 1, .fetched 2 ⟨"b", "1"⟩ (.ok "\x7b\x7d"), .resolve 2, .resolve 2]
    let e := (start (.start (.ofHome ["home"]) ⟨"cache"⟩ orchestrator .empty)).run operations
    orchestrator.link = .connected ∧ e.sent.map (·.1) = [1, 2] ∧
      e.sync.currentSession?.isSome = true ∧ e.sync.phase = .pendingSync ∧
      e.accounted 0 = 0 ∧ e.accounted 1 = 1 ∧ e.accounted 2 = 1 ∧
      (e.handle (.message (.activeFeatures ["b"]))).sync.phase = .synced := by
  intro orchestrator operations e
  have hopen : orchestrator.link = .connected := rfl
  obtain ⟨hpending, -, -, -, haccounted, -⟩ :=
    phase_of_run (.ofHome ["home"]) ⟨"cache"⟩ hopen .empty operations
  have hphase : e.sync.phase = .pendingSync := by decide +kernel
  exact ⟨hopen, by decide +kernel, hpending.mpr hphase, hphase, haccounted 0, haccounted 1,
    haccounted 2, by decide +kernel⟩

end Exchange

end FeatureFlow
