import FeatureFlow.Proofs.Sync.Phases

/-!
# Setups step by step

A setup makes its session the current one, writes the phase, looks up its features one by
one and writes the phase again. Other threads run between any two of these steps, so that a
session may have ended while the phase does not say so yet. Whatever a setup leaves to be
done in the background is taken up by the system in which it runs (`Host`).

When nothing comes in between, the steps are those of `Sync.setup` (`Host.run_whole`).
-/

namespace FeatureFlow

namespace Sync

/-- A setup that has begun its session, by what it does next. -/
inductive Setup where
  | opening (session : Nat) (unread : List Toggle)
  | lookingUp (session : Nat) (unread : List Toggle)
  /-- There is nothing to look up, and the session is to be ended. -/
  | ending (session : Nat)
  /-- The session has ended, and the phase is to be written. -/
  | leaving (session : Nat)

/-- What a step of a setup leaves to others. -/
inductive Yield where
  | fetch (session : Nat) (wanted : Wanted)
  /-- The setup returns, with a barrier to start or without. -/
  | returns (session : Nat) (barrier : Bool)

def Started.yields (started : Started) : List Yield :=
  started.wanted.map (.fetch started.session) ++ [.returns started.session started.barrier]

namespace Setup

def session : Setup → Nat
  | opening session _ | lookingUp session _ | ending session | leaving session => session

/-- The synchronisation after a step, what is left of the setup, and what comes of it. -/
def step (s : Sync) : Setup → Sync × Option Setup × List Yield
  | opening session [] => ({ s with phase := .resolving }, some (ending session), [])
  | opening session unread =>
    ({ s with phase := .resolving }, some (lookingUp session unread), [])
  | lookingUp session (t :: rest) =>
    let (s, wanted) := resolve session s t
    (s, some (lookingUp session rest), wanted.toList.map (.fetch session))
  | lookingUp session [] => ({ s with phase := .pendingSync }, none, [.returns session true])
  | ending session =>
    if s.current = some session then ({ s with current := none }, some (leaving session), [])
    else (s, none, [.returns session false])
  | leaving session => ({ s with phase := .synced }, none, [.returns session false])

theorem step_lookingUp {s after : Sync} (h : resolve n s t = (after, wanted)) :
    (lookingUp n (t :: rest)).step s =
      (after, some (lookingUp n rest), wanted.toList.map (.fetch n)) := by
  rw [step, h]

theorem step_ending {s : Sync} (h : s.current = some n) :
    (ending n).step s = ({ s with current := none }, some (leaving n), []) :=
  if_pos h

theorem step_ending_of_ne {s : Sync} (h : s.current ≠ some n) :
    (ending n).step s = (s, none, [.returns n false]) :=
  if_neg h

theorem step_outcome (s : Sync) (setup : Setup) :
    let result := setup.step s
    (result.1.current = s.current ∨ result.1.current = none) ∧
      result.1.sessions.length = s.sessions.length ∧
      ((∃ later, result.2.1 = some later ∧ later.session = setup.session ∧
          ∃ wanted : List Wanted, result.2.2 = wanted.map (.fetch setup.session)) ∨
        result.2.1 = none ∧ ∃ barrier, result.2.2 = [.returns setup.session barrier]) := by
  cases setup with
  | opening n unread => cases unread <;> exact ⟨.inl rfl, rfl, .inl ⟨_, rfl, rfl, [], rfl⟩⟩
  | lookingUp n unread =>
    cases unread with
    | nil => exact ⟨.inl rfl, rfl, .inr ⟨rfl, true, rfl⟩⟩
    | cons t rest =>
      have hstanding := standing_resolve n s t
      generalize hresolve : resolve n s t = found at hstanding
      obtain ⟨after, wanted⟩ := found
      rw [step_lookingUp hresolve]
      exact ⟨.inl (congrArg Standing.current hstanding), congrArg Standing.begun hstanding,
        .inl ⟨_, rfl, rfl, wanted.toList, rfl⟩⟩
  | ending n =>
    by_cases hcurrent : s.current = some n
    · rw [step_ending hcurrent]
      exact ⟨.inr rfl, rfl, .inl ⟨_, rfl, rfl, [], rfl⟩⟩
    · rw [step_ending_of_ne hcurrent]
      exact ⟨.inl rfl, rfl, .inr ⟨rfl, false, rfl⟩⟩
  | leaving n => exact ⟨.inl rfl, rfl, .inr ⟨rfl, false, rfl⟩⟩

end Setup

structure Setups where
  sync : Sync
  running : List Setup

namespace Setups

def begin (s : Setups) (toggles : List Toggle) : Setups where
  sync := s.sync.withSession (enabled toggles).length (some s.sync.sessions.length)
  running := s.running ++ [.opening s.sync.sessions.length (enabled toggles)]

def step (s : Setups) (index : Nat) : Setups × List Yield :=
  match s.running[index]? with
  | none => (s, [])
  | some setup =>
    let (sync, next, yields) := setup.step s.sync
    ({ sync
       running := s.running.take index ++ next.toList ++ s.running.drop (index + 1) }, yields)

def steps (s : Setups) : List Nat → Setups × List Yield
  | [] => (s, [])
  | index :: rest =>
    let (s, first) := s.step index
    let (s, more) := s.steps rest
    (s, first ++ more)

/-- How many steps a setup takes: it writes the phase twice, and in between it looks up each
feature or ends its session. -/
def length (toggles : List Toggle) : Nat :=
  max 1 (enabled toggles).length + 2

theorem step_outcome (s : Setups) (index : Nat) :
    let result := s.step index
    (result.1.sync.current = s.sync.current ∨ result.1.sync.current = none) ∧
      result.1.sync.sessions.length = s.sync.sessions.length ∧
      ((∃ session, ∃ wanted : List Wanted, result.2 = wanted.map (.fetch session) ∧
          result.1.running.map (·.session) = s.running.map (·.session)) ∨
        ∃ session barrier, result.2 = [.returns session barrier] ∧
          (s.running.map (·.session)).Perm (session :: result.1.running.map (·.session))) := by
  cases hindex : s.running[index]? with
  | none =>
    rw [step, hindex]
    exact ⟨.inl rfl, rfl, .inl ⟨0, [], rfl, rfl⟩⟩
  | some setup =>
    have hrunning : s.running = s.running.take index ++ setup :: s.running.drop (index + 1) := by
      obtain ⟨hlt, rfl⟩ := List.getElem?_eq_some_iff.mp hindex
      rw [List.getElem_cons_drop, List.take_append_drop]
    obtain ⟨hcurrent, hlength, hcourse⟩ := setup.step_outcome s.sync
    rw [step, hindex]
    refine ⟨hcurrent, hlength, ?_⟩
    rcases hcourse with ⟨later, hlater, hsession, wanted, hyields⟩ | ⟨hnone, barrier, hyields⟩
    · refine .inl ⟨setup.session, wanted, hyields, ?_⟩
      conv_rhs => rw [hrunning]
      simp [hlater, hsession]
    · refine .inr ⟨setup.session, barrier, hyields, ?_⟩
      conv_lhs => rw [hrunning]
      simp [hnone]

variable (s : Sync) (earlier : List Setup)

theorem step_append (setup : Setup) :
    step { sync := s, running := earlier ++ [setup] } earlier.length =
      let (sync, next, yields) := setup.step s
      ({ sync, running := earlier ++ next.toList }, yields) := by
  simp [step]

theorem steps_lookingUp (session : Nat) (unread : List Toggle) :
    steps { sync := s, running := earlier ++ [.lookingUp session unread] }
        (.replicate (unread.length + 1) earlier.length) =
      let (resolved, wanted) := resolveAll session s unread
      ({ sync := { resolved with phase := .pendingSync }, running := earlier },
        wanted.map (.fetch session) ++ [.returns session true]) := by
  induction unread generalizing s with
  | nil => simp [steps, step_append, Setup.step, resolveAll]
  | cons t rest ih =>
    rw [List.length_cons, List.replicate_succ, steps, step_append]
    simp only [Setup.step, Option.toList_some, ih]
    simp [resolveAll]

/-- A setup that nothing comes into. -/
theorem steps_whole (s : Setups) (toggles : List Toggle) :
    (s.begin toggles).steps (.replicate (length toggles) s.running.length) =
      let (sync, started) := s.sync.setup toggles
      ({ sync, running := s.running }, started.yields) := by
  rw [setup_eq_begun, length, begin, begun]
  cases hunread : enabled toggles with
  | nil => simp [List.replicate_succ, steps, step_append, Setup.step, withSession, finish,
      Started.yields]
  | cons t rest =>
    have hlength : max 1 (t :: rest).length + 2 = (t :: rest).length + 1 + 1 := by
      simp
    rw [hlength, List.replicate_succ, steps, step_append]
    simp only [Setup.step, Option.toList_some, steps_lookingUp]
    simp [Started.yields]

end Setups

/-- A system in which setups run, with what it does about what they leave. -/
structure Host (σ : Type) where
  setups : σ → Setups
  put : σ → Setups → σ
  take : σ → Yield → σ
  put_setups : ∀ x, put x (setups x) = x
  setups_put : ∀ x s, setups (put x s) = s
  put_put : ∀ x s t, put (put x s) t = put x t
  /-- What is taken up is no part of the setups. -/
  take_put : ∀ x s y, take (put x s) y = put (take x y) s

namespace Host

variable (h : Host σ) (x : σ)

def begin (toggles : List Toggle) : σ :=
  h.put x ((h.setups x).begin toggles)

def step (index : Nat) : σ :=
  let (s, yields) := (h.setups x).step index
  yields.foldl h.take (h.put x s)

theorem foldl_take (s : Setups) (yields : List Yield) :
    yields.foldl h.take (h.put x s) = h.put (yields.foldl h.take x) s := by
  induction yields generalizing x with
  | nil => rfl
  | cons y rest ih => rw [List.foldl_cons, h.take_put, ih, List.foldl_cons]

theorem setups_step (index : Nat) : h.setups (h.step x index) = ((h.setups x).step index).1 := by
  simp only [step, foldl_take, setups_put]

theorem foldl_step (indices : List Nat) :
    indices.foldl h.step x =
      let (s, yields) := (h.setups x).steps indices
      yields.foldl h.take (h.put x s) := by
  induction indices generalizing x with
  | nil => exact (h.put_setups x).symm
  | cons index rest ih =>
    rw [List.foldl_cons, ih]
    simp only [step, Setups.steps, foldl_take, setups_put, put_put, List.foldl_append]

theorem run_whole (toggles : List Toggle) :
    (List.replicate (Setups.length toggles) (h.setups x).running.length).foldl h.step
        (h.begin x toggles) =
      let (sync, started) := (h.setups x).sync.setup toggles
      started.yields.foldl h.take (h.put x { sync, running := (h.setups x).running }) := by
  rw [foldl_step, begin, setups_put, Setups.steps_whole]
  simp only [put_put]

end Host

end Sync

end FeatureFlow
