import FeatureFlow.Sync

/-!
# What sessions keep

A session is changed by the cache, by fetches and by its report. A manifest that
it holds may be replaced by another one, but it never loses one, and every ready
feature has one (`Session.Backed`). Nothing but the report marks a session as
reported, and only a setup and the end of a session change which one is current.
-/

namespace FeatureFlow

-- ---------------------------------------------------------------------------
-- One session
-- ---------------------------------------------------------------------------

namespace Session

def Backed (s : Session) : Prop :=
  ∀ feature version, s.ready.get? feature = some version →
    ∃ held, s.manifest? feature = some held

/-- The session after changes other than its report. -/
structure Later (s t : Session) : Prop where
  reported : t.reported = s.reported
  held : ∀ feature held, s.manifest? feature = some held →
    ∃ other, t.manifest? feature = some other
  backed : s.Backed → t.Backed

variable {s t u : Session}

theorem Later.refl (s : Session) : Later s s :=
  ⟨rfl, fun _ held h => ⟨held, h⟩, id⟩

theorem Later.trans (hst : Later s t) (htu : Later t u) : Later s u := by
  refine ⟨htu.reported.trans hst.reported, fun feature held h => ?_, htu.backed ∘ hst.backed⟩
  obtain ⟨other, hother⟩ := hst.held feature held h
  exact htu.held feature other hother

theorem backed_ofExpected (expected : Nat) : (ofExpected expected).Backed := by
  intro feature version h
  simp [ofExpected] at h

theorem backed_markReported (h : s.Backed) : s.markReported.Backed :=
  h

theorem later_markFetching (s : Session) (feature version : String) :
    Later s (s.markFetching feature version) :=
  ⟨rfl, fun _ held h => ⟨held, h⟩, id⟩

theorem later_markFailed (s : Session) (feature version reason : String) :
    Later s (s.markFailed feature version reason) :=
  ⟨rfl, fun _ held h => ⟨held, h⟩, id⟩

theorem later_markReady (s : Session) (feature version body : String) (state : FeatureState) :
    Later s (s.markReady feature version body state) := by
  refine ⟨rfl, fun other held h => ?_, fun hbacked other found h => ?_⟩
  · simp only [markReady, manifest?, Table.get?_insert]
    split
    · exact ⟨_, rfl⟩
    · exact ⟨held, h⟩
  · simp only [markReady, manifest?, Table.get?_insert] at h ⊢
    split at h <;> rename_i hkey
    · exact ⟨_, if_pos hkey⟩
    · simp only [hkey, if_false]
      exact hbacked other found h

end Session

-- ---------------------------------------------------------------------------
-- All sessions
-- ---------------------------------------------------------------------------

namespace Sync

/-- The synchronisation after changes of sessions other than reports, with the
same one current. -/
structure Later (s t : Sync) : Prop where
  current : t.current = s.current
  length : t.sessions.length = s.sessions.length
  session : ∀ n session, s.session? n = some session →
    ∃ other, t.session? n = some other ∧ session.Later other

variable {s t u : Sync}

theorem later_of_eq (hcurrent : t.current = s.current) (hsessions : t.sessions = s.sessions) :
    Later s t := by
  refine ⟨hcurrent, by rw [hsessions], fun n session h => ⟨session, ?_, .refl session⟩⟩
  rw [session?, hsessions]
  exact h

theorem Later.refl (s : Sync) : Later s s :=
  later_of_eq rfl rfl

theorem Later.trans (hst : Later s t) (htu : Later t u) : Later s u := by
  refine ⟨htu.current.trans hst.current, htu.length.trans hst.length, fun n session h => ?_⟩
  obtain ⟨middle, hmiddle, hfirst⟩ := hst.session n session h
  obtain ⟨last, hlast, hsecond⟩ := htu.session n middle hmiddle
  exact ⟨last, hlast, hfirst.trans hsecond⟩

theorem Later.origin (h : Later s t) (ht : t.session? n = some other) :
    ∃ session, s.session? n = some session ∧ session.Later other := by
  have hn : n < s.sessions.length := by
    have := (List.getElem?_eq_some_iff.mp ht).1
    rwa [h.length] at this
  obtain ⟨found, hfound, hlater⟩ := h.session n s.sessions[n] (List.getElem?_eq_getElem hn)
  obtain rfl := Option.some.inj (hfound.symm.trans ht)
  exact ⟨_, List.getElem?_eq_getElem hn, hlater⟩

theorem session?_updateSession (s : Sync) (number n : Nat) (f : Session → Session) :
    (s.updateSession number f).session? n =
      if number = n then (s.session? n).map f else s.session? n := by
  simp only [updateSession, session?, List.getElem?_modify]
  split <;> simp [*]

theorem later_updateSession (s : Sync) (number : Nat) {f : Session → Session}
    (hf : ∀ session, Session.Later session (f session)) : Later s (s.updateSession number f) := by
  refine ⟨rfl, by simp [updateSession], fun n session h => ?_⟩
  rw [session?_updateSession, h]
  split
  · exact ⟨f session, rfl, hf session⟩
  · exact ⟨session, rfl, .refl session⟩

theorem later_cleanUp (s : Sync) (w : Wanted) : Later s (s.cleanUp w) :=
  later_of_eq rfl rfl

theorem later_fetched (s : Sync) (number : Nat) (w : Wanted) (result : Except FetchError String) :
    Later s (s.fetched number w result) := by
  cases result with
  | ok body =>
    refine Later.trans (t := s.store w body) (later_of_eq rfl rfl) ?_
    exact later_updateSession _ number fun session => session.later_markReady ..
  | error e => exact s.later_updateSession number fun session => session.later_markFailed ..

theorem later_resolve (number : Nat) (s : Sync) (t : Toggle) : Later s (resolve number s t).1 := by
  unfold resolve
  generalize s.cache.read s.files t.name t.version = found
  obtain ⟨body, files⟩ := found
  have hfiles : Later s { s with files } := later_of_eq rfl rfl
  cases body with
  | some body =>
    exact hfiles.trans (later_updateSession _ number fun session => session.later_markReady ..)
  | none =>
    exact hfiles.trans (later_updateSession _ number fun session => session.later_markFetching ..)

theorem later_resolveAll (number : Nat) (s : Sync) (toggles : List Toggle) :
    Later s (resolveAll number s toggles).1 := by
  induction toggles generalizing s with
  | nil => exact .refl s
  | cons t rest ih => exact (later_resolve number s t).trans (ih _)

theorem report_outcome (h : s.session? number = some session) :
    (s.report number).state.sessions = (s.updateSession number (·.markReported)).sessions ∧
      (s.report number).state.current =
        (if session.ready.entries.isEmpty ∧ s.current = some number then none else s.current) ∧
      (s.report number).sent = (s.orchestrator.link.send (.readyList session.ready)).sent := by
  simp only [report, h, Outcome.quiet]
  cases session.ready.entries.isEmpty with
  | false => simp [updateSession]
  | true =>
    by_cases hcurrent : s.current = some number <;> simp [finish, updateSession, hcurrent]

theorem session?_report (h : s.session? number = some session) (n : Nat) :
    (s.report number).state.session? n =
      if number = n then (s.session? n).map (·.markReported) else s.session? n := by
  rw [← session?_updateSession, session?, (report_outcome h).1]
  rfl

theorem length_report (h : s.session? number = some session) :
    (s.report number).state.sessions.length = s.sessions.length := by
  rw [(report_outcome h).1]
  simp [updateSession]

/-- A report ends at most its own session, and begins none. -/
theorem current_of_current_report (h : s.session? number = some session)
    (hcurrent : (s.report number).state.current = some n) : s.current = some n := by
  rw [(report_outcome h).2.1] at hcurrent
  split at hcurrent
  · cases hcurrent
  · exact hcurrent

theorem current_report_of_ne (h : s.session? number = some session) (hcurrent : s.current = some n)
    (hne : n ≠ number) : (s.report number).state.current = some n := by
  rw [(report_outcome h).2.1, if_neg, hcurrent]
  rintro ⟨-, hown⟩
  exact hne (Option.some.inj (hcurrent.symm.trans hown))

theorem current_report_of_ready (h : s.session? number = some session)
    (hready : session.ready.keys ≠ []) : (s.report number).state.current = s.current := by
  rw [(report_outcome h).2.1, if_neg]
  rintro ⟨hempty, -⟩
  exact hready (by simp [Table.keys, Fields.keys, List.isEmpty_iff.mp hempty])

theorem later_onMessage (s : Sync) (hm : m.name ≠ ServerMessage.syncFeatures) :
    Later s (s.onMessage m).state := by
  rw [onMessage, if_neg hm]
  split
  · exact later_of_eq rfl rfl
  · split
    · exact later_of_eq rfl rfl
    · exact .refl s

def withSession (s : Sync) (expected : Nat) (current : Option Nat) : Sync :=
  { s with sessions := s.sessions ++ [.ofExpected expected], current }

theorem session?_withSession (s : Sync) (expected : Nat) (current : Option Nat) (n : Nat) :
    (s.withSession expected current).session? n =
      if n = s.sessions.length then some (.ofExpected expected) else s.session? n := by
  simp only [session?, withSession, List.getElem?_append]
  split
  · rename_i hlt
    rw [if_neg (by omega)]
  · rename_i hge
    split
    · rename_i heq
      simp [heq]
    · rename_i hne
      rw [List.getElem?_eq_none (by simp; omega), List.getElem?_eq_none (by omega)]

theorem lt_of_session? (h : s.session? n = some session) : n < s.sessions.length :=
  (List.getElem?_eq_some_iff.mp h).1

/-- A setup begins one session. It stays current if there is a barrier for it. -/
theorem later_setup (s : Sync) (toggles : List Toggle) :
    (s.setup toggles).2.session = s.sessions.length ∧
      (s.withSession (enabled toggles).length
        (if (s.setup toggles).2.barrier then some s.sessions.length else none)).Later
          (s.setup toggles).1 := by
  cases h : (enabled toggles).isEmpty with
  | true =>
    simp only [setup, h, if_true, finish]
    exact ⟨trivial, later_of_eq rfl rfl⟩
  | false =>
    simp only [setup, h, Bool.false_eq_true, if_false, if_true]
    refine ⟨trivial, ?_⟩
    let begun := s.withSession (enabled toggles).length (some s.sessions.length)
    have hphase : begun.Later { begun with phase := .resolving } := later_of_eq rfl rfl
    have hresolved := hphase.trans (later_resolveAll s.sessions.length _ (enabled toggles))
    exact hresolved.trans (later_of_eq rfl rfl)

end Sync

end FeatureFlow
