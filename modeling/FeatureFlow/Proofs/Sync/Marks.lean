import FeatureFlow.Session
import Mathlib.Data.List.Induction

/-!
# Marks of a session

A session is told by marks what becomes of its features, in any order and as often as a
feature is listed. Its ready list and its manifests go by the last mark of a feature that
came with a body, and the state of the feature goes by its last mark of any kind
(`Session.Marked`). So the list and the manifests always agree, and the state agrees with
them where the last mark came with a body (`isReady_iff`).
-/

namespace FeatureFlow

/-- What a session is told about a feature, or that its ready list was taken. -/
inductive Mark where
  | fetching (feature version : String)
  | cached (feature version body : String)
  | fetched (feature version body : String)
  | failed (feature version reason : String)
  | reported

namespace Mark

def feature? : Mark → Option String
  | fetching feature _ | cached feature _ _ | fetched feature _ _ | failed feature _ _ =>
    some feature
  | reported => none

def held? (feature : String) : Mark → Option HeldManifest
  | cached name version body | fetched name version body =>
    if name = feature then some { version, body } else none
  | fetching _ _ | failed _ _ _ | reported => none

def state? (late : Bool) : Mark → Option FeatureState
  | fetching _ version => some (.fetching version)
  | cached _ version _ => some (.cached version)
  | fetched _ version _ => some (.fetched version late)
  | failed _ version reason => some (.failed version reason)
  | reported => none

def last? (feature : String) (marks : List Mark) : Option Mark :=
  (marks.filter (·.feature? = some feature)).getLast?

def lastHeld? (feature : String) (marks : List Mark) : Option HeldManifest :=
  (marks.filterMap (·.held? feature)).getLast?

variable {m : Mark} {marks : List Mark} {feature : String} {held : HeldManifest}

theorem last?_append (feature : String) (marks : List Mark) (m : Mark) :
    last? feature (marks ++ [m]) =
      if m.feature? = some feature then some m else last? feature marks := by
  unfold last?
  split <;> simp [List.filter_append, *]

theorem lastHeld?_append (feature : String) (marks : List Mark) (m : Mark) :
    lastHeld? feature (marks ++ [m]) = (m.held? feature).or (lastHeld? feature marks) := by
  unfold lastHeld?
  cases h : m.held? feature <;> simp [h, List.filterMap_append]

theorem feature?_of_held? (h : m.held? feature = some held) : m.feature? = some feature := by
  cases m with
  | cached name | fetched name =>
    by_cases hname : name = feature
    · exact congrArg some hname
    · simp [held?, hname] at h
  | fetching | failed | reported => cases h

theorem feature?_of_last? (h : last? feature marks = some m) : m.feature? = some feature := by
  have hmem : m ∈ marks.filter (·.feature? = some feature) := List.mem_of_getLast? h
  simpa using (List.mem_filter.mp hmem).2

theorem getLast?_eq_of_forall {items : List α} {x : α} (hx : x ∈ items)
    (honly : ∀ y ∈ items, y = x) : items.getLast? = some x := by
  cases hlast : items.getLast? with
  | none => simp [List.getLast?_eq_none_iff.mp hlast] at hx
  | some y => rw [honly y (List.mem_of_getLast? hlast)]

theorem last?_of_mem (hm : m ∈ marks) (hfeature : m.feature? = some feature)
    (honce : ∀ x ∈ marks, x.feature? = some feature → x = m) : last? feature marks = some m := by
  refine getLast?_eq_of_forall (List.mem_filter.mpr ⟨hm, by simpa using hfeature⟩) fun x hx => ?_
  obtain ⟨hmem, hsame⟩ := List.mem_filter.mp hx
  exact honce x hmem (by simpa using hsame)

theorem lastHeld?_of_last? (hlast : last? feature marks = some m)
    (hheld : m.held? feature = some held) : lastHeld? feature marks = some held := by
  induction marks using List.reverseRecOn with
  | nil => cases hlast
  | append_singleton marks x ih =>
    rw [last?_append] at hlast
    rw [lastHeld?_append]
    split at hlast
    · obtain rfl := Option.some.inj hlast
      rw [hheld]
      rfl
    · rename_i hother
      have hnone : x.held? feature = none :=
        Option.eq_none_iff_forall_ne_some.mpr fun _ h => hother (feature?_of_held? h)
      rw [hnone, ih hlast]
      rfl

theorem isReady_state?_iff (late : Bool) (hfeature : m.feature? = some feature)
    (version : String) :
    (∃ state, m.state? late = some state ∧ state.isReady = true ∧ state.version = version) ↔
      ∃ body, m.held? feature = some { version, body } := by
  cases m with
  | cached name | fetched name =>
    obtain rfl : name = feature := Option.some.inj hfeature
    simp [state?, held?, FeatureState.isReady, FeatureState.version]
  | fetching | failed => simp [state?, held?, FeatureState.isReady]
  | reported => cases hfeature

end Mark

namespace Session

open Mark (last? lastHeld?)

variable {s : Session} {marks : List Mark}

def mark (s : Session) : Mark → Session
  | .fetching feature version => s.markFetching feature version
  | .cached feature version body => s.markCached feature version body
  | .fetched feature version body => s.markFetched feature version body
  | .failed feature version reason => s.markFailed feature version reason
  | .reported => s.markReported

def markAll (s : Session) (marks : List Mark) : Session :=
  marks.foldl mark s

structure Marked (s : Session) (marks : List Mark) : Prop where
  ready : ∀ feature, s.ready.get? feature = (lastHeld? feature marks).map (·.version)
  held : ∀ feature, s.manifest? feature = lastHeld? feature marks
  state : ∀ feature, ∃ late, s.state? feature = (last? feature marks).bind (·.state? late)

theorem marked_ofExpected (expected : Nat) : (ofExpected expected).Marked [] :=
  ⟨fun _ => rfl, fun _ => rfl, fun _ => ⟨false, rfl⟩⟩

theorem ready_mark (s : Session) (m : Mark) (feature : String) :
    (s.mark m).ready.get? feature =
      ((m.held? feature).map (·.version)).or (s.ready.get? feature) := by
  cases m with
  | cached name | fetched name =>
    refine (Table.get?_insert ..).trans ?_
    by_cases hname : name = feature <;> simp [Mark.held?, hname]
  | fetching | failed | reported => rfl

theorem manifest?_mark (s : Session) (m : Mark) (feature : String) :
    (s.mark m).manifest? feature = (m.held? feature).or (s.manifest? feature) := by
  cases m with
  | cached name | fetched name =>
    refine (Table.get?_insert ..).trans ?_
    by_cases hname : name = feature <;> simp [Mark.held?, hname, manifest?]
  | fetching | failed | reported => rfl

theorem state?_mark (s : Session) (m : Mark) (feature : String) :
    (s.mark m).state? feature =
      if m.feature? = some feature then m.state? s.reported else s.state? feature := by
  cases m with
  | reported => rfl
  | fetching | cached | fetched | failed =>
    refine (Table.get?_insert ..).trans ?_
    simp only [Mark.feature?, Mark.state?, Option.some.injEq, state?]

theorem Marked.mark (h : s.Marked marks) (m : Mark) : (s.mark m).Marked (marks ++ [m]) where
  ready feature := by
    rw [ready_mark, Mark.lastHeld?_append, h.ready]
    cases m.held? feature <;> rfl
  held feature := by rw [manifest?_mark, Mark.lastHeld?_append, h.held]
  state feature := by
    rw [state?_mark, Mark.last?_append]
    split
    · exact ⟨s.reported, rfl⟩
    · exact h.state feature

theorem Marked.markAll (h : s.Marked marks) (more : List Mark) :
    (s.markAll more).Marked (marks ++ more) := by
  induction more generalizing s marks with
  | nil => exact (List.append_nil marks).symm ▸ h
  | cons m rest ih =>
    rw [List.append_cons]
    exact ih (h.mark m)

/-- A feature is on the ready list with a version exactly where the session holds a manifest
of this version. It is in a ready state with a version exactly where it is on the list with
it and its last mark came with a body. No feature gets on the list without such a mark. -/
theorem isReady_iff (expected : Nat) (marks : List Mark) (feature version : String) :
    let s := (ofExpected expected).markAll marks
    (s.ready.get? feature = some version ↔
        ∃ body, s.manifest? feature = some { version, body }) ∧
      ((∃ state, s.state? feature = some state ∧ state.isReady = true ∧
          state.version = version) ↔
        s.ready.get? feature = some version ∧
          ∃ m, last? feature marks = some m ∧ (m.held? feature).isSome = true) ∧
      (s.ready.get? feature = some version →
        ∃ m ∈ marks, ∃ body, m.held? feature = some { version, body }) := by
  intro s
  have hmarked : s.Marked marks := (marked_ofExpected expected).markAll marks
  have hready : s.ready.get? feature = some version ↔
      ∃ body, lastHeld? feature marks = some { version, body } := by
    rw [hmarked.ready]
    constructor
    · intro h
      obtain ⟨held, hheld, rfl⟩ := Option.map_eq_some_iff.mp h
      exact ⟨held.body, hheld⟩
    · rintro ⟨body, hheld⟩
      rw [hheld]
      rfl
  refine ⟨?list, ?state, ?origin⟩
  case list => rw [hready, hmarked.held]
  case state =>
    obtain ⟨late, hstate⟩ := hmarked.state feature
    rw [hstate, hready]
    cases hlast : last? feature marks with
    | none => simp
    | some m =>
      rw [Option.bind_some, Mark.isReady_state?_iff late (Mark.feature?_of_last? hlast)]
      constructor
      · rintro ⟨body, hheld⟩
        exact ⟨⟨body, Mark.lastHeld?_of_last? hlast hheld⟩, m, rfl, by rw [hheld]; rfl⟩
      · rintro ⟨⟨body, hbody⟩, _, hm, hsome⟩
        obtain rfl := Option.some.inj hm
        obtain ⟨held, hheld⟩ := Option.isSome_iff_exists.mp hsome
        obtain rfl := Option.some.inj ((Mark.lastHeld?_of_last? hlast hheld).symm.trans hbody)
        exact ⟨body, hheld⟩
  case origin =>
    intro h
    obtain ⟨body, hbody⟩ := hready.mp h
    obtain ⟨m, hmem, hheld⟩ := List.mem_filterMap.mp (List.mem_of_getLast? hbody)
    exact ⟨m, hmem, body, hheld⟩

/-- A feature that is listed with two versions is fetched again, and then fails, while the
session holds the other version of it. -/
theorem ready_before_failed :
    (¬ ∀ (expected : Nat) (marks : List Mark) (feature version : String),
      let s := (ofExpected expected).markAll marks
      s.ready.get? feature = some version →
        ∃ state, s.state? feature = some state ∧ state.isReady = true ∧
          state.version = version) ∧
      ¬ ∀ (expected : Nat) (marks : List Mark) (feature version reason : String),
        last? feature marks = some (.failed feature version reason) →
          ((ofExpected expected).markAll marks).ready.get? feature = none := by
  refine ⟨fun h => ?fetching, fun h => ?failed⟩
  case fetching =>
    obtain ⟨state, hstate, hready, -⟩ := h 2 [.cached "a" "1" "{}", .fetching "a" "2"] "a" "1" rfl
    obtain rfl := Option.some.inj hstate
    cases hready
  case failed =>
    have hnone := h 2 [.cached "a" "1" "{}", .fetching "a" "2", .failed "a" "2" "404"] "a" "2"
      "404" rfl
    cases hnone

end Session

end FeatureFlow
