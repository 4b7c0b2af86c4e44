import FeatureFlow.Proofs.Sync.Accounting
import Mathlib.Data.List.Pairwise

/-!
# Late features

A barrier takes the ready list of its session with one call and marks the session as
reported with another one. Features that are settled before the first call are on the
list, and features that are fetched after the second one are late. A feature that is
settled between the two is neither (`isSome_ready_iff`).
-/

namespace FeatureFlow

def FeatureState.isLate : FeatureState → Bool
  | fetched _ late => late
  | fetching _ | cached _ | failed _ _ => false

namespace Settlement

/-- The feature that the settlement makes ready. -/
def readied? (x : Settlement) : Option String :=
  x.body?.map fun _ => x.wanted.feature

def readied (settled : List Settlement) : List String :=
  settled.filterMap readied?

def state (reported : Bool) : Settlement → FeatureState
  | cached wanted _ => .cached wanted.version
  | fetched wanted (.ok _) => .fetched wanted.version reported
  | fetched wanted (.error e) => .failed wanted.version e.message

variable {x y : Settlement} {settled : List Settlement} {name : String} {reported : Bool}

theorem readied?_cached (wanted : Sync.Wanted) (body : String) :
    (cached wanted body).readied? = some wanted.feature := rfl

theorem readied?_ok (wanted : Sync.Wanted) (body : String) :
    (fetched wanted (.ok body)).readied? = some wanted.feature := rfl

theorem readied?_error (wanted : Sync.Wanted) (e : FetchError) :
    (fetched wanted (.error e)).readied? = none := rfl

theorem readied?_eq_some (reported : Bool) :
    x.readied? = some name ↔ (x.state reported).isReady = true ∧ x.wanted.feature = name := by
  cases x with
  | cached wanted body => simp [readied?_cached, state, FeatureState.isReady, Settlement.wanted]
  | fetched wanted result =>
    cases result with
    | ok body => simp [readied?_ok, state, FeatureState.isReady, Settlement.wanted]
    | error e => simp [readied?_error, state, FeatureState.isReady]

theorem isLate_state (h : x.readied? = some name) :
    (x.state reported).isLate = (reported && !x.isCached) := by
  cases x with
  | cached wanted body => simp [state, FeatureState.isLate, isCached]
  | fetched wanted result =>
    cases result with
    | ok body => simp [state, FeatureState.isLate, isCached]
    | error e => cases h

theorem mem_readied : name ∈ readied settled ↔ ∃ x ∈ settled, x.readied? = some name :=
  List.mem_filterMap

theorem eq_of_readied? (hnodup : (readied settled).Nodup) (hx : x ∈ settled) (hy : y ∈ settled)
    (hxname : x.readied? = some name) (hyname : y.readied? = some name) : x = y := by
  let Apart (a b : Settlement) : Prop :=
    ∀ n, a.readied? = some n → ∀ m, b.readied? = some m → n ≠ m
  have hsymm : Std.Symm Apart := ⟨fun a b hab n hn m hm heq => hab m hm n hn heq.symm⟩
  have hapart : settled.Pairwise Apart := List.pairwise_filterMap.mp hnodup
  by_contra hne
  exact hapart.forall hx hy hne name hxname name hyname rfl

end Settlement

namespace Session

open Settlement (readied)

variable {s : Session} {name : String} {state : FeatureState}

def settleAll (s : Session) (settled : List Settlement) : Session :=
  settled.foldl settle s

theorem reported_settle (s : Session) (x : Settlement) :
    (s.settle x).reported = s.reported := by
  cases x with
  | cached wanted body => rfl
  | fetched wanted result => cases result <;> rfl

theorem reported_settleAll (s : Session) (settled : List Settlement) :
    (s.settleAll settled).reported = s.reported := by
  induction settled generalizing s with
  | nil => rfl
  | cons x rest ih => exact (ih (s.settle x)).trans (reported_settle s x)

theorem isSome_ready_settle (s : Session) (x : Settlement) (name : String) :
    ((s.settle x).ready.get? name).isSome = true ↔
      x.readied? = some name ∨ (s.ready.get? name).isSome = true := by
  have hmarked (wanted : Sync.Wanted) (body : String) (state : FeatureState) :
      ((s.markReady wanted.feature wanted.version body state).ready.get? name).isSome = true ↔
        wanted.feature = name ∨ (s.ready.get? name).isSome = true := by
    simp only [markReady, Table.get?_insert]
    by_cases hname : wanted.feature = name <;> simp [hname]
  cases x with
  | cached wanted body => exact (hmarked wanted body _).trans (by simp [Settlement.readied?_cached])
  | fetched wanted result =>
    cases result with
    | ok body => exact (hmarked wanted body _).trans (by simp [Settlement.readied?_ok])
    | error e => simp [settle, markFailed, Settlement.readied?_error]

theorem isSome_ready_settleAll (s : Session) (settled : List Settlement) (name : String) :
    ((s.settleAll settled).ready.get? name).isSome = true ↔
      (s.ready.get? name).isSome = true ∨ name ∈ readied settled := by
  induction settled generalizing s with
  | nil => simp [settleAll, readied]
  | cons x rest ih =>
    refine (ih (s.settle x)).trans ?_
    rw [isSome_ready_settle, Settlement.mem_readied, Settlement.mem_readied]
    simp only [List.exists_mem_cons_iff]
    tauto

theorem state?_settle (s : Session) (x : Settlement) (name : String) :
    (s.settle x).state? name =
      if x.wanted.feature = name then some (x.state s.reported) else s.state? name := by
  cases x with
  | cached wanted body => exact Table.get?_insert ..
  | fetched wanted result => cases result <;> exact Table.get?_insert ..

/-- A feature that ends as ready was made so by a settlement, or was ready before and is
not settled any more. -/
theorem state?_settleAll (settled : List Settlement)
    (h : (s.settleAll settled).state? name = some state) (hready : state.isReady = true) :
    (s.state? name = some state ∧ name ∉ readied settled) ∨
      ∃ x ∈ settled, x.readied? = some name ∧ state = x.state s.reported := by
  induction settled generalizing s with
  | nil => exact .inl ⟨h, List.not_mem_nil⟩
  | cons x rest ih =>
    rcases ih h with ⟨hbefore, hrest⟩ | ⟨y, hy, hname, hstate⟩
    · rw [state?_settle] at hbefore
      split at hbefore
      · rename_i hname
        obtain rfl := Option.some.inj hbefore
        exact .inr ⟨x, List.mem_cons_self, (Settlement.readied?_eq_some _).mpr ⟨hready, hname⟩, rfl⟩
      · rename_i hname
        refine .inl ⟨hbefore, fun hmem => ?_⟩
        obtain ⟨y, hy, hreadied⟩ := Settlement.mem_readied.mp hmem
        rcases List.mem_cons.mp hy with rfl | hy
        · exact hname ((Settlement.readied?_eq_some true).mp hreadied).2
        · exact hrest (Settlement.mem_readied.mpr ⟨y, hy, hreadied⟩)
    · rw [reported_settle] at hstate
      exact .inr ⟨y, List.mem_cons_of_mem x hy, hname, hstate⟩

-- ---------------------------------------------------------------------------
-- The two calls of a barrier
-- ---------------------------------------------------------------------------

/-- The session at the moment when its ready list is taken. -/
def taken (expected : Nat) (before : List Settlement) : Session :=
  (ofExpected expected).settleAll before

/-- The session after its report, with settlements between the two calls and later. -/
def reportedAmid (s : Session) (between after : List Settlement) : Session :=
  (s.settleAll between).markReported.settleAll after

theorem settled_of_reportedAmid (expected : Nat) (before between after : List Settlement)
    (h : ((taken expected before).reportedAmid between after).state? name = some state)
    (hready : state.isReady = true) :
    (∃ x ∈ after, x.readied? = some name ∧ state = x.state true) ∨
      ∃ x ∈ before ++ between, x.readied? = some name ∧ state = x.state false := by
  have hunreported : (taken expected before).reported = false := reported_settleAll ..
  rcases state?_settleAll after h hready with ⟨hkept, -⟩ | hafter
  · rcases state?_settleAll between hkept hready with ⟨hearly, -⟩ | ⟨x, hx, hname, hstate⟩
    · rcases state?_settleAll before hearly hready with ⟨hnone, -⟩ | ⟨x, hx, hname, hstate⟩
      · cases hnone
      · exact .inr ⟨x, List.mem_append_left _ hx, hname, hstate⟩
    · rw [hunreported] at hstate
      exact .inr ⟨x, List.mem_append_right _ hx, hname, hstate⟩
  · exact .inl hafter

/-- A late feature is not on the ready list. A feature that is not late is on it, unless it
was settled between the two calls of the barrier, or found in the cache after the report. -/
theorem isSome_ready_iff (expected : Nat) (before between after : List Settlement)
    (honce : (readied (before ++ between ++ after)).Nodup)
    (hstate : ((taken expected before).reportedAmid between after).state? name = some state)
    (hready : state.isReady = true) :
    (state.isLate = true → (taken expected before).ready.get? name = none) ∧
      (((taken expected before).ready.get? name).isSome = !state.isLate ↔
        name ∉ readied between ∧ name ∉ readied (after.filter (·.isCached))) := by
  have hlisted : ((taken expected before).ready.get? name).isSome = true ↔
      name ∈ readied before :=
    (isSome_ready_settleAll _ before name).trans (or_iff_right Bool.false_ne_true)
  simp only [readied, List.filterMap_append] at honce
  obtain ⟨hearly, hafter, hlate⟩ := List.nodup_append.mp honce
  obtain ⟨-, -, hapart⟩ := List.nodup_append.mp hearly
  rcases settled_of_reportedAmid expected before between after hstate hready with
    ⟨x, hx, hname, rfl⟩ | ⟨x, hx, hname, rfl⟩
  · have hmem : name ∈ readied after := Settlement.mem_readied.mpr ⟨x, hx, hname⟩
    have hbefore : name ∉ readied before := fun h =>
      hlate name (List.mem_append_left _ h) name hmem rfl
    have hbetween : name ∉ readied between := fun h =>
      hlate name (List.mem_append_right _ h) name hmem rfl
    have hcached : name ∈ readied (after.filter (·.isCached)) ↔ x.isCached = true := by
      rw [Settlement.mem_readied]
      constructor
      · rintro ⟨y, hy, hyname⟩
        obtain ⟨hyafter, hycached⟩ := List.mem_filter.mp hy
        rwa [Settlement.eq_of_readied? hafter hx hyafter hname hyname]
      · exact fun hxcached => ⟨x, List.mem_filter.mpr ⟨hx, hxcached⟩, hname⟩
    have hnone : (taken expected before).ready.get? name = none :=
      Option.not_isSome_iff_eq_none.mp (mt hlisted.mp hbefore)
    refine ⟨fun _ => hnone, ?_⟩
    rw [hnone, Settlement.isLate_state hname, hcached]
    simp [hbetween]
  · have hmem : name ∈ readied before ++ readied between := by
      have hx' := Settlement.mem_readied.mpr ⟨x, hx, hname⟩
      rwa [readied, List.filterMap_append] at hx'
    have hafter : name ∉ readied after := fun h => hlate name hmem name h rfl
    have hcached : name ∉ readied (after.filter (·.isCached)) := fun h =>
      hafter ((List.filter_sublist.filterMap _).subset h)
    rw [Settlement.isLate_state hname, Bool.false_and]
    refine ⟨fun h => (Bool.false_ne_true h).elim, ?_⟩
    rw [Bool.not_false, hlisted, and_iff_left hcached]
    exact ⟨fun hbefore hbetween => hapart name hbefore name hbetween rfl,
      (List.mem_append.mp hmem).resolve_right⟩

/-- Two features are on the list, one of them as the last thing before it is taken, and a
fetch that fails and one that is late come after the report. -/
theorem isSome_ready_iff_late :
    let before : List Settlement := [.cached ⟨"a", "1"⟩ "{}", .fetched ⟨"b", "1"⟩ (.ok "{}")]
    let after : List Settlement :=
      [.fetched ⟨"d", "1"⟩ (.error (.status "d/1" 404)), .fetched ⟨"c", "1"⟩ (.ok "{}")]
    let final := (taken 4 before).reportedAmid [] after
    (readied (before ++ [] ++ after)).Nodup ∧ final.state? "b" = some (.fetched "1" false) ∧
      ((taken 4 before).ready.get? "b").isSome = true ∧
      final.state? "c" = some (.fetched "1" true) ∧ (taken 4 before).ready.get? "c" = none := by
  intro before after final
  have honce : (readied (before ++ [] ++ after)).Nodup := by decide
  have hb : final.state? "b" = some (.fetched "1" false) := rfl
  have hc : final.state? "c" = some (.fetched "1" true) := rfl
  obtain ⟨-, hlisted⟩ := isSome_ready_iff 4 before [] after honce hb rfl
  obtain ⟨hunlisted, -⟩ := isSome_ready_iff 4 before [] after honce hc rfl
  exact ⟨honce, hb, hlisted.mpr (by decide), hc, hunlisted rfl⟩

/-- A feature that is fetched between the two calls is neither on the list nor late. -/
theorem unlisted_between_calls :
    ¬ ∀ (expected : Nat) (before between after : List Settlement) (name : String)
      (state : FeatureState), (readied (before ++ between ++ after)).Nodup →
      ((taken expected before).reportedAmid between after).state? name = some state →
      state.isReady = true → state.isLate = false →
      ((taken expected before).ready.get? name).isSome = true := by
  intro h
  have honce : (readied [.fetched ⟨"a", "1"⟩ (.ok "{}")]).Nodup := by decide
  have hlisted := h 1 [] [.fetched ⟨"a", "1"⟩ (.ok "{}")] [] "a" (.fetched "1" false) honce
    rfl rfl rfl
  exact Bool.false_ne_true hlisted

end Session

end FeatureFlow
