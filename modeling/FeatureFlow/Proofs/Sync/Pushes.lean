import FeatureFlow.Proofs.Sync.Phases
import Mathlib.Logic.Function.Iterate

/-!
# What a push makes of each feature

A push takes its features one by one, and each of them only looks at the current
session and at its own entry in the orchestrator. So the entry of a feature after a push
is its entry before, renewed as often as the push names it (`get?_activateAll`), and
nothing that the push says of other features has a part in it.
-/

namespace FeatureFlow

def Feature.registered (earlier : Option Feature) (manifest : Manifest) : Feature :=
  match earlier with
  | some feature => feature.renew manifest
  | none => .ofManifest manifest

theorem Feature.registered_outcome (earlier : Option Feature) (manifest : Manifest) :
    (registered earlier manifest).manifest = manifest ∧
      (registered earlier manifest).objects = ∅ := by
  cases earlier with
  | none => exact ⟨rfl, rfl⟩
  | some feature => exact ⟨rfl, rfl⟩

theorem Orchestrator.get?_register (o : Orchestrator) (manifest : Manifest) (name : String) :
    (o.register manifest).features.get? name =
      if manifest.feature = name then some (.registered (o.features.get? name) manifest)
      else o.features.get? name := by
  simp only [register, Table.get?_insert]
  by_cases hname : manifest.feature = name
  · subst hname
    rfl
  · rw [if_neg hname, if_neg hname]

namespace Sync

variable {session : Option Session} {o : Orchestrator} {name : String} {manifest : Manifest}

-- ---------------------------------------------------------------------------
-- One feature
-- ---------------------------------------------------------------------------

/-- The manifest that a session has for a feature, none where it holds no body or the
body does not parse. -/
def usable? (session : Option Session) (name : String) : Option Manifest :=
  (session.bind (·.manifest? name)).bind fun held => (Manifest.parse name held.body).toOption

theorem held_of_usable? (h : usable? session name = some manifest) :
    ∃ held, session.bind (·.manifest? name) = some held ∧
      Manifest.parse name held.body = .ok manifest := by
  obtain ⟨held, hheld, hparse⟩ := Option.bind_eq_some_iff.mp h
  refine ⟨held, hheld, ?_⟩
  cases hbody : Manifest.parse name held.body with
  | ok found =>
    rw [hbody] at hparse
    exact congrArg _ (Option.some.inj hparse)
  | error reason =>
    rw [hbody] at hparse
    cases hparse

theorem activate_eq_map (session : Option Session) (o : Orchestrator) (name : String) :
    activate session o name = (usable? session name).map o.register := by
  unfold activate usable?
  cases session.bind (·.manifest? name) with
  | none => rfl
  | some held =>
    dsimp only [Option.bind_some]
    cases Manifest.parse name held.body with
    | ok manifest => rfl
    | error reason => rfl

def renewed (session : Option Session) (name : String) (entry : Option Feature) :
    Option Feature :=
  match usable? session name with
  | none => entry
  | some manifest => some (.registered entry manifest)

theorem iterate_renewed_of_none (h : usable? session name = none) (times : Nat)
    (entry : Option Feature) : (renewed session name)^[times] entry = entry := by
  have hid : renewed session name = id := by
    funext entry
    rw [renewed, h]
    rfl
  rw [hid, Function.iterate_id]
  rfl

theorem iterate_renewed_of_some (h : usable? session name = some manifest) (hpos : 0 < times)
    (entry : Option Feature) :
    ∃ feature, (renewed session name)^[times] entry = some feature ∧
      feature.manifest = manifest ∧ feature.objects = ∅ := by
  obtain ⟨fewer, rfl⟩ := Nat.exists_eq_succ_of_ne_zero (Nat.ne_of_gt hpos)
  refine ⟨.registered ((renewed session name)^[fewer] entry) manifest, ?_,
    Feature.registered_outcome ..⟩
  rw [Function.iterate_succ_apply', renewed, h]

-- ---------------------------------------------------------------------------
-- All features of a push
-- ---------------------------------------------------------------------------

theorem activateAll_cons (session : Option Session) (o : Orchestrator) (name : String)
    (rest : List String) :
    activateAll session o (name :: rest) =
      match usable? session name with
      | none => activateAll session o rest
      | some manifest =>
        let (after, names) := activateAll session (o.register manifest) rest
        (after, name :: names) := by
  rw [activateAll, activate_eq_map]
  cases usable? session name with
  | none => rfl
  | some manifest => rfl

theorem names_activateAll (session : Option Session) (o : Orchestrator) (names : List String) :
    (activateAll session o names).2 =
      names.filter fun name => (usable? session name).isSome := by
  induction names generalizing o with
  | nil => rfl
  | cons name rest ih =>
    rw [activateAll_cons]
    cases h : usable? session name with
    | none => simpa [h] using ih o
    | some manifest => simpa [h] using ih (o.register manifest)

theorem get?_activateAll (session : Option Session) (o : Orchestrator) (names : List String)
    (name : String) :
    (activateAll session o names).1.features.get? name =
      (renewed session name)^[names.count name] (o.features.get? name) := by
  induction names generalizing o with
  | nil => rfl
  | cons first rest ih =>
    rw [activateAll_cons]
    cases h : usable? session first with
    | none =>
      refine (ih o).trans ?_
      by_cases hname : first = name
      · subst hname
        rw [iterate_renewed_of_none h, iterate_renewed_of_none h]
      · rw [List.count_cons_of_ne hname]
    | some manifest =>
      obtain ⟨held, -, hparse⟩ := held_of_usable? h
      have hfeature : manifest.feature = first := Manifest.feature_of_parse hparse
      refine (ih (o.register manifest)).trans ?_
      rw [Orchestrator.get?_register, hfeature]
      by_cases hname : first = name
      · subst hname
        rw [if_pos rfl, List.count_cons_self, Function.iterate_succ_apply, renewed, h]
      · rw [if_neg hname, List.count_cons_of_ne hname]

-- ---------------------------------------------------------------------------
-- Pushes
-- ---------------------------------------------------------------------------

theorem activated_push (s : Sync) (names : List String) :
    (s.push names).2 = names.filter fun name => (usable? s.currentSession? name).isSome := by
  refine Eq.trans ?_ (names_activateAll s.currentSession? s.orchestrator names)
  unfold push
  cases s.current with
  | none => rfl
  | some number => rfl

theorem get?_push (s : Sync) (names : List String) (name : String) :
    (s.push names).1.orchestrator.features.get? name =
      (renewed s.currentSession? name)^[names.count name]
        (s.orchestrator.features.get? name) := by
  rw [orchestrator_push]
  exact get?_activateAll ..

/-- A push activates the features that it names and whose manifest the current session
holds and can parse, with exactly this manifest and no data objects, and leaves every other
feature as it was. The session is over afterwards. What becomes of a feature hangs on how
often it is named and on nothing else in the list. -/
theorem push_outcome (s : Sync) (names : List String) :
    let after := (s.push names).1
    let activated := (s.push names).2
    activated = names.filter (fun name => (usable? s.currentSession? name).isSome) ∧
      (∀ name ∈ activated, ∃ held manifest feature,
        s.currentSession?.bind (·.manifest? name) = some held ∧
          Manifest.parse name held.body = .ok manifest ∧
          after.orchestrator.features.get? name = some feature ∧
          feature.manifest = manifest ∧ feature.objects = ∅) ∧
      (∀ name, name ∉ activated →
        after.orchestrator.features.get? name = s.orchestrator.features.get? name) ∧
      after.current = none ∧ after.phase = .synced ∧
      ∀ name others, others.count name = names.count name →
        (s.push others).2.count name = activated.count name ∧
          (s.push others).1.orchestrator.features.get? name =
            after.orchestrator.features.get? name := by
  intro after activated
  have hstanding := s.standing_push names
  have hactivated : activated = _ := s.activated_push names
  refine ⟨hactivated, fun name hname => ?registered, fun name hname => ?kept,
    congrArg Standing.current hstanding, congrArg Standing.phase hstanding,
    fun name others hcount => ⟨?names, ?entries⟩⟩
  case registered =>
    obtain ⟨hmem, husable⟩ := List.mem_filter.mp (hactivated ▸ hname)
    obtain ⟨manifest, hmanifest⟩ := Option.isSome_iff_exists.mp husable
    obtain ⟨held, hheld, hparse⟩ := held_of_usable? hmanifest
    obtain ⟨feature, hentry, hregistered⟩ := iterate_renewed_of_some hmanifest
      (List.count_pos_iff.mpr hmem) (s.orchestrator.features.get? name)
    exact ⟨held, manifest, feature, hheld, hparse, (s.get?_push names name).trans hentry,
      hregistered⟩
  case kept =>
    refine (s.get?_push names name).trans ?_
    by_cases hmem : name ∈ names
    · -- a name that is listed and not activated has no usable manifest
      refine iterate_renewed_of_none (Option.not_isSome_iff_eq_none.mp fun husable => ?_) _ _
      exact hname (hactivated ▸ List.mem_filter.mpr ⟨hmem, husable⟩)
    · rw [List.count_eq_zero_of_not_mem hmem]
      rfl
  case names =>
    rw [hactivated, activated_push]
    cases husable : (usable? s.currentSession? name).isSome with
    | true =>
      have hcounted (list : List String) :
          (list.filter fun name => (usable? s.currentSession? name).isSome).count name =
            list.count name := List.count_filter husable
      rw [hcounted, hcounted, hcount]
    | false =>
      have hnone (list : List String) :
          name ∉ list.filter fun name => (usable? s.currentSession? name).isSome := by
        simp [husable]
      rw [List.count_eq_zero_of_not_mem (hnone others),
        List.count_eq_zero_of_not_mem (hnone names)]
  case entries => rw [get?_push, get?_push, hcount]

/-- A session that holds one manifest and one body that is none, where an earlier session
has activated two features. -/
def holding : Sync :=
  let session := ((Session.ofExpected 2).markCached "a" "1" "\x7b\x7d").markCached "b" "1" "[]"
  let orchestrator := ((Orchestrator.ofRegistry .empty).register (.ofObject "a" [])).register
    (.ofObject "c" [])
  { Sync.start (.ofHome ["home"]) ⟨"cache"⟩ orchestrator .empty with
    sessions := [session], current := some 0, phase := .pendingSync }

/-- A name that is repeated, a body that does not parse, and features without a manifest. -/
theorem push_outcome_repeated :
    let names := ["ghost", "a", "b", "a", "c"]
    (holding.push names).2 = ["a", "a"] ∧ (holding.push names).1.phase = .synced ∧
      (holding.push names).1.orchestrator.features.get? "c" =
        holding.orchestrator.features.get? "c" ∧
      (holding.push ["a", "d", "a"]).1.orchestrator.features.get? "a" =
        (holding.push names).1.orchestrator.features.get? "a" := by
  intro names
  obtain ⟨-, -, hkept, -, hphase, hothers⟩ := holding.push_outcome names
  have hnames : (holding.push names).2 = ["a", "a"] := by decide +kernel
  have hunknown : "c" ∉ (holding.push names).2 := by
    rw [hnames]
    decide
  exact ⟨hnames, hphase, hkept "c" hunknown, (hothers "a" ["a", "d", "a"] (by decide)).2⟩

end Sync

end FeatureFlow
