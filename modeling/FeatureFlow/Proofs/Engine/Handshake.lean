import FeatureFlow.Proofs.Engine.Conversation

/-!
# Answers to ready lists

No message carries the number of a session, so an answer counts for whatever
session is current. The answer to the newest list finds every feature it names,
as long as no other push came in since that session began (`answer_newest`). An
answer that comes in late takes the place of the one that is still owed
(`late_answer_ends_newest`).
-/

namespace FeatureFlow.Conversation

-- ---------------------------------------------------------------------------
-- An engine whose fetches take no time
-- ---------------------------------------------------------------------------

/-- Every fetch gives the same body at once. -/
def prompt (body : String) : EngineParts :=
  { settings := .default, catalogue := .builtIn, link := .connected, experiments := []
    elements := .empty, files := .ofHome ["home"]
    fetcher := some fun _ _ _ => { delay := 0, result := .ok body } }

def prompted (body : String) : Engine :=
  let parts := prompt body
  let files := (parts.files.makeDirectories parts.settings.cacheDirectory).2
  let orchestrator : Orchestrator :=
    { features := ∅, registry := .ofCatalogue parts.catalogue, link := parts.link
      maxSteps := parts.settings.maxSteps }
  let sync := Sync.start files { directory := parts.settings.cacheDirectory } orchestrator .empty
  { schedule := .ofSync sync (fun _ _ _ => { delay := 0, result := .ok body }) parts.settings.timing
    settings := parts.settings, experiments := [], barrier := none, inbound := .none }

theorem bootstrap_prompt (body : String) :
    Engine.bootstrap (prompt body) = .ok (prompted body) := by
  have hmade : ((Files.ofHome ["home"]).makeDirectories Settings.default.cacheDirectory).1.isOk =
      true := by
    decide +kernel
  simp only [Engine.bootstrap, prompt, prompted, pure_bind]
  generalize (Files.ofHome ["home"]).makeDirectories Settings.default.cacheDirectory = made at *
  obtain ⟨_ | _, files⟩ := made
  · cases hmade
  · rfl

/-- One session after the other, each up to its report. -/
def overlapping : List Event :=
  [.startSync [.enabled "old" "1"], .turn 1, .turn 1,
    .startSync [.enabled "new" "1"], .turn 2, .turn 2]

-- ---------------------------------------------------------------------------
-- Answers
-- ---------------------------------------------------------------------------

variable {c : Conversation}

theorem currentSession?_of_current {s : Sync} (h : s.current = some n) :
    s.currentSession? = s.session? n := by
  rw [Sync.currentSession?, h]
  rfl

theorem orchestrator_answer (howed : c.owed[index]? = some o) (hnamed : features ⊆ o.ready) :
    (c.handle (.answer index features)).sync.orchestrator =
      (Sync.activateAll c.sync.currentSession? c.sync.orchestrator features).1 := by
  simp only [handle, answer, howed, if_pos hnamed]
  have hstate := congrArg Outcome.state (c.sync.onMessage_activeFeatures features)
  exact (congrArg Sync.orchestrator hstate).trans (c.sync.orchestrator_push features)

theorem Sound.manifest_answer (h : Sound c) (howed : c.owed[index]? = some o)
    (hnewest : o.session + 1 = c.sync.sessions.length) (hpushed : c.pushed = false)
    (hnamed : features ⊆ o.ready) :
    ∃ session, c.sync.session? o.session = some session ∧
      ∀ feature ∈ features, ∃ held, session.manifest? feature = some held ∧
        (Cache.isManifest held.body = true →
          ∃ manifest, Manifest.parse feature held.body = .ok manifest ∧
            (c.handle (.answer index features)).sync.orchestrator.manifest? feature =
              some manifest) := by
  have hmem : o ∈ c.owed := List.mem_of_getElem? howed
  obtain ⟨session, hsession, -, hheld⟩ := h.owed o hmem
  refine ⟨session, hsession, fun feature hfeature => ?_⟩
  obtain ⟨held, hmanifest⟩ := hheld feature (hnamed hfeature)
  refine ⟨held, hmanifest, fun hbody => ?_⟩
  obtain ⟨manifest, hparse⟩ := Manifest.parse_of_isManifest feature hbody
  refine ⟨manifest, hparse, ?_⟩
  have hcurrent := h.owesCurrent hpushed o hmem hnewest
    (List.ne_nil_of_mem (hnamed hfeature))
  have hfound : (some session).bind (·.manifest? feature) = some held := hmanifest
  rw [orchestrator_answer howed hnamed, currentSession?_of_current hcurrent, hsession]
  exact Sync.manifest?_activateAll hfound hparse features (.inr hfeature)

/-- The answer to the newest ready list finds a manifest for each feature it
names, and registers it where it is a JSON object, unless another push came in
since the session began. -/
theorem answer_newest {parts : EngineParts} {e : Engine} (h : Engine.bootstrap parts = .ok e)
    (events : List Event) (howed : ((start e).run events).owed[index]? = some o)
    (hnewest : o.session + 1 = ((start e).run events).sync.sessions.length)
    (hpushed : ((start e).run events).pushed = false) (hnamed : features ⊆ o.ready) :
    let c := (start e).run events
    ∃ session, c.sync.session? o.session = some session ∧
      ∀ feature ∈ features, ∃ held, session.manifest? feature = some held ∧
        (Cache.isManifest held.body = true →
          ∃ manifest, Manifest.parse feature held.body = .ok manifest ∧
            (c.handle (.answer index features)).sync.orchestrator.manifest? feature =
              some manifest) :=
  ((sound_start h).run events).manifest_answer howed hnewest hpushed hnamed

/-- The newer list is answered while the older one is still owed. -/
theorem answer_newest_overlapping :
    Engine.bootstrap (prompt "{}") = .ok (prompted "{}") ∧
      ((start (prompted "{}")).run overlapping).owed = [⟨0, ["old"]⟩, ⟨1, ["new"]⟩] ∧
      ((start (prompted "{}")).run overlapping).sync.sessions.length = 2 ∧
      ((start (prompted "{}")).run overlapping).pushed = false ∧
      ∃ manifest, Manifest.parse "new" "{}" = .ok manifest ∧
        (((start (prompted "{}")).run overlapping).handle
          (.answer 1 ["new"])).sync.orchestrator.manifest? "new" = some manifest := by
  have howed : ((start (prompted "{}")).run overlapping).owed =
      [⟨0, ["old"]⟩, ⟨1, ["new"]⟩] := by
    decide +kernel
  have hlength : ((start (prompted "{}")).run overlapping).sync.sessions.length = 2 := by
    decide +kernel
  have hpushed : ((start (prompted "{}")).run overlapping).pushed = false := by
    decide +kernel
  have hsecond : ((start (prompted "{}")).run overlapping).owed[1]? = some ⟨1, ["new"]⟩ := by
    rw [howed]
    rfl
  obtain ⟨session, hsession, hall⟩ := answer_newest (bootstrap_prompt "{}") overlapping hsecond
    hlength.symm hpushed (List.Subset.refl ["new"])
  obtain ⟨held, hheld, hregistered⟩ := hall "new" (by decide)
  have hbody : ((((start (prompted "{}")).run overlapping).sync.session? 1).bind
      (·.manifest? "new")).map (·.body) = some "{}" := by
    decide +kernel
  have hsame : held.body = "{}" := by simpa [hsession, hheld] using hbody
  rw [hsame] at hregistered
  exact ⟨bootstrap_prompt "{}", howed, hlength, hpushed, hregistered (by decide +kernel)⟩

/-- The answer to the newest list registers each feature it names. -/
def Activates (c : Conversation) : Prop :=
  ∀ index o features, c.owed[index]? = some o → o.session + 1 = c.sync.sessions.length →
    features ⊆ o.ready → ∀ feature ∈ features,
      ((c.handle (.answer index features)).sync.orchestrator.manifest? feature).isSome = true

/-- The answer to an older list leaves the newest session alone. -/
def Spares (c : Conversation) : Prop :=
  ∀ index o features, c.owed[index]? = some o → o.session + 1 < c.sync.sessions.length →
    features ⊆ o.ready → (c.handle (.answer index features)).sync.current = c.sync.current

/-- Both ways in which the answer to the newest list fails to register what it
names: a late answer has ended the session, or a body is no manifest. -/
theorem late_answer_ends_newest :
    Engine.bootstrap (prompt "{}") = .ok (prompted "{}") ∧
      ¬ ((start (prompted "{}")).run overlapping).Spares ∧
      ¬ ((start (prompted "{}")).run (overlapping ++ [.answer 0 ["old"]])).Activates ∧
      Engine.bootstrap (prompt "[]") = .ok (prompted "[]") ∧
      ¬ ((start (prompted "[]")).run (overlapping.take 3)).Activates := by
  refine ⟨bootstrap_prompt _, fun hspares => ?late, fun hactivates => ?lost, bootstrap_prompt _,
    fun hactivates => ?unreadable⟩
  case late =>
    have hsame := hspares 0 ⟨0, ["old"]⟩ ["old"] (by decide +kernel) (by decide +kernel)
      (by decide)
    have hbefore : ((start (prompted "{}")).run overlapping).sync.current = some 1 := by
      decide +kernel
    have hafter : (((start (prompted "{}")).run overlapping).handle
        (.answer 0 ["old"])).sync.current = none := by
      decide +kernel
    simp [hsame, hbefore] at hafter
  case lost =>
    have hnew := hactivates 0 ⟨1, ["new"]⟩ ["new"] (by decide +kernel) (by decide +kernel)
      (by decide) "new" (by decide)
    revert hnew
    decide +kernel
  case unreadable =>
    have hold := hactivates 0 ⟨0, ["old"]⟩ ["old"] (by decide +kernel) (by decide +kernel)
      (by decide) "old" (by decide)
    revert hold
    decide +kernel

end FeatureFlow.Conversation
