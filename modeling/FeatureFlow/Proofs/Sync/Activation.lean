import FeatureFlow.Proofs.Decoding
import FeatureFlow.Sync

/-!
# Pushes and ready lists

The messages of the handshake read back as what they were written from, and a
push registers each feature it names for which the current session holds a
manifest that parses (`manifest?_push`).
-/

namespace FeatureFlow

-- ---------------------------------------------------------------------------
-- Messages of the handshake
-- ---------------------------------------------------------------------------

namespace ServerMessage

theorem parse_activeFeatures (features : List String) :
    (activeFeatures features).parse ActiveFeaturesPush.decode = .ok { features } := by
  have hlist : Decode.list Decode.text (.texts features) = .ok features :=
    Decode.list_texts features
  have hfields : Decode.checkFields ActiveFeaturesPush.rules
      (activeFeatures features).properties = .ok () := by
    simp [activeFeatures, ActiveFeaturesPush.rules, Decode.checkFields, Decode.checkField,
      Decode.rule, Decode.checkPresent, hlist]
    rfl
  simp only [parse, ActiveFeaturesPush.decode, Decode.record, hfields, bind, Except.bind, pure,
    Except.pure]
  simp only [activeFeatures, Decode.defaulted, Fields.get?, if_true, hlist]

theorem ready?_readyList (ready : Table String) : (readyList ready).ready? = some ready.keys := by
  simp [ready?, readyList, get?, Fields.get?, Json.ofTable, Json.object?, Fields.keys, Table.keys,
    Function.comp_def]

end ServerMessage

-- ---------------------------------------------------------------------------
-- Activation
-- ---------------------------------------------------------------------------

namespace Manifest

theorem feature_of_parse {name : String} (h : parse name text = .ok manifest) :
    manifest.feature = name := by
  unfold parse at h
  split at h
  · rename_i root _
    cases root with
    | object fields => exact Except.ok.inj h ▸ rfl
    | _ => cases h
  · cases h

theorem parse_of_isManifest (feature : String) (h : Cache.isManifest text = true) :
    ∃ manifest, parse feature text = .ok manifest := by
  obtain ⟨root, hroot⟩ := Option.isSome_iff_exists.mp h
  obtain ⟨json, hjson, hobject⟩ := Option.bind_eq_some_iff.mp hroot
  unfold parse
  rw [hjson]
  cases json with
  | object fields => exact ⟨_, rfl⟩
  | _ => simp [Json.object?] at hobject

end Manifest

theorem Orchestrator.manifest?_register (o : Orchestrator) (manifest : Manifest) (name : String) :
    (o.register manifest).manifest? name =
      if manifest.feature = name then some manifest else o.manifest? name := by
  simp only [manifest?, register, Table.get?_insert]
  split
  · cases o.features.get? manifest.feature <;> rfl
  · rfl

namespace Sync

variable {session : Option Session} {o : Orchestrator} {feature : String}

theorem activate_of_parse (o : Orchestrator)
    (hheld : session.bind (·.manifest? feature) = some held)
    (hparse : Manifest.parse feature held.body = .ok manifest) :
    activate session o feature = some (o.register manifest) := by
  simp only [activate, hheld, hparse]

theorem manifest?_of_activate (h : activate session o name = some after) (hne : name ≠ feature) :
    after.manifest? feature = o.manifest? feature := by
  unfold activate at h
  split at h
  · cases h
  · split at h
    · rename_i hparse
      obtain rfl := Option.some.inj h
      rw [Orchestrator.manifest?_register, Manifest.feature_of_parse hparse, if_neg hne]
    · cases h

theorem manifest?_activateAll (hheld : session.bind (·.manifest? feature) = some held)
    (hparse : Manifest.parse feature held.body = .ok manifest) (names : List String)
    (h : o.manifest? feature = some manifest ∨ feature ∈ names) :
    (activateAll session o names).1.manifest? feature = some manifest := by
  induction names generalizing o with
  | nil => simpa [activateAll] using h
  | cons name rest ih =>
    rw [activateAll]
    cases hactivate : activate session o name with
    | none =>
      refine ih (h.imp_right fun hmem => ?_)
      rcases List.mem_cons.mp hmem with rfl | hrest
      · simp [activate_of_parse o hheld hparse] at hactivate
      · exact hrest
    | some after =>
      refine ih ?_
      by_cases hname : name = feature
      · subst hname
        obtain rfl := Option.some.inj ((activate_of_parse o hheld hparse).symm.trans hactivate)
        have hfeature := Manifest.feature_of_parse hparse
        exact .inl (by rw [Orchestrator.manifest?_register, if_pos hfeature])
      · rw [manifest?_of_activate hactivate hname]
        exact h.imp_right fun hmem => (List.mem_cons.mp hmem).resolve_left (Ne.symm hname)

theorem onMessage_activeFeatures (s : Sync) (features : List String) :
    s.onMessage (.activeFeatures features) = .quiet (s.push features).1 () := by
  simp only [onMessage, onSyncMessage, ServerMessage.parse_activeFeatures]
  rfl

theorem sessions_push (s : Sync) (features : List String) :
    (s.push features).1.sessions = s.sessions := by
  unfold push
  cases s.current with
  | none => rfl
  | some number =>
    simp only [finish]
    split <;> rfl

/-- A push ends the session that is current, whatever it answers. -/
theorem current_push (s : Sync) (features : List String) :
    (s.push features).1.current = none := by
  unfold push
  cases s.current with
  | none => rfl
  | some number => simp [finish]

theorem orchestrator_push (s : Sync) (features : List String) :
    (s.push features).1.orchestrator =
      (activateAll s.currentSession? s.orchestrator features).1 := by
  unfold push
  cases s.current with
  | none => rfl
  | some number =>
    simp only [finish]
    split <;> rfl

end Sync

end FeatureFlow
