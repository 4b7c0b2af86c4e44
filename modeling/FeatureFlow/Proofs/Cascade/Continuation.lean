import FeatureFlow.Proofs.Cascade.Budget
import FeatureFlow.Registry.Standard

/-!
# Cascades from their second step on

A cascade performs its first component and then follows what that emitted. Following outputs
is an operation of its own, and from the state that the first component leaves it goes on as
the cascade does, with the budget that is left (`performStep_of_performOne`).
-/

namespace FeatureFlow

theorem Table.insert_insert (table : Table α) (key : String) (first second : α) :
    (table.insert key first).insert key second = table.insert key second := by
  refine ext_get? fun other => ?_
  simp only [get?_insert]
  split <;> rfl

namespace Cascade.Setting

variable {s : Setting} {step : Step} {p : Performed} {a b : Inventory}

theorem run_start_of_perform (hperform : (s.perform step).run a = (some p, b)) (budget : Nat) :
    (s.start (budget + 1) step).run a =
      let (rest, after) := (s.run budget (s.next p)).run b
      ((some p.component, s.extend step p rest), after) := by
  rw [start, Building.run_bind, hperform]
  rfl

theorem next_of_ok (h : p.performance.result = .ok outputs) :
    s.next p = s.follow p.component.key outputs := by
  rw [next, h]

theorem record_of_ok (h : p.performance.result = .ok outputs) :
    s.record step p = { feature := s.manifest.feature, component := step.key
                        result := .ok (outputs.map (·.1)) } := by
  rw [record, h]
  rfl

end Cascade.Setting

namespace Orchestrator

open Cascade (Setting Step)

variable {o : Orchestrator} {f : Feature} {d : ComponentDefinition} {p : Setting.Performed}

/-- Builds and performs one component of a feature and follows nothing. -/
def performOne (o : Orchestrator) (feature : String) (f : Feature) (step : Step) (log : Bool) :
    Outcome Orchestrator (Option Setting.Performed) :=
  let (performed, state) := o.within feature f ((o.setting f log).perform step)
  { answer := performed, state
    sent := (performed.map (·.performance.sent)).getD [], reports := [] }

/-- A cascade whose first component can be built and emits outputs is the performing of that
component, under the key of its entry, and then the following of its outputs, under the key
it goes by, with the budget less one. Both send the same messages and leave the same state. -/
theorem performStep_of_performOne (hf : o.features.get? feature = some f)
    (hd : f.manifest.component? key = some d)
    (hone : (o.performOne feature f { key, definition := d, payload } log).answer = some p)
    (hok : p.performance.result = .ok outputs) (n : Nat) :
    let whole := (o.withMaxSteps (n + 1)).performStep feature payload key log
    let parts := (o.performOne feature f { key, definition := d, payload } log).andThen
      fun _ after => (after.withMaxSteps n).completePerform feature outputs p.component.key log
    whole.answer.1 = some p.component ∧
      whole.answer.2.records =
        { feature := f.manifest.feature, component := key, result := .ok (outputs.map (·.1)) } ::
          parts.answer.records ∧
      whole.answer.2.truncated = parts.answer.truncated ∧ whole.sent = parts.sent ∧
      whole.state = parts.state.withMaxSteps (n + 1) := by
  intro whole parts
  let s := o.setting f log
  let step : Step := { key, definition := d, payload }
  generalize hperform : (s.perform step).run { objects := f.objects, registry := o.registry } =
    outcome
  obtain ⟨performed, middle⟩ := outcome
  have hperformed : (o.performOne feature f step log).answer = performed :=
    congrArg (·.1) hperform
  obtain rfl : performed = some p := hperformed.symm.trans hone
  let reached : Orchestrator := { o with
    features := o.features.insert feature { f with objects := middle.objects }
    registry := middle.registry }
  have hfirst : o.performOne feature f step log =
      { answer := some p, state := reached, sent := p.performance.sent, reports := [] } := by
    simp only [performOne, within]
    rw [hperform]
    rfl
  -- what follows runs on what the component left, in the cascade and on its own
  generalize hrest : (s.run n (s.follow p.component.key outputs)).run middle = result
  obtain ⟨trace, left⟩ := result
  have hstart := Setting.run_start_of_perform hperform n
  rw [Setting.next_of_ok hok, hrest] at hstart
  have hstep : s.step? payload key = some step := congrArg (Option.map _) hd
  have hwhole : whole = _ :=
    performStep_eq_reported (o := o.withMaxSteps (n + 1)) hf hstep hstart
  have hlater : (reached.withMaxSteps n).completePerform feature outputs p.component.key log =
      (reached.withMaxSteps n).reported feature { f with objects := middle.objects }
        p.component.key (trace, left) := by
    rw [← hrest]
    exact completePerform_eq_reported (Table.get?_insert_self ..) outputs p.component.key log
  have hparts : parts = (o.performOne feature f step log).andThen fun _ after =>
      (after.withMaxSteps n).completePerform feature outputs p.component.key log := rfl
  rw [hwhole, hparts, hfirst, Outcome.andThen, hlater]
  refine ⟨rfl, ?_, rfl, rfl, ?_⟩
  · exact congrArg (· :: trace.records) (Setting.record_of_ok hok)
  · simp only [Outcome.map, reported, withMaxSteps, reached, Table.insert_insert]

/-- A start that goes by the key of another component, which routes back to it. -/
def roundabout : Json.Object :=
  let node (key typeName : String) (more : Json.Object) : Json :=
    .object ([("keyName", .text key), ("typeName", .text typeName)] ++ more)
  [("componentConfigs", .array
      [node "start" "ScriptComponent"
        [("props", .object [("about", .text "\x7bbox\x7d"), ("alias", .text "exit")])],
        node "exit" "RelayComponent" [("outputs", .object [("ok", .texts ["tell", "start"])])],
        node "tell" "" [("owner", .text "server")]]),
    ("dataObjectConfigs", .array [node "box" "ValueDataObject" []]),
    ("providerConfigs", .array
      [node "components" "ComponentProvider" [], node "data" "ServerDataProvider" []])]

def ring : Feature :=
  .ofManifest (.ofObject "ring" roundabout)

def rounds : Orchestrator :=
  { ofRegistry (.ofCatalogue .trial) with link := .connected }.register ring.manifest

theorem isSome_component?_ring : (ring.manifest.component? "start").isSome := by
  decide +kernel

theorem performStep_of_performOne_roundabout :
    let whole := (rounds.withMaxSteps 4).performStep "ring" .null "start" false
    rounds.features.get? "ring" = some ring ∧
      whole.answer.2.executed = ["start", "tell", "start", "tell"] ∧
      whole.answer.2.truncated = true ∧ whole.sent.length = 2 ∧
      ∃ d p outputs, ring.manifest.component? "start" = some d ∧
        let one := rounds.performOne "ring" ring
          { key := "start", definition := d, payload := .null } false
        one.answer = some p ∧ p.performance.result = .ok outputs ∧ p.component.key = "exit" ∧
          (one.state.dataObject? "ring" "box").isSome ∧
          whole.answer.2.records =
            { feature := "ring", component := "start", result := .ok (outputs.map (·.1)) } ::
              ((one.state.withMaxSteps 3).completePerform "ring" outputs "exit"
                false).answer.records := by
  intro whole
  have hf : rounds.features.get? "ring" = some ring := by rfl
  let d := (ring.manifest.component? "start").get isSome_component?_ring
  have hd : ring.manifest.component? "start" = some d := (Option.some_get _).symm
  let one := rounds.performOne "ring" ring
    { key := "start", definition := d, payload := .null } false
  have hone : (one.answer.bind fun p =>
      p.performance.result.toOption.map fun _ => p.component.key) = some "exit" := by
    decide +kernel
  obtain ⟨p, hp, hresult⟩ := Option.bind_eq_some_iff.mp hone
  obtain ⟨outputs, hoption, hkey⟩ := Option.map_eq_some_iff.mp hresult
  have hok : p.performance.result = .ok outputs := by
    cases h : p.performance.result with
    | error e => simp [h, Except.toOption] at hoption
    | ok found => simpa [h, Except.toOption] using hoption
  obtain ⟨-, hrecords, -⟩ := performStep_of_performOne hf hd hp hok 3
  refine ⟨hf, by decide +kernel, by decide +kernel, by decide +kernel, d, p, outputs, hd, hp, hok,
    hkey, by decide +kernel, ?_⟩
  rw [← hkey]
  exact hrecords

end Orchestrator

end FeatureFlow
