import FeatureFlow.Proofs.Features.Locality
import FeatureFlow.Registry.Standard

/-!
# Triggers

A trigger takes the features as they are when it comes and runs its component in each of them
(`triggerSteps`). That is the same as performing the component in one feature after the other
(`performEach`), since a cascade changes nothing that the later ones depend on.
-/

namespace FeatureFlow.Orchestrator

variable {o : Orchestrator} {g name key trigger : String} {f : Feature} {payload : Property}
  {features : Fields Feature} {steps : List (String × Property)}

-- ---------------------------------------------------------------------------
-- Steps one by one
-- ---------------------------------------------------------------------------

/-- One step in each feature that has the component, with the properties declared there. -/
def stepsIn (trigger : String) (features : Fields Feature) : List (String × Property) :=
  features.filterMap fun (name, f) =>
    (f.manifest.component? trigger).map fun d => (name, d.node.properties)

def triggerSteps (o : Orchestrator) (trigger : String) : List (String × Property) :=
  stepsIn trigger o.features.entries

def performEach (key : String) : List (String × Property) → Orchestrator →
    Outcome Orchestrator (List (Option Component × Report))
  | [], o => .quiet o []
  | (feature, payload) :: rest, o =>
    (o.performStep feature payload key false).andThen fun first state =>
      (performEach key rest state).map (first :: ·)

theorem mem_stepsIn :
    (name, payload) ∈ stepsIn trigger features ↔
      ∃ f d, (name, f) ∈ features ∧ f.manifest.component? trigger = some d ∧
        payload = d.node.properties := by
  unfold stepsIn
  rw [List.mem_filterMap]
  constructor
  · rintro ⟨⟨found, f⟩, hmem, hstep⟩
    obtain ⟨d, hd, heq⟩ := Option.map_eq_some_iff.mp hstep
    obtain ⟨rfl, rfl⟩ := Prod.mk.inj heq
    exact ⟨f, d, hmem, hd, rfl⟩
  · rintro ⟨f, d, hmem, hd, rfl⟩
    exact ⟨(name, f), hmem, Option.map_eq_some_iff.mpr ⟨d, hd, rfl⟩⟩

theorem mem_triggerSteps :
    (name, payload) ∈ o.triggerSteps trigger ↔
      ∃ f d, o.features.get? name = some f ∧ f.manifest.component? trigger = some d ∧
        payload = d.node.properties := by
  have hentry (f : Feature) : (name, f) ∈ o.features.entries ↔ o.features.get? name = some f :=
    (Fields.get?_eq_some_iff_mem o.features.nodup_keys).symm
  rw [triggerSteps, mem_stepsIn]
  simp only [hentry]

theorem not_mem_done {done : List (String × Property)} {step : String × Property}
    (hnodup : (steps.map (·.1)).Nodup) (hsplit : steps = done ++ step :: rest) :
    step.1 ∉ done.map (·.1) := by
  rw [hsplit, List.map_append, List.map_cons] at hnodup
  have hapart := (List.nodup_append.mp hnodup).2.2
  intro hmem
  exact hapart _ hmem _ List.mem_cons_self rfl

theorem pairwise_stepsIn (h : features.Rising) :
    (stepsIn trigger features).Pairwise (·.1 < ·.1) := by
  refine List.Pairwise.filterMap _ ?_ h
  rintro ⟨first, f⟩ ⟨second, f'⟩ hlt step hstep later hlater
  obtain ⟨d, -, rfl⟩ := Option.map_eq_some_iff.mp hstep
  obtain ⟨d', -, rfl⟩ := Option.map_eq_some_iff.mp hlater
  exact hlt

-- ---------------------------------------------------------------------------
-- What the steps leave and report
-- ---------------------------------------------------------------------------

theorem alike_performEach (h : g ∉ steps.map (·.1)) (key : String) (o : Orchestrator) :
    Alike g o (performEach key steps o).state := by
  induction steps generalizing o with
  | nil => exact .refl g o
  | cons step rest ih =>
    obtain ⟨feature, payload⟩ := step
    obtain ⟨hne, hrest⟩ := not_or.mp (mt List.mem_cons.mpr h)
    have hfirst := (local_performStep feature payload key false).others o (Ne.symm hne)
    exact hfirst.trans (ih hrest _)

theorem reports_performStep (hf : o.features.get? name = some f) (payload : Property)
    (key : String) (log : Bool) :
    let outcome := o.performStep name payload key log
    outcome.reports = [outcome.answer.2] ∧ outcome.answer.2.feature = name := by
  simp only [performStep, hf]
  exact ⟨rfl, rfl⟩

theorem reports_performEach (hnodup : (steps.map (·.1)).Nodup)
    (hactive : ∀ name ∈ steps.map (·.1), (o.features.get? name).isSome) (key : String) :
    let each := performEach key steps o
    each.reports = each.answer.map (·.2) ∧ each.reports.map (·.feature) = steps.map (·.1) := by
  induction steps generalizing o with
  | nil => exact ⟨rfl, rfl⟩
  | cons step rest ih =>
    obtain ⟨feature, payload⟩ := step
    obtain ⟨hfresh, hnodup⟩ := List.nodup_cons.mp hnodup
    obtain ⟨f, hf⟩ := Option.isSome_iff_exists.mp (hactive feature List.mem_cons_self)
    obtain ⟨hreport, hfeature⟩ := reports_performStep hf payload key false
    have hlater : ∀ name ∈ rest.map (·.1),
        ((o.performStep feature payload key false).state.features.get? name).isSome := by
      intro name hname
      have hne : feature ≠ name := fun h => hfresh (h ▸ hname)
      rw [((local_performStep feature payload key false).others o hne).found]
      exact hactive name (List.mem_cons_of_mem _ hname)
    obtain ⟨hreports, hnames⟩ := ih hnodup hlater
    simp only [performEach, Outcome.andThen, Outcome.map, hreport, List.map_cons,
      List.cons_append, List.nil_append]
    exact ⟨congrArg _ hreports, by rw [hfeature, hnames]⟩

-- ---------------------------------------------------------------------------
-- Triggers
-- ---------------------------------------------------------------------------

theorem triggerEach_eq_performEach (hnodup : features.keys.Nodup)
    (h : ∀ name f, (name, f) ∈ features → o.features.get? name = some f) :
    triggerEach trigger features.keys o =
      (performEach trigger (stepsIn trigger features) o).map (·.filterMap (·.1)) := by
  induction features generalizing o with
  | nil => rfl
  | cons entry rest ih =>
    obtain ⟨name, f⟩ := entry
    obtain ⟨hfresh, hnodup⟩ := List.nodup_cons.mp hnodup
    have hf := h name f List.mem_cons_self
    have hlater : ∀ other g, (other, g) ∈ rest →
        (o.triggerIn name trigger).state.features.get? other = some g := by
      intro other g hmem
      have hne : name ≠ other := by
        rintro rfl
        exact hfresh (List.mem_map.mpr ⟨_, hmem, rfl⟩)
      rw [((local_triggerIn name trigger).others o hne).found]
      exact h other g (List.mem_cons_of_mem _ hmem)
    have hrest := ih hnodup hlater
    change (o.triggerIn name trigger).andThen (fun node state =>
      (triggerEach trigger (Fields.keys rest) state).map (node.toList ++ ·)) = _
    cases hd : f.manifest.component? trigger with
    | none =>
      have hquiet : o.triggerIn name trigger = .quiet o none := by
        simp only [triggerIn, hf, hd]
      have hsteps : stepsIn trigger ((name, f) :: rest) = stepsIn trigger rest := by
        simp [stepsIn, hd]
      rw [hquiet] at hrest ⊢
      rw [hsteps]
      exact hrest
    | some d =>
      have hstep : o.triggerIn name trigger =
          (o.performStep name d.node.properties trigger false).map (·.1) := by
        simp only [triggerIn, performStep, hf, hd]
      have hsteps : stepsIn trigger ((name, f) :: rest) =
          (name, d.node.properties) :: stepsIn trigger rest := by
        simp [stepsIn, hd]
      rw [hstep] at hrest ⊢
      rw [hsteps]
      simp only [performEach, Outcome.andThen, Outcome.map] at hrest ⊢
      rw [hrest]
      cases hnode : (o.performStep name d.node.properties trigger false).answer.1 <;>
        simp [hnode]

theorem performTrigger_eq_map (o : Orchestrator) (trigger : String) :
    o.performTrigger trigger =
      (performEach trigger (o.triggerSteps trigger) o).map (·.filterMap (·.1)) := by
  refine triggerEach_eq_performEach o.features.nodup_keys ?_
  intro name f hmem
  exact (Fields.get?_eq_some_iff_mem o.features.nodup_keys).mpr hmem

theorem nodup_triggerSteps (o : Orchestrator) (trigger : String) :
    ((o.triggerSteps trigger).map (·.1)).Nodup := by
  refine List.pairwise_map.mpr ((pairwise_stepsIn o.features.rising).imp ?_)
  intro first later hlt heq
  exact String.lt_irrefl _ (heq ▸ hlt)

theorem not_mem_triggerSteps (hf : o.features.get? name = some f)
    (hnone : f.manifest.component? trigger = none) :
    name ∉ (o.triggerSteps trigger).map (·.1) := by
  intro hmem
  obtain ⟨⟨_, payload⟩, hstep, rfl⟩ := List.mem_map.mp hmem
  obtain ⟨f', d, hf', hd, -⟩ := mem_triggerSteps.mp hstep
  obtain rfl := Option.some.inj (hf.symm.trans hf')
  cases hnone.symm.trans hd

/-- A trigger gives the nodes, reports and messages of its steps and leaves what they leave.
The steps are one for each feature with the component, by name; each meets its feature, the
link and the whole budget as they were when the trigger came. Features without the
component are left as they are, and no report is about them. -/
theorem performTrigger_eq_performEach (o : Orchestrator) (trigger : String) :
    let steps := o.triggerSteps trigger
    let each := performEach trigger steps o
    o.performTrigger trigger = each.map (·.filterMap (·.1)) ∧
      each.reports = each.answer.map (·.2) ∧ each.reports.map (·.feature) = steps.map (·.1) ∧
      steps.Pairwise (·.1 < ·.1) ∧
      (∀ name payload, (name, payload) ∈ steps ↔
        ∃ f d, o.features.get? name = some f ∧ f.manifest.component? trigger = some d ∧
          payload = d.node.properties) ∧
      (∀ done step rest, steps = done ++ step :: rest →
        Alike step.1 o (performEach trigger done o).state) ∧
      ∀ name f, o.features.get? name = some f → f.manifest.component? trigger = none →
        (o.performTrigger trigger).state.features.get? name = some f ∧
          ∀ r ∈ (o.performTrigger trigger).reports, r.feature ≠ name := by
  intro steps each
  have htrigger : o.performTrigger trigger = each.map (·.filterMap (·.1)) :=
    performTrigger_eq_map o trigger
  have hactive : ∀ name ∈ steps.map (·.1), (o.features.get? name).isSome := by
    intro name hname
    obtain ⟨⟨_, payload⟩, hstep, rfl⟩ := List.mem_map.mp hname
    obtain ⟨f, -, hf, -⟩ := mem_triggerSteps.mp hstep
    exact Option.isSome_of_eq_some hf
  obtain ⟨hreports, hnames⟩ := reports_performEach (nodup_triggerSteps o trigger) hactive trigger
  refine ⟨htrigger, hreports, hnames, pairwise_stepsIn o.features.rising,
    fun name payload => mem_triggerSteps, ?_, ?_⟩
  · intro done step rest hsplit
    exact alike_performEach (not_mem_done (nodup_triggerSteps o trigger) hsplit) trigger o
  · intro name f hf hnone
    have hnot := not_mem_triggerSteps hf hnone
    rw [htrigger]
    refine ⟨(alike_performEach hnot trigger o).found.trans hf, ?_⟩
    intro r hr hname
    apply hnot
    rw [← hname, ← hnames]
    exact List.mem_map_of_mem hr

/-- A component that tells the server what it declares, one that follows itself, and none. -/
def harvest (outputs : List String) (key : String) : Json.Object :=
  let node (key typeName : String) (more : Json.Object) : Json :=
    .object ([("keyName", .text key), ("typeName", .text typeName)] ++ more)
  [("componentConfigs", .array
      [node key "RelayComponent"
        [("outputs", .object [("next", .texts outputs)]),
          ("props", .object [("note", .text "ripe"), ("output", .text "\x7bpayload.note\x7d")])],
        node "tell" "" [("owner", .text "server")]]),
    ("providerConfigs", .array [node "components" "ComponentProvider" []])]

/-- Features that are registered against the order of their names. -/
def orchard : Orchestrator :=
  { ofRegistry (.ofCatalogue .builtIn) with link := .connected, maxSteps := 2 }.run
    [.register "quince" (harvest [] "rest"), .register "pear" (harvest ["pick"] "pick"),
      .register "apple" (harvest ["tell"] "pick")]

theorem performTrigger_orchard :
    let each := performEach "pick" (orchard.triggerSteps "pick") orchard
    let quince : Feature := .ofManifest (.ofObject "quince" (harvest [] "rest"))
    (orchard.triggerSteps "pick").map (·.1) = ["apple", "pear"] ∧
      each.reports.map (·.executed) = [["pick", "tell"], ["pick", "pick"]] ∧
      each.reports.map (·.truncated) = [false, true] ∧
      each.sent.map (fun m => ((m.get? "payload_data").bind (Json.field? "value")).bind
        Json.text?) = [some "ripe"] ∧
      orchard.performTrigger "pick" = each.map (·.filterMap (·.1)) ∧
      orchard.features.get? "quince" = some quince ∧
      quince.manifest.component? "pick" = none ∧
      (orchard.performTrigger "pick").state.features.get? "quince" = some quince := by
  intro each quince
  have hquince : orchard.features.get? "quince" = some quince := by rfl
  have hnone : quince.manifest.component? "pick" = none := by rfl
  obtain ⟨htrigger, -, -, -, -, -, hothers⟩ := performTrigger_eq_performEach orchard "pick"
  exact ⟨by decide +kernel, by decide +kernel, by decide +kernel, by decide +kernel, htrigger,
    hquince, hnone, (hothers "quince" quince hquince hnone).1⟩

end FeatureFlow.Orchestrator
