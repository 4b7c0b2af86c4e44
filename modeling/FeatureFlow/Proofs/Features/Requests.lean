import FeatureFlow.Proofs.Features.Delegation
import FeatureFlow.Proofs.Messages

/-!
# Requests of delegates

Of the built-in components only delegates speak to the server, and they emit nothing, heard
or not. So a cascade takes up the same steps over every link (`run_walk_over`). Over an open
one each delegate has sent one request; over another one nothing is sent, and the records of
the delegates say why (`requests_ofWalk`).
-/

namespace FeatureFlow

def Link.refusal : Link → Option String
  | .absent => some "no server link configured"
  | .closed => some "server link closed"
  | .connected => none

theorem Link.send_of_refusal {link : Link} (h : link.refusal = some reason)
    (message : ServerMessage) : link.send message = .fail (.connectionFailed reason) := by
  cases link with
  | connected => cases h
  | absent => cases h; rfl
  | closed => cases h; rfl

-- ---------------------------------------------------------------------------
-- Built-in types
-- ---------------------------------------------------------------------------

/-- The component is the built-in one of the type of the seed. -/
inductive BuiltIn.Builds (seed : Seed) : Component → Prop
  | delegate (htype : seed.typeName = delegateType) : Builds seed (BuiltIn.delegate seed)
  | relay (htype : seed.typeName = relayType) : Builds seed (BuiltIn.relay seed)

/-- Under the type nothing but the built-in node is built, and no provider builds a component
of it on its own. -/
structure Catalogue.Standard (c : Catalogue) (typeName : String) : Prop where
  nodes : ∀ factory, (typeName, some factory) ∈ c.nodes →
    (typeName, some factory) ∈ builtIn.nodes
  providers : ∀ p ∈ c.providers, ∀ factory, p.direct = some factory →
    ∀ seed component, seed.typeName = typeName → factory seed ≠ some (.component component)

theorem Catalogue.standard_builtIn (typeName : String) : builtIn.Standard typeName where
  nodes _ h := h
  providers p hp factory hdirect := by
    simp only [builtIn, List.mem_cons, List.not_mem_nil, or_false] at hp
    obtain rfl | rfl := hp <;> cases hdirect

theorem Catalogue.builds_of_mem_builtIn (h : (seed.typeName, some factory) ∈ builtIn.nodes)
    (hmade : factory seed = some (.component component)) : BuiltIn.Builds seed component := by
  simp only [builtIn, List.mem_cons, Prod.mk.injEq, Option.some.injEq, List.not_mem_nil,
    or_false] at h
  obtain ⟨htype, rfl⟩ | ⟨htype, rfl⟩ | ⟨-, rfl⟩ := h
  · cases hmade
    exact .delegate htype
  · cases hmade
    exact .relay htype
  · cases hmade

namespace Registry

structure Standard (r : Registry) (typeName : String) : Prop where
  create : ∀ seed component, seed.typeName = typeName →
    (r.create seed).1 = some (.component component) → BuiltIn.Builds seed component
  direct : ∀ name p factory, r.provider? name = some p → p.direct = some factory →
    ∀ seed component, seed.typeName = typeName → factory seed ≠ some (.component component)

theorem Standard.of_agrees {r other : Registry} (h : r.Standard typeName)
    (hagrees : r.Agrees other) : other.Standard typeName where
  create seed component htype hnode :=
    h.create seed component htype ((hagrees.create seed).symm.trans hnode)
  direct name p factory hp := h.direct name p factory ((hagrees.provider name).symm.trans hp)

theorem standard_ofCatalogue (h : catalogue.Standard typeName) :
    (ofCatalogue catalogue).Standard typeName where
  create seed component htype hnode := by
    obtain ⟨factory, hfactory, hmade⟩ := exists_factory_of_create hnode
    subst htype
    exact Catalogue.builds_of_mem_builtIn (h.nodes factory hfactory) hmade
  direct name p factory hp := h.providers p (mem_of_provider? hp) factory

end Registry

theorem Scope.builds_component {s : Scope} {d : ComponentDefinition} {a : Inventory}
    (hr : a.registry.Standard d.node.typeName) (h : ((s.component d).run a).1 = some c) :
    ∃ properties, BuiltIn.Builds (s.seed d.node properties) c := by
  obtain ⟨node, hnode, hkind⟩ := Option.bind_eq_some_iff.mp h
  obtain rfl := Node.component?_eq_some.mp hkind
  obtain ⟨p, hp, -, hmakes⟩ := makes_of_build s.grows_dataObject hnode
  obtain ⟨_, -, hprovider⟩ := Option.bind_eq_some_iff.mp hp
  cases hmakes with
  | direct hdirect hmade => exact absurd hmade (hr.direct _ p _ hprovider hdirect _ c rfl)
  | byType _ hmade => exact ⟨_, hr.create _ c rfl hmade⟩

namespace Cascade

-- ---------------------------------------------------------------------------
-- Steps
-- ---------------------------------------------------------------------------

def Step.delegated (step : Step) : Bool :=
  step.definition.node.typeName == BuiltIn.delegateType

/-- The message asks the server, and nothing else, for the component of a step. -/
def Step.Request (log : Bool) (step : Step) (m : ServerMessage) : Prop :=
  ∃ spoken, m =
    { name := "perform_component"
      properties :=
        [("component_keyname", .text step.key), ("featurename", .text spoken),
          ("payload_data", .object step.payload.sentFields), ("sample_flow", .boolean log)] }

def Setting.over (s : Setting) (link : Link) : Setting :=
  { s with link }

def Setting.Performed.over (p : Performed) (link : Link) (step : Step) (log : Bool) : Performed :=
  { p with performance := p.component.perform link step.payload log }

def Attempt.over (link : Link) (log : Bool) (attempt : Attempt) : Attempt :=
  { attempt with performed := attempt.performed.map (·.over link attempt.step log) }

namespace Setting

variable {s : Setting} {step : Step} {p : Performed} {link : Link} {a b : Inventory}
  {pending : List Step} {performed : List (Step × Performed)}

/-- The component of a delegated step does nothing but ask the server for it, and any other
one emits the same over every link. -/
structure Plain (s : Setting) (step : Step) (p : Performed) : Prop where
  performance : p.performance = p.component.perform s.link step.payload s.log
  asks : step.delegated = true → ∃ spoken, ∀ link, p.component.perform link step.payload s.log =
    link.send (PerformComponentEvent.outbound spoken step.definition.key step.payload
      s.log).toMessage
  emits : step.delegated = false → ∃ outputs, ∀ link,
    p.component.perform link step.payload s.log = .emit outputs

theorem plain_of_perform (hr : a.registry.Standard step.definition.node.typeName)
    (h : (s.perform step).run a = (some p, b)) : s.Plain step p := by
  obtain ⟨c, hc, rfl⟩ := Option.map_eq_some_iff.mp (congrArg (·.1) h)
  obtain ⟨properties, hbuilds⟩ := Scope.builds_component hr hc
  refine ⟨rfl, ?_, ?_⟩
  · intro hdelegated
    cases hbuilds with
    | delegate => exact ⟨_, fun _ => rfl⟩
    | relay htype =>
      have hrelay : step.definition.node.typeName = BuiltIn.relayType := htype
      simp [Step.delegated, hrelay, BuiltIn.relayType, BuiltIn.delegateType] at hdelegated
  · intro hdelegated
    cases hbuilds with
    | delegate htype =>
      have hdelegate : step.definition.node.typeName = BuiltIn.delegateType := htype
      simp [Step.delegated, hdelegate] at hdelegated
    | relay => exact ⟨_, fun _ => rfl⟩

-- ---------------------------------------------------------------------------
-- Other links
-- ---------------------------------------------------------------------------

theorem run_perform (s : Setting) (step : Step) (a : Inventory) :
    (s.perform step).run a =
      let (component, after) := ((s.scope step.payload).component step.definition).run a
      (component.map fun c =>
        { component := c, performance := c.perform s.link step.payload s.log }, after) := rfl

theorem run_perform_over (h : (s.perform step).run a = (found, b)) :
    ((s.over link).perform step).run a = (found.map (·.over link step s.log), b) := by
  rw [run_perform] at h ⊢
  obtain ⟨rfl, rfl⟩ := Prod.mk.inj h
  rw [Option.map_map]
  rfl

theorem next_of_send {m : ServerMessage} (h : p.performance = link.send m) : s.next p = [] := by
  rw [next, h]
  cases link <;> rfl

theorem Plain.next_over (h : s.Plain step p) (link : Link) :
    (s.over link).next (p.over link step s.log) = s.next p := by
  cases hdelegated : step.delegated with
  | true =>
    obtain ⟨spoken, hasks⟩ := h.asks hdelegated
    rw [next_of_send (hasks link), next_of_send (h.performance.trans (hasks s.link))]
  | false =>
    obtain ⟨outputs, hemits⟩ := h.emits hdelegated
    have hsame : p.over link step s.log = p := by
      rw [Performed.over, hemits, ← hemits s.link, ← h.performance]
    rw [hsame]
    rfl

theorem following_over (h : ∀ p, found = some p → s.Plain step p) :
    (s.over link).following { step, performed := found.map (·.over link step s.log) } =
      s.following { step, performed := found } := by
  cases found with
  | none => rfl
  | some p => exact (h p rfl).next_over link

theorem run_walk_over (link : Link) (budget : Nat)
    (hstandard : ∀ attempt ∈ ((s.walk budget pending).run a).1.attempts,
      a.registry.Standard attempt.step.definition.node.typeName) :
    ((s.over link).walk budget pending).run a =
      let (walk, after) := (s.walk budget pending).run a
      ({ walk with attempts := walk.attempts.map (·.over link s.log) }, after) := by
  induction budget generalizing pending a with
  | zero => rfl
  | succ budget ih =>
    cases pending with
    | nil => rfl
    | cons step pending =>
      rw [run_walk_cons] at hstandard
      rw [run_walk_cons, run_walk_cons]
      generalize hperform : (s.perform step).run a = outcome at hstandard ⊢
      obtain ⟨found, middle⟩ := outcome
      rw [run_perform_over hperform]
      have hplain : ∀ p, found = some p → s.Plain step p := by
        rintro p rfl
        exact plain_of_perform (hstandard _ List.mem_cons_self) hperform
      dsimp only
      rw [following_over hplain, ih]
      · rfl
      · intro attempt hattempt
        exact (hstandard attempt (List.mem_cons_of_mem _ hattempt)).of_agrees
          (agrees_of_perform hperform)

theorem built_map_over (attempts : List Attempt) (link : Link) (log : Bool) :
    built (attempts.map (·.over link log)) =
      (built attempts).map fun (step, p) => (step, p.over link step log) := by
  simp only [built, List.filterMap_map, List.map_filterMap]
  congr 1
  funext attempt
  obtain ⟨step, found⟩ := attempt
  cases found <;> rfl

theorem plain_of_mem_built (budget : Nat) (hpending : ∀ step ∈ pending, s.Known step)
    (hstandard : ∀ attempt ∈ ((s.walk budget pending).run a).1.attempts,
      a.registry.Standard attempt.step.definition.node.typeName)
    (h : (step, p) ∈ built ((s.walk budget pending).run a).1.attempts) :
    s.Known step ∧ s.Plain step p := by
  obtain ⟨hknown, before, after, hagrees, hperform⟩ := perform_of_mem_built budget hpending h
  obtain ⟨attempt, hattempt, hbuilt⟩ := List.mem_filterMap.mp h
  obtain ⟨_, -, heq⟩ := Option.map_eq_some_iff.mp hbuilt
  obtain ⟨rfl, -⟩ := Prod.mk.inj heq
  exact ⟨hknown, plain_of_perform ((hstandard attempt hattempt).of_agrees hagrees) hperform⟩

-- ---------------------------------------------------------------------------
-- Messages and records
-- ---------------------------------------------------------------------------

theorem requests_messages (hlink : s.link = .connected)
    (h : ∀ step p, (step, p) ∈ performed → s.Plain step p ∧ step.definition.key = step.key) :
    List.Forall₂ (Step.Request s.log) ((performed.map (·.1)).filter Step.delegated)
      (messages performed) := by
  induction performed with
  | nil => exact .nil
  | cons first rest ih =>
    obtain ⟨step, p⟩ := first
    obtain ⟨hplain, hkey⟩ := h step p List.mem_cons_self
    have hrest := ih fun step p hmem => h step p (List.mem_cons_of_mem _ hmem)
    change List.Forall₂ _ _ (p.performance.sent ++ messages rest)
    cases hdelegated : step.delegated with
    | true =>
      obtain ⟨spoken, hasks⟩ := hplain.asks hdelegated
      rw [hplain.performance, hasks, hlink, List.map_cons, List.filter_cons_of_pos hdelegated]
      refine .cons ⟨spoken, ?_⟩ hrest
      rw [← hkey, ← PerformComponentEvent.wrap_eq_sentFields]
      rfl
    | false =>
      obtain ⟨outputs, hemits⟩ := hplain.emits hdelegated
      rw [hplain.performance, hemits, List.map_cons,
        List.filter_cons_of_neg (by simp [hdelegated])]
      exact hrest

def refused (s : Setting) (reason : String) (step : Step) (p : Performed) : StepRecord :=
  if step.delegated then
    { s.record step p with result := .error (.connectionFailed reason) }
  else s.record step p

theorem Plain.record_over (h : s.Plain step p) (hlink : link.refusal = some reason) :
    (s.over link).record step (p.over link step s.log) = s.refused reason step p := by
  cases hdelegated : step.delegated with
  | true =>
    obtain ⟨spoken, hasks⟩ := h.asks hdelegated
    rw [refused, if_pos hdelegated, record, Performed.over, hasks, Link.send_of_refusal hlink]
    rfl
  | false =>
    obtain ⟨outputs, hemits⟩ := h.emits hdelegated
    rw [refused, if_neg (by simp [hdelegated]), record, record, Performed.over, hemits,
      h.performance, hemits]
    rfl

theorem Plain.sent_over (h : s.Plain step p) (hlink : link.refusal = some reason) :
    (p.over link step s.log).performance.sent = [] := by
  cases hdelegated : step.delegated with
  | true =>
    obtain ⟨spoken, hasks⟩ := h.asks hdelegated
    rw [Performed.over, hasks, Link.send_of_refusal hlink]
    rfl
  | false =>
    obtain ⟨outputs, hemits⟩ := h.emits hdelegated
    rw [Performed.over, hemits]
    rfl

end Setting

end Cascade

-- ---------------------------------------------------------------------------
-- Cascades
-- ---------------------------------------------------------------------------

namespace Orchestrator

open Cascade (Attempt Setting Step Walk)

variable {catalogue : Catalogue} {o : Orchestrator} {f : Feature} {link : Link}

def ofWalk (o : Orchestrator) (name : String) (f : Feature) (trigger : String) (log : Bool)
    (run : Walk × Inventory) : Outcome Orchestrator Report :=
  o.reported name f trigger ((o.setting f log).trace run.1, run.2)

theorem performStep_eq_ofWalk (hf : o.features.get? feature = some f) (payload : Property)
    (key : String) (log : Bool) :
    (o.performStep feature payload key log).map (·.2) =
      o.ofWalk feature f key log (o.walkIn f payload key log) := by
  simp only [performStep, hf, performIn_eq_walk]
  rfl

def walkThrough (o : Orchestrator) (f : Feature) (pending : List Step) (log : Bool) :
    Walk × Inventory :=
  ((o.setting f log).walk o.maxSteps pending).run { objects := f.objects, registry := o.registry }

theorem completePerform_eq_ofWalk (hf : o.features.get? feature = some f) (outputs : Outputs)
    (source : String) (log : Bool) :
    o.completePerform feature outputs source log = o.ofWalk feature f source log
      (o.walkThrough f ((o.setting f log).follow source outputs) log) := by
  rw [completePerform_eq_reported hf, Setting.run_eq_walk]
  rfl

/-- The steps are for types that an application did not add. -/
def OverBuiltIn (catalogue : Catalogue) (attempts : List Attempt) : Prop :=
  ∀ attempt ∈ attempts, catalogue.Standard attempt.step.definition.node.typeName

/-- What a cascade did over an open link and over one that refuses to send, step by step. -/
structure Requests (s : Setting) (reason : String) (performed : List (Step × Setting.Performed))
    (online offline : Outcome Orchestrator Report) : Prop where
  known : ∀ step p, (step, p) ∈ performed → s.Known step
  records : online.answer.records = performed.map fun (step, p) => s.record step p
  sent : List.Forall₂ (Step.Request s.log) ((performed.map (·.1)).filter Step.delegated)
    online.sent
  refused : offline.answer.records = performed.map fun (step, p) => s.refused reason step p
  unsent : offline.sent = []
  truncated : offline.answer.truncated = online.answer.truncated

theorem requests_ofWalk (hmanifest : f.manifest = .ofObject feature root)
    (honline : o.link = .connected) (hoffline : link.refusal = some reason)
    {pending : List Step} (hpending : ∀ step ∈ pending, (o.setting f log).Known step)
    (hstandard : ∀ attempt ∈ (o.walkThrough f pending log).1.attempts,
      o.registry.Standard attempt.step.definition.node.typeName) (trigger : String) :
    let cut : Orchestrator := { o with link }
    Requests (o.setting f log) reason (Setting.built (o.walkThrough f pending log).1.attempts)
      (o.ofWalk feature f trigger log (o.walkThrough f pending log))
      (cut.ofWalk feature f trigger log (cut.walkThrough f pending log)) := by
  intro cut
  let s := o.setting f log
  have hplain : ∀ step p, (step, p) ∈ Setting.built (o.walkThrough f pending log).1.attempts →
      s.Known step ∧ s.Plain step p := by
    intro step p hmem
    exact Setting.plain_of_mem_built o.maxSteps hpending hstandard hmem
  have hcut : cut.walkThrough f pending log = _ :=
    Setting.run_walk_over (s := s) link o.maxSteps hstandard
  rw [hcut]
  refine ⟨fun step p hmem => (hplain step p hmem).1, rfl, ?_, ?_, ?_, rfl⟩
  · refine Setting.requests_messages honline fun step p hmem => ?_
    obtain ⟨hknown, hstep⟩ := hplain step p hmem
    have hkey : (Manifest.ofObject feature root).component? step.key = some step.definition :=
      hmanifest ▸ hknown
    exact ⟨hstep, Manifest.key_of_component? hkey⟩
  · change (s.over link).records (Setting.built (List.map _ _)) = _
    rw [Setting.built_map_over, Setting.records, List.map_map]
    exact List.map_congr_left fun (step, p) hmem => (hplain step p hmem).2.record_over hoffline
  · change Setting.messages (Setting.built (List.map _ _)) = []
    rw [Setting.built_map_over, Setting.messages, List.flatMap_map, List.flatMap_eq_nil_iff]
    exact fun (step, p) hmem => (hplain step p hmem).2.sent_over hoffline

/-- Cascades over built-in types send one request for each delegated step, in order, where
the link is open. Where it is not, they send nothing, take the same steps, and the records of
the delegated ones carry the failure to connect. This holds of cascades that start at a
component and of those that follow outputs. -/
theorem requests_of_standard (ho : Reachable catalogue o)
    (hf : o.features.get? feature = some f) (honline : o.link = .connected)
    (hoffline : link.refusal = some reason) (log : Bool) :
    let cut : Orchestrator := { o with link }
    (∀ payload key, OverBuiltIn catalogue (o.attempts feature payload key log) →
        Requests (o.setting f log) reason
          (Setting.built (o.attempts feature payload key log))
          ((o.performStep feature payload key log).map (·.2))
          ((cut.performStep feature payload key log).map (·.2))) ∧
      ∀ outputs source, OverBuiltIn catalogue (o.followed feature outputs source log) →
        Requests (o.setting f log) reason
          (Setting.built (o.followed feature outputs source log))
          (o.completePerform feature outputs source log)
          (cut.completePerform feature outputs source log) := by
  intro cut
  obtain ⟨root, hroot⟩ := ho.sound.manifest feature f hf
  have hr : ∀ attempts, OverBuiltIn catalogue attempts → ∀ attempt ∈ attempts,
      o.registry.Standard attempt.step.definition.node.typeName := by
    intro attempts hattempts attempt hmem
    exact (Registry.standard_ofCatalogue (hattempts attempt hmem)).of_agrees ho.sound.registry
  have hcut : cut.features.get? feature = some f := hf
  constructor
  · intro payload key hstandard
    have hattempts : o.attempts feature payload key log = (o.walkThrough f
        ((o.setting f log).step? payload key).toList log).1.attempts := by
      simp only [attempts, hf]
      rfl
    rw [performStep_eq_ofWalk hf, performStep_eq_ofWalk hcut, hattempts]
    refine requests_ofWalk hroot honline hoffline ?_ (hr _ (hattempts ▸ hstandard)) key
    intro step hstep
    exact Setting.known_of_step? (Option.mem_toList.mp hstep)
  · intro outputs source hstandard
    have hfollowed : o.followed feature outputs source log = (o.walkThrough f
        ((o.setting f log).follow source outputs) log).1.attempts := by
      simp only [followed, hf]
      rfl
    rw [completePerform_eq_ofWalk hf, completePerform_eq_ofWalk hcut, hfollowed]
    refine requests_ofWalk hroot honline hoffline ?_ (hr _ (hfollowed ▸ hstandard)) source
    intro step hstep
    exact Setting.known_follow hstep

/-- A start that passes a live data object on, twice to the same component of the server. -/
def inquiry : Json.Object :=
  let node (key typeName : String) (more : Json.Object) : Json :=
    .object ([("keyName", .text key), ("typeName", .text typeName)] ++ more)
  [("componentConfigs", .array
      [node "start" "RelayComponent"
        [("props", .object [("output", .object [("at", .text "\x7bbox\x7d")]),
            ("ports", .texts ["left", "right"])]),
          ("outputs", .object [("left", .texts ["ask", "pass"]), ("right", .texts ["ask"])])],
        node "pass" "RelayComponent" [("outputs", .object [("next", .texts ["tell"])])],
        node "ask" "" [("owner", .text "server")],
        node "tell" "" [("owner", .text "server")]]),
    ("dataObjectConfigs", .array [node "box" "ValueDataObject" []]),
    ("providerConfigs", .array
      [node "components" "ComponentProvider" [], node "data" "ServerDataProvider" []])]

def inquiring : Orchestrator :=
  ((ofRegistry (.ofCatalogue .builtIn)).after (.register "desk" inquiry)).after
    (.changeLink .connected)

theorem reachable_inquiring : Reachable .builtIn inquiring :=
  .step (.step (.start .absent defaultMaxSteps) (.register "desk" inquiry)) (.changeLink .connected)

theorem requests_of_standard_inquiring :
    let cut : Orchestrator := { inquiring with link := .closed }
    let f : Feature := .ofManifest (.ofObject "desk" inquiry)
    let told (messages : List ServerMessage) := messages.map fun m =>
      ((m.get? "component_keyname").bind Json.text?, (m.get? "payload_data").map Json.compact)
    let outputs : Outputs := [("left", .null), ("right", .text "now")]
    let reason := "server link closed"
    Reachable .builtIn inquiring ∧ inquiring.features.get? "desk" = some f ∧
      inquiring.link = .connected ∧ Link.closed.refusal = some reason ∧
      OverBuiltIn .builtIn (inquiring.attempts "desk" .null "start" true) ∧
      told (inquiring.performStep "desk" .null "start" true).sent =
        [(some "ask", some "\x7b\"at\":\"\x7bbox\x7d\"\x7d"),
          (some "tell", some "\x7b\"at\":\"\x7bbox\x7d\"\x7d"),
          (some "ask", some "\x7b\"at\":\"\x7bbox\x7d\"\x7d")] ∧
      (cut.performStep "desk" .null "start" true).answer.2.records.map (·.error?.isSome) =
        [false, true, false, true, true] ∧
      Requests (inquiring.setting f true) reason
        (Setting.built (inquiring.attempts "desk" .null "start" true))
        ((inquiring.performStep "desk" .null "start" true).map (·.2))
        ((cut.performStep "desk" .null "start" true).map (·.2)) ∧
      told (inquiring.completePerform "desk" outputs "start" true).sent =
        [(some "ask", some "\x7b\x7d"), (some "tell", some "\x7b\x7d"),
          (some "ask", some "\x7b\"value\":\"now\"\x7d")] ∧
      Requests (inquiring.setting f true) reason
        (Setting.built (inquiring.followed "desk" outputs "start" true))
        (inquiring.completePerform "desk" outputs "start" true)
        (cut.completePerform "desk" outputs "start" true) := by
  intro cut f told outputs reason
  have hf : inquiring.features.get? "desk" = some f := Table.get?_insert_self ∅ "desk" _
  have hstandard (attempts : List Attempt) : OverBuiltIn .builtIn attempts :=
    fun attempt _ => Catalogue.standard_builtIn attempt.step.definition.node.typeName
  have hclosed : Link.closed.refusal = some reason := rfl
  obtain ⟨hstarted, hfollowed⟩ := requests_of_standard reachable_inquiring hf rfl hclosed true
  exact ⟨reachable_inquiring, hf, rfl, hclosed, hstandard _, by decide +kernel, by decide +kernel,
    hstarted _ _ (hstandard _), by decide +kernel, hfollowed _ _ (hstandard _)⟩

end Orchestrator

end FeatureFlow
