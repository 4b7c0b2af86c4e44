import FeatureFlow.Orchestrator
import FeatureFlow.Proofs.Building

/-!
# The walk of a cascade

A cascade takes up its pending steps one by one, and each takes a step of the
budget. `Setting.walk` keeps what a trace leaves out: the steps that could not be
built and those still pending when the budget runs out. A walk can be taken in
two parts (`walk_add`), and the cascade reports what the walk did
(`run_eq_walk`, `start_eq_walk`).
-/

namespace FeatureFlow

namespace Cascade

open Building (Keeps keeps_compositional run_bind)

/-- A step that was taken up, and what was performed if its component could be
built. -/
structure Attempt where
  step : Step
  performed : Option Setting.Performed

structure Walk where
  attempts : List Attempt
  pending : List Step

namespace Setting

variable {s : Setting} {pending : List Step} {a : Inventory}

def following (s : Setting) (attempt : Attempt) : List Step :=
  attempt.performed.elim [] s.next

def attempt (s : Setting) (step : Step) : Building Attempt :=
  ({ step, performed := · }) <$> s.perform step

def walk (s : Setting) : Nat → List Step → Building Walk
  | 0, pending => return { attempts := [], pending }
  | _, [] => return { attempts := [], pending := [] }
  | budget + 1, step :: pending => do
    let first ← s.attempt step
    let rest ← s.walk budget (s.following first ++ pending)
    return { rest with attempts := first :: rest.attempts }

-- ---------------------------------------------------------------------------
-- Budgets
-- ---------------------------------------------------------------------------

@[simp] theorem walk_nil (s : Setting) (budget : Nat) :
    s.walk budget [] = return { attempts := [], pending := [] } := by
  cases budget <;> rfl

theorem run_walk_nil (s : Setting) (budget : Nat) (a : Inventory) :
    (s.walk budget []).run a = ({ attempts := [], pending := [] }, a) := by
  rw [walk_nil]
  rfl

theorem run_walk_cons (s : Setting) (budget : Nat) (step : Step) (pending : List Step)
    (a : Inventory) :
    (s.walk (budget + 1) (step :: pending)).run a =
      let (performed, middle) := (s.perform step).run a
      let (rest, after) := (s.walk budget (s.following { step, performed } ++ pending)).run middle
      ({ rest with attempts := { step, performed } :: rest.attempts }, after) := rfl

/-- A walk can be interrupted and taken up where it stopped. -/
theorem walk_add (s : Setting) (n k : Nat) (pending : List Step) :
    s.walk (n + k) pending = do
      let first ← s.walk n pending
      let more ← s.walk k first.pending
      return { more with attempts := first.attempts ++ more.attempts } := by
  induction n generalizing pending with
  | zero => simp [walk]
  | succ n ih =>
    cases pending with
    | nil => simp
    | cons step pending =>
      rw [Nat.succ_add]
      simp only [walk, ih, bind_assoc, pure_bind, List.cons_append]

theorem run_walk_add (s : Setting) (n k : Nat) (pending : List Step) (a : Inventory) :
    (s.walk (n + k) pending).run a =
      let (first, middle) := (s.walk n pending).run a
      let (more, after) := (s.walk k first.pending).run middle
      ({ more with attempts := first.attempts ++ more.attempts }, after) := by
  rw [walk_add]
  rfl

/-- Each attempt takes one step of the budget, and a walk only stops short where
the budget is used up. -/
theorem length_attempts (s : Setting) (budget : Nat) (pending : List Step) (a : Inventory) :
    let walk := ((s.walk budget pending).run a).1
    walk.attempts.length ≤ budget ∧ (walk.pending ≠ [] → walk.attempts.length = budget) := by
  induction budget generalizing pending a with
  | zero => exact ⟨Nat.le_refl 0, fun _ => rfl⟩
  | succ budget ih =>
    cases pending with
    | nil => exact ⟨Nat.zero_le _, fun h => absurd rfl h⟩
    | cons step pending =>
      have hrest := ih (s.following ((s.attempt step).run a).1 ++ pending)
        ((s.attempt step).run a).2
      exact ⟨Nat.succ_le_succ hrest.1, fun h => congrArg (· + 1) (hrest.2 h)⟩

-- ---------------------------------------------------------------------------
-- What a walk keeps
-- ---------------------------------------------------------------------------

section
variable {P : (α : Type) → Building α → Prop}

theorem compositional_perform (hP : Compositional P)
    (hcomponent : ∀ payload d, P _ ((s.scope payload).component d)) (step : Step) :
    P _ (s.perform step) :=
  hP.bind (hcomponent step.payload step.definition) fun _ => hP.pure _

theorem compositional_walk (hP : Compositional P)
    (hcomponent : ∀ payload d, P _ ((s.scope payload).component d)) (budget : Nat)
    (pending : List Step) : P _ (s.walk budget pending) := by
  induction budget generalizing pending with
  | zero => exact hP.pure _
  | succ budget ih =>
    cases pending with
    | nil => exact hP.pure _
    | cons step pending =>
      refine hP.bind (hP.map _ (compositional_perform hP hcomponent step)) fun first => ?_
      exact hP.bind (ih _) fun rest => hP.pure _

end

theorem grows_perform (s : Setting) (step : Step) :
    Keeps (Inventory.Grows s.manifest) _ (s.perform step) :=
  compositional_perform (keeps_compositional (fun _ => .refl) fun _ _ _ => .trans)
    (fun payload => (s.scope payload).grows_component) step

theorem grows_walk (s : Setting) (budget : Nat) (pending : List Step) :
    Keeps (Inventory.Grows s.manifest) _ (s.walk budget pending) :=
  compositional_walk (keeps_compositional (fun _ => .refl) fun _ _ _ => .trans)
    (fun payload => (s.scope payload).grows_component) budget pending

def Known (s : Setting) (step : Step) : Prop :=
  s.manifest.component? step.key = some step.definition

theorem known_of_step? (h : s.step? payload key = some step) : s.Known step := by
  obtain ⟨d, hd, rfl⟩ := Option.map_eq_some_iff.mp h
  exact hd

theorem known_follow (h : step ∈ s.follow source outputs) : s.Known step := by
  obtain ⟨⟨port, value⟩, _, hstep⟩ := List.mem_flatMap.mp h
  obtain ⟨key, _, hkey⟩ := List.mem_filterMap.mp hstep
  exact known_of_step? hkey

theorem known_following {attempt : Attempt} (h : step ∈ s.following attempt) : s.Known step := by
  obtain ⟨_, _ | p⟩ := attempt
  · simp [following] at h
  · change step ∈ s.next p at h
    unfold next at h
    split at h
    · exact known_follow h
    · simp at h

theorem known_attempts (budget : Nat) (hpending : ∀ step ∈ pending, s.Known step) :
    ∀ attempt ∈ ((s.walk budget pending).run a).1.attempts, s.Known attempt.step := by
  induction budget generalizing pending a with
  | zero => exact fun _ hattempt => nomatch hattempt
  | succ budget ih =>
    cases pending with
    | nil => exact fun _ hattempt => nomatch hattempt
    | cons step pending =>
      intro attempt hattempt
      rcases List.mem_cons.mp hattempt with rfl | hrest
      · exact hpending step (by simp)
      · refine ih (fun other hother => ?_) attempt hrest
        rcases List.mem_append.mp hother with hnext | hlater
        · exact known_following hnext
        · exact hpending other (List.mem_cons_of_mem _ hlater)

theorem agrees_of_perform (h : (s.perform step).run a = (performed, b)) :
    a.registry.Agrees b.registry := by
  have hagrees := (s.grows_perform step a).agrees
  rwa [h] at hagrees

/-- Each attempt was performed in an inventory that came up on the way. -/
theorem exists_perform_of_mem_attempts (budget : Nat) {taken : Attempt}
    (h : taken ∈ ((s.walk budget pending).run a).1.attempts) :
    ∃ before after, a.registry.Agrees before.registry ∧
      (s.perform taken.step).run before = (taken.performed, after) := by
  induction budget generalizing pending a with
  | zero => cases h
  | succ budget ih =>
    cases pending with
    | nil => cases h
    | cons step pending =>
      rw [run_walk_cons] at h
      generalize hperform : (s.perform step).run a = outcome at h
      obtain ⟨performed, middle⟩ := outcome
      rcases List.mem_cons.mp h with rfl | h
      · exact ⟨a, middle, .refl _, hperform⟩
      · obtain ⟨before, after, hagrees, htaken⟩ := ih h
        exact ⟨before, after, (agrees_of_perform hperform).trans hagrees, htaken⟩

-- ---------------------------------------------------------------------------
-- Traces
-- ---------------------------------------------------------------------------

/-- The attempts that were built, each with what was performed. -/
def built (attempts : List Attempt) : List (Step × Performed) :=
  attempts.filterMap fun attempt => attempt.performed.map (attempt.step, ·)

theorem built_append (first more : List Attempt) :
    built (first ++ more) = built first ++ built more :=
  List.filterMap_append ..

def records (s : Setting) (performed : List (Step × Performed)) : List StepRecord :=
  performed.map fun (step, p) => s.record step p

def messages (performed : List (Step × Performed)) : List ServerMessage :=
  performed.flatMap fun (_, p) => p.performance.sent

def trace (s : Setting) (walk : Walk) : Trace :=
  { records := s.records (built walk.attempts)
    sent := messages (built walk.attempts)
    truncated := !walk.pending.isEmpty }

def first? (attempts : List Attempt) : Option Component :=
  attempts.head?.bind fun attempt => attempt.performed.map (·.component)

theorem trace_cons (s : Setting) (step : Step) (performed : Option Performed) (rest : Walk) :
    s.trace { rest with attempts := { step, performed } :: rest.attempts } =
      match performed with
      | none => s.trace rest
      | some p => s.extend step p (s.trace rest) := by
  cases performed <;> rfl

theorem run_eq_walk (s : Setting) (budget : Nat) (pending : List Step) :
    s.run budget pending = s.trace <$> s.walk budget pending := by
  induction budget generalizing pending with
  | zero => cases pending <;> rfl
  | succ budget ih =>
    cases pending with
    | nil => rfl
    | cons step pending =>
      simp only [run, walk, attempt, map_eq_pure_bind, bind_assoc, pure_bind]
      refine bind_congr fun performed => ?_
      cases performed with
      | none => simp [ih, following, trace_cons]
      | some p => simp [ih, following, trace_cons]

theorem start_eq_walk (s : Setting) (budget : Nat) (step : Step) :
    s.start budget step =
      (fun walk => (first? walk.attempts, s.trace walk)) <$> s.walk budget [step] := by
  cases budget with
  | zero => rfl
  | succ budget =>
    simp only [start, walk, attempt, map_eq_pure_bind, bind_assoc, pure_bind, List.append_nil]
    refine bind_congr fun performed => ?_
    cases performed with
    | none => simp [following, trace_cons, first?]; rfl
    | some p => simp [run_eq_walk, following, trace_cons, first?]

section
variable {P : (α : Type) → Building α → Prop}

theorem compositional_run (hP : Compositional P)
    (hcomponent : ∀ payload d, P _ ((s.scope payload).component d)) (budget : Nat)
    (pending : List Step) : P _ (s.run budget pending) := by
  rw [run_eq_walk]
  exact hP.map _ (compositional_walk hP hcomponent budget pending)

theorem compositional_start (hP : Compositional P)
    (hcomponent : ∀ payload d, P _ ((s.scope payload).component d)) (budget : Nat) (step : Step) :
    P _ (s.start budget step) := by
  rw [start_eq_walk]
  exact hP.map _ (compositional_walk hP hcomponent budget [step])

end

theorem grows_run (s : Setting) (budget : Nat) (pending : List Step) :
    Keeps (Inventory.Grows s.manifest) _ (s.run budget pending) :=
  compositional_run (keeps_compositional (fun _ => .refl) fun _ _ _ => .trans)
    (fun payload => (s.scope payload).grows_component) budget pending

theorem grows_start (s : Setting) (budget : Nat) (step : Step) :
    Keeps (Inventory.Grows s.manifest) _ (s.start budget step) :=
  compositional_start (keeps_compositional (fun _ => .refl) fun _ _ _ => .trans)
    (fun payload => (s.scope payload).grows_component) budget step

end Setting

end Cascade

namespace Orchestrator

open Cascade (Attempt Setting Trace Walk)

variable {o : Orchestrator} {f : Feature}

-- ---------------------------------------------------------------------------
-- Outcomes of cascades
-- ---------------------------------------------------------------------------

def reported (o : Orchestrator) (name : String) (f : Feature) (trigger : String)
    (run : Trace × Inventory) : Outcome Orchestrator Report :=
  let (trace, left) := run
  let report : Report :=
    { feature := name, trigger, records := trace.records, truncated := trace.truncated }
  { answer := report
    state := { o with
      features := o.features.insert name { f with objects := left.objects }
      registry := left.registry }
    sent := trace.sent, reports := [report] }

theorem performStep_eq_reported (hf : o.features.get? feature = some f)
    (hstep : (o.setting f log).step? payload key = some step)
    (hrun : ((o.setting f log).start o.maxSteps step).run
      { objects := f.objects, registry := o.registry } = ((component, trace), left)) :
    o.performStep feature payload key log =
      (o.reported feature f key (trace, left)).map (component, ·) := by
  simp only [performStep, hf, performIn, hstep, cascade, within]
  rw [hrun]
  rfl

theorem completePerform_eq_reported (hf : o.features.get? feature = some f) (outputs : Outputs)
    (source : String) (log : Bool) :
    o.completePerform feature outputs source log =
      o.reported feature f source
        (((o.setting f log).run o.maxSteps ((o.setting f log).follow source outputs)).run
          { objects := f.objects, registry := o.registry }) := by
  simp only [completePerform, hf]
  rfl

-- ---------------------------------------------------------------------------
-- Cascades as walks
-- ---------------------------------------------------------------------------

def walkIn (o : Orchestrator) (f : Feature) (payload : Property) (key : String) (log : Bool) :
    Walk × Inventory :=
  ((o.setting f log).walk o.maxSteps ((o.setting f log).step? payload key).toList).run
    { objects := f.objects, registry := o.registry }

/-- The steps that a cascade takes up, whether or not they can be built. -/
def attempts (o : Orchestrator) (feature : String) (payload : Property) (key : String)
    (log : Bool) : List Attempt :=
  ((o.features.get? feature).map fun f => (o.walkIn f payload key log).1.attempts).getD []

def reportOf (o : Orchestrator) (name : String) (f : Feature) (trigger : String) (log : Bool)
    (walk : Walk) : Report :=
  { feature := name, trigger
    records := (o.setting f log).records (Setting.built walk.attempts)
    truncated := !walk.pending.isEmpty }

theorem performIn_eq_walk (o : Orchestrator) (name : String) (f : Feature) (payload : Property)
    (key : String) (log : Bool) :
    o.performIn name f payload key log =
      let (walk, after) := o.walkIn f payload key log
      let report := o.reportOf name f key log walk
      { answer := (Setting.first? walk.attempts, report)
        state := { o with
          features := o.features.insert name { f with objects := after.objects }
          registry := after.registry }
        sent := Setting.messages (Setting.built walk.attempts)
        reports := [report] } := by
  unfold performIn walkIn
  cases (o.setting f log).step? payload key with
  | none =>
    simp only [Option.toList, Setting.walk_nil]
    rfl
  | some step =>
    simp only [Option.toList, Setting.start_eq_walk]
    rfl

theorem known_walkIn (o : Orchestrator) (f : Feature) (payload : Property) (key : String)
    (log : Bool) : ∀ attempt ∈ (o.walkIn f payload key log).1.attempts,
      f.manifest.component? attempt.step.key = some attempt.step.definition := by
  refine Setting.known_attempts o.maxSteps fun step hstep => ?_
  exact Setting.known_of_step? (Option.mem_toList.mp hstep)

end Orchestrator

end FeatureFlow
