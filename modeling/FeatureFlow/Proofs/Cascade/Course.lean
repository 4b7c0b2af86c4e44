import FeatureFlow.Proofs.Cascade.Budget

/-!
# The course of a cascade

A component is performed inside the one that routed to it, and hands the rest of the budget
back. `Setting.enter` follows a cascade in this order, with the budget in its state, and has
no result where components are performed deeper inside each other than it is allowed. It goes
the way of the walk (`Setting.run_visits`), so a cascade ends within its budget.
-/

namespace FeatureFlow

open Building (Limited)

namespace Cascade

structure Course where
  remaining : Nat
  truncated : Bool
  records : List StepRecord
  sent : List ServerMessage
  /-- How many components it has tried to build. -/
  attempted : Nat

namespace Course

def start (budget : Nat) : Course :=
  { remaining := budget, truncated := false, records := [], sent := [], attempted := 0 }

def trace (c : Course) : Trace :=
  { records := c.records, sent := c.sent, truncated := c.truncated }

def after (c : Course) (s : Setting) (walk : Walk) : Course :=
  { remaining := c.remaining - walk.attempts.length
    truncated := c.truncated || !walk.pending.isEmpty
    records := c.records ++ s.records (Setting.built walk.attempts)
    sent := c.sent ++ Setting.messages (Setting.built walk.attempts)
    attempted := c.attempted + walk.attempts.length }

theorem after_nil (c : Course) (s : Setting) (pending : List Step) :
    c.after s { attempts := [], pending } =
      { c with truncated := c.truncated || !pending.isEmpty } := by
  simp [after, Setting.built, Setting.records, Setting.messages]

/-- A component that cannot be built has used its step. -/
theorem after_unbuilt (c : Course) (s : Setting) (step : Step) :
    c.after s { attempts := [{ step, performed := none }], pending := [] } =
      { c with remaining := c.remaining - 1, attempted := c.attempted + 1 } := by
  simp [after, Setting.built, Setting.records, Setting.messages]

theorem after_performed (c : Course) (s : Setting) (step : Step) (p : Setting.Performed) :
    c.after s { attempts := [{ step, performed := some p }], pending := [] } =
      { c with
        remaining := c.remaining - 1
        records := c.records ++ [s.record step p]
        sent := c.sent ++ p.performance.sent
        attempted := c.attempted + 1 } := by
  simp [after, Setting.built, Setting.records, Setting.messages]

theorem after_cons (c : Course) (s : Setting) (first : Attempt) (rest : Walk) :
    (c.after s { attempts := [first], pending := [] }).after s rest =
      c.after s { rest with attempts := first :: rest.attempts } := by
  have hsplit : Setting.built (first :: rest.attempts) =
      Setting.built [first] ++ Setting.built rest.attempts :=
    Setting.built_append [first] rest.attempts
  simp [after, hsplit, Setting.records, Setting.messages]
  omega

end Course

abbrev Coursing := Limited Course

abbrev Visit := Property → String → Coursing (Option Component)

namespace Setting

-- ---------------------------------------------------------------------------
-- Components inside components
-- ---------------------------------------------------------------------------

def takeStep : Coursing Bool := do
  let c ← get
  if c.remaining = 0 then
    set { c with truncated := true }
    return false
  else
    set { c with remaining := c.remaining - 1 }
    return true

/-- Goes on with the component of a key, if there is one and a step left for it. -/
def proceed (s : Setting) (execute : Step → Coursing (Option Component)) : Visit :=
  fun payload key => do
    match s.step? payload key with
    | none => return none
    | some step => if ← takeStep then execute step else return none

def route (s : Setting) (visit : Visit) (source : String) (outputs : Outputs) : Coursing Unit :=
  forM outputs fun (port, value) =>
    forM (s.manifest.targets source port) fun target => discard (visit value target)

def execute (s : Setting) (visit : Visit) (step : Step) : Coursing (Option Component) := do
  modify fun c => { c with attempted := c.attempted + 1 }
  match ← Limited.ofBuilding (s.perform step) with
  | none => return none
  | some p =>
    modify fun c =>
      { c with records := c.records ++ [s.record step p], sent := c.sent ++ p.performance.sent }
    match p.performance.result with
    | .ok outputs => s.route visit p.component.key outputs
    | .error _ => pure ()
    return some p.component

/-- Performs a component, with as many inside each other as `depth` allows. -/
def enter (s : Setting) : Nat → Visit
  | 0 => s.proceed fun _ => failure
  | depth + 1 => s.proceed (s.execute (s.enter depth))

-- ---------------------------------------------------------------------------
-- Single components
-- ---------------------------------------------------------------------------

variable {s : Setting} {c : Course} {a : Inventory} {step : Step} {depth : Nat}

/-- Pending steps, each with how deep components may be performed inside it. -/
def visits (s : Setting) (pending : List (Nat × Step)) : Coursing Unit :=
  forM pending fun (depth, step) => discard (s.enter depth step.payload step.key)

theorem enter_of_unknown (depth : Nat) (h : s.step? payload key = none) :
    s.enter depth payload key = pure none := by
  cases depth <;> simp only [enter, proceed, h]

theorem route_eq_visits (s : Setting) (depth : Nat) (source : String) (outputs : Outputs) :
    s.route (s.enter depth) source outputs =
      s.visits ((s.follow source outputs).map (depth, ·)) := by
  have htargets (value : Property) (targets : List String) :
      (forM targets fun target => discard (s.enter depth value target)) =
        s.visits ((targets.filterMap (s.step? value)).map (depth, ·)) := by
    induction targets with
    | nil => rfl
    | cons target rest ih =>
      rw [List.forM_cons, ih]
      cases hstep : s.step? value target with
      | none => simp [enter_of_unknown depth hstep, hstep, discard, map_const]
      | some step =>
        obtain ⟨d, -, rfl⟩ := Option.map_eq_some_iff.mp hstep
        simp [hstep, visits, List.forM_cons]
  unfold route follow
  induction outputs with
  | nil => rfl
  | cons output rest ih =>
    obtain ⟨port, value⟩ := output
    rw [List.forM_cons, ih]
    simp only [htargets, visits, List.flatMap_cons, List.map_append, List.forM_append]

theorem run_enter_of_used_up (hused : c.remaining = 0) (hstep : s.step? payload key = some step) :
    ((s.enter depth payload key).run c).run a = some ((none, { c with truncated := true }), a) := by
  have htake : (takeStep.run c).run a = some ((false, { c with truncated := true }), a) := by
    simp only [takeStep]
    refine (Limited.run_bind_of_run rfl).trans ?_
    rw [if_pos hused]
    rfl
  cases depth <;> simp only [enter, proceed, hstep] <;> exact Limited.run_bind_of_run htake

theorem run_enter_succ (hleft : c.remaining ≠ 0) (hstep : s.step? payload key = some step) :
    ((s.enter (depth + 1) payload key).run c).run a =
      let (performed, b) := (s.perform step).run a
      let first : Attempt := { step, performed }
      ((s.visits ((s.following first).map (depth, ·)) >>= fun _ =>
        pure (performed.map (·.component))).run
          (c.after s { attempts := [first], pending := [] })).run b := by
  have htake : (takeStep.run c).run a =
      some ((true, { c with remaining := c.remaining - 1 }), a) := by
    simp only [takeStep]
    refine (Limited.run_bind_of_run rfl).trans ?_
    rw [if_neg hleft]
    rfl
  simp only [enter, proceed, hstep]
  refine (Limited.run_bind_of_run htake).trans ?_
  refine (Limited.run_bind_of_run rfl).trans ?_
  refine (Limited.run_bind_of_run rfl).trans ?_
  obtain ⟨performed, b⟩ := (s.perform step).run a
  cases performed with
  | none =>
    dsimp only
    rw [c.after_unbuilt]
    rfl
  | some p =>
    dsimp only
    rw [c.after_performed]
    refine (Limited.run_bind_of_run rfl).trans ?_
    simp only [following, Option.elim, next]
    cases p.performance.result with
    | error e => rfl
    | ok outputs =>
      dsimp only
      rw [route_eq_visits]
      rfl

-- ---------------------------------------------------------------------------
-- Courses and walks
-- ---------------------------------------------------------------------------

theorem visits_cons (s : Setting) (depth : Nat) (step : Step) (rest : List (Nat × Step)) :
    s.visits ((depth, step) :: rest) =
      s.enter depth step.payload step.key >>= fun _ => s.visits rest := by
  simp [visits, discard, map_const]

theorem visits_append (s : Setting) (first rest : List (Nat × Step)) :
    s.visits (first ++ rest) = s.visits first >>= fun _ => s.visits rest := by
  simp [visits]

theorem step?_of_known (h : s.Known step) : s.step? step.payload step.key = some step :=
  Option.map_eq_some_iff.mpr ⟨step.definition, h, rfl⟩

theorem run_visits_of_used_up (pending : List (Nat × Step)) (hused : c.remaining = 0)
    (hknown : ∀ x ∈ pending, s.Known x.2) :
    ((s.visits pending).run c).run a =
      some (((), { c with truncated := c.truncated || !pending.isEmpty }), a) := by
  induction pending generalizing c with
  | nil =>
    simp only [List.isEmpty_nil, Bool.not_true, Bool.or_false]
    rfl
  | cons x rest ih =>
    obtain ⟨depth, step⟩ := x
    have hstep := step?_of_known (hknown _ List.mem_cons_self)
    rw [visits_cons]
    refine (Limited.run_bind_of_run (run_enter_of_used_up hused hstep)).trans ?_
    have hrest := ih (c := { c with truncated := true }) hused
      fun y hy => hknown y (List.mem_cons_of_mem _ hy)
    simpa using hrest

theorem run_visits_cons (hleft : c.remaining ≠ 0) (hknown : s.Known step)
    (rest : List (Nat × Step)) :
    ((s.visits ((depth + 1, step) :: rest)).run c).run a =
      let (performed, b) := (s.perform step).run a
      let first : Attempt := { step, performed }
      ((s.visits ((s.following first).map (depth, ·) ++ rest)).run
        (c.after s { attempts := [first], pending := [] })).run b := by
  have henter : ((s.enter (depth + 1) step.payload step.key).run c).run a = _ :=
    run_enter_succ hleft (step?_of_known hknown)
  rw [visits_cons]
  generalize (s.perform step).run a = outcome at henter ⊢
  obtain ⟨performed, b⟩ := outcome
  refine (Limited.run_bind_congr _ henter).trans ?_
  simp only [visits_append, bind_assoc, pure_bind]

/-- Visiting pending steps one after the other goes the way of the walk, if components may be
performed as deep inside each other as there are steps left. -/
theorem run_visits (s : Setting) (pending : List (Nat × Step)) (c : Course) (a : Inventory)
    (hknown : ∀ x ∈ pending, s.Known x.2) (hdepth : ∀ x ∈ pending, c.remaining ≤ x.1) :
    ((s.visits pending).run c).run a =
      let (walk, b) := (s.walk c.remaining (pending.map (·.2))).run a
      some (((), c.after s walk), b) := by
  generalize hleft : c.remaining = left at hdepth
  -- a step that is taken up makes way for what follows from it, one component deeper
  induction left generalizing pending c a with
  | zero =>
    rw [run_visits_of_used_up pending hleft hknown]
    show some (((), { c with truncated := c.truncated || !pending.isEmpty }), a) =
      some (((), c.after s { attempts := [], pending := pending.map (·.2) }), a)
    rw [c.after_nil, List.isEmpty_map]
  | succ left ih =>
    cases pending with
    | nil =>
      rw [List.map_nil, run_walk_nil]
      show some (((), c), a) = some (((), c.after s { attempts := [], pending := [] }), a)
      simp [c.after_nil]
    | cons x rest =>
      obtain ⟨depth, step⟩ := x
      obtain ⟨hstep, hrest⟩ := List.forall_mem_cons.mp hknown
      obtain ⟨hhead, htail⟩ := List.forall_mem_cons.mp hdepth
      obtain ⟨inner, rfl⟩ : ∃ inner, depth = inner + 1 := ⟨depth - 1, by omega⟩
      rw [run_visits_cons (by omega) hstep, List.map_cons, run_walk_cons]
      obtain ⟨performed, b⟩ := (s.perform step).run a
      dsimp only
      have hknown' : ∀ x ∈ (s.following { step, performed }).map (inner, ·) ++ rest,
          s.Known x.2 := by
        refine List.forall_mem_append.mpr ⟨List.forall_mem_map.mpr fun next hnext => ?_, hrest⟩
        exact known_following hnext
      have hdepth' : ∀ x ∈ (s.following { step, performed }).map (inner, ·) ++ rest,
          left ≤ x.1 := by
        refine List.forall_mem_append.mpr ⟨List.forall_mem_map.mpr fun next _ => ?_, ?_⟩
        · exact Nat.le_of_succ_le_succ hhead
        · exact fun x hx => Nat.le_of_succ_le (htail x hx)
      have hsteps : ((s.following { step, performed }).map (inner, ·) ++ rest).map (·.2) =
          s.following { step, performed } ++ rest.map (·.2) := by
        simp [Function.comp_def]
      rw [ih _ _ _ hknown' (Nat.sub_eq_of_eq_add hleft) hdepth', hsteps]
      obtain ⟨later, after⟩ := (s.walk left
        (s.following { step, performed } ++ rest.map (·.2))).run b
      simp only [c.after_cons]

theorem run_visits_inside {steps : List Step} (hknown : ∀ step ∈ steps, s.Known step)
    (hdepth : c.remaining ≤ depth) (a : Inventory) :
    ((s.visits (steps.map (depth, ·))).run c).run a =
      let (walk, b) := (s.walk c.remaining steps).run a
      some (((), c.after s walk), b) := by
  have hdepths : ∀ x ∈ steps.map (depth, ·), c.remaining ≤ x.1 :=
    List.forall_mem_map.mpr fun _ _ => hdepth
  rw [run_visits s _ c a (List.forall_mem_map.mpr hknown) hdepths]
  simp [Function.comp_def]

theorem run_enter (s : Setting) (depth : Nat) (payload : Property) (key : String) (c : Course)
    (a : Inventory) (hdepth : c.remaining ≤ depth) :
    ((s.enter depth payload key).run c).run a =
      let (walk, b) := (s.walk c.remaining (s.step? payload key).toList).run a
      some ((first? walk.attempts, c.after s walk), b) := by
  cases hstep : s.step? payload key with
  | none =>
    rw [enter_of_unknown depth hstep, Option.toList_none, run_walk_nil]
    show some ((none, c), a) = some ((none, c.after s { attempts := [], pending := [] }), a)
    simp [c.after_nil]
  | some step =>
    rw [Option.toList_some]
    cases hleft : c.remaining with
    | zero =>
      rw [run_enter_of_used_up hleft hstep]
      show _ = some ((none, c.after s { attempts := [], pending := [step] }), a)
      simp [c.after_nil]
    | succ left =>
      obtain ⟨inner, rfl⟩ : ∃ inner, depth = inner + 1 := ⟨depth - 1, by omega⟩
      rw [run_enter_succ (by omega) hstep, run_walk_cons]
      obtain ⟨performed, b⟩ := (s.perform step).run a
      have hremaining : (c.after s { attempts := [{ step, performed }], pending := [] }).remaining =
          left := Nat.sub_eq_of_eq_add hleft
      have hinner : (c.after s { attempts := [{ step, performed }], pending := [] }).remaining ≤
          inner := by omega
      have hknown (next : Step) (h : next ∈ s.following { step, performed }) : s.Known next :=
        known_following h
      have hvisits := run_visits_inside hknown hinner b
      rw [hremaining] at hvisits
      simp only [List.append_nil]
      generalize (s.walk left (s.following { step, performed })).run b = outcome at hvisits ⊢
      obtain ⟨later, after⟩ := outcome
      simp only [c.after_cons] at hvisits
      exact Limited.run_bind_of_run hvisits

theorem run_route (s : Setting) (depth : Nat) (source : String) (outputs : Outputs) (c : Course)
    (a : Inventory) (hdepth : c.remaining ≤ depth) :
    ((s.route (s.enter depth) source outputs).run c).run a =
      let (walk, b) := (s.walk c.remaining (s.follow source outputs)).run a
      some (((), c.after s walk), b) := by
  rw [route_eq_visits]
  exact run_visits_inside (fun step hstep => known_follow hstep) hdepth a

/-- With no step left, only the mark that the cascade was truncated can change. -/
theorem run_enter_of_zero (s : Setting) (depth : Nat) (a : Inventory) (hused : c.remaining = 0)
    (payload : Property) (key : String) :
    ∃ truncated,
      ((s.enter depth payload key).run c).run a = some ((none, { c with truncated }), a) := by
  have hrun := run_enter s depth payload key c a (by omega)
  rw [hused] at hrun
  exact ⟨_, hrun.trans (congrArg (fun c => some ((none, c), a)) (c.after_nil s _))⟩

theorem run_route_of_zero (s : Setting) (depth : Nat) (a : Inventory) (hused : c.remaining = 0)
    (source : String) (outputs : Outputs) :
    ∃ truncated,
      ((s.route (s.enter depth) source outputs).run c).run a =
        some (((), { c with truncated }), a) := by
  have hrun := run_route s depth source outputs c a (by omega)
  rw [hused] at hrun
  exact ⟨_, hrun.trans (congrArg (fun c => some (((), c), a)) (c.after_nil s _))⟩

end Setting

/-- Each attempt has used one step of the budget, and there are no records of others. -/
structure Course.Within (c : Course) (budget : Nat) : Prop where
  steps : c.attempted + c.remaining = budget
  records : c.records.length ≤ c.attempted

theorem Course.Within.records_le {c : Course} {budget : Nat} (h : c.Within budget) :
    c.records.length ≤ budget := by
  have hsteps := h.steps
  have hrecords := h.records
  omega

theorem Course.within_walk (s : Setting) (budget : Nat) (pending : List Step) (a : Inventory) :
    ((start budget).after s ((s.walk budget pending).run a).1).Within budget := by
  have hattempts := (s.length_attempts budget pending a).1
  generalize ((s.walk budget pending).run a).1 = walk at hattempts ⊢
  refine ⟨?_, ?_⟩
  · simp only [after, start]
    omega
  · simpa [after, start, Setting.records, Setting.built] using
      List.length_filterMap_le _ walk.attempts

end Cascade

namespace Orchestrator

open Cascade (Course Setting)

variable {o : Orchestrator} {f : Feature}

theorem performStep_of_course (hf : o.features.get? feature = some f) (payload : Property)
    (key : String) (log : Bool) :
    ∃ component course b,
      (((o.setting f log).enter o.maxSteps payload key).run (.start o.maxSteps)).run
          { objects := f.objects, registry := o.registry } = some ((component, course), b) ∧
        course.Within o.maxSteps ∧
        o.performStep feature payload key log = o.cascade feature f key do
          set b
          return (component, course.trace) := by
  have hrun := Setting.run_enter (o.setting f log) o.maxSteps payload key (.start o.maxSteps)
    { objects := f.objects, registry := o.registry } (Nat.le_refl _)
  refine ⟨_, _, _, hrun, Course.within_walk .., ?_⟩
  simp only [performStep, hf, performIn_eq_walk]
  rfl

theorem completePerform_of_course (hf : o.features.get? feature = some f) (source : String)
    (outputs : Outputs) (log : Bool) :
    ∃ course b,
      (((o.setting f log).route ((o.setting f log).enter o.maxSteps) source outputs).run
          (.start o.maxSteps)).run { objects := f.objects, registry := o.registry } =
        some (((), course), b) ∧
        course.Within o.maxSteps ∧
        o.completePerform feature outputs source log =
          Outcome.map (·.2) (o.cascade feature f source do
            set b
            return ((), course.trace)) := by
  have hrun := Setting.run_route (o.setting f log) o.maxSteps source outputs (.start o.maxSteps)
    { objects := f.objects, registry := o.registry } (Nat.le_refl _)
  refine ⟨_, _, hrun, Course.within_walk .., ?_⟩
  simp only [completePerform, hf, Setting.run_eq_walk]
  rfl

/-- A cascade ends, with components performed inside each other at most as often as its budget
allows. It tries to build one component for each step, and has a record of no other. With no
step left it changes nothing but the mark that it was truncated. -/
theorem cascade_ends (o : Orchestrator) (feature key source : String) (payload : Property)
    (outputs : Outputs) (log : Bool) :
    (o.performStep feature payload key log).answer.2.records.length ≤ o.maxSteps ∧
      (o.completePerform feature outputs source log).answer.records.length ≤ o.maxSteps ∧
      ∀ f, o.features.get? feature = some f →
        let s := o.setting f log
        let a : Inventory := { objects := f.objects, registry := o.registry }
        (∃ component course b,
          ((s.enter o.maxSteps payload key).run (.start o.maxSteps)).run a =
            some ((component, course), b) ∧
          course.Within o.maxSteps ∧
          o.performStep feature payload key log = o.cascade feature f key do
            set b
            return (component, course.trace)) ∧
        (∃ course b,
          ((s.route (s.enter o.maxSteps) source outputs).run (.start o.maxSteps)).run a =
            some (((), course), b) ∧
          course.Within o.maxSteps ∧
          o.completePerform feature outputs source log =
            Outcome.map (·.2) (o.cascade feature f source do
              set b
              return ((), course.trace))) ∧
        ∀ depth (c : Course) a, c.remaining = 0 →
          (∀ payload key, ∃ truncated,
            ((s.enter depth payload key).run c).run a = some ((none, { c with truncated }), a)) ∧
          ∀ source outputs, ∃ truncated,
            ((s.route (s.enter depth) source outputs).run c).run a =
              some (((), { c with truncated }), a) := by
  cases hf : o.features.get? feature with
  | none =>
    simp only [performStep, completePerform, hf]
    refine ⟨Nat.zero_le _, Nat.zero_le _, fun f hsome => ?_⟩
    cases hsome
  | some f =>
    obtain ⟨component, course, b, hrun, hwithin, hperform⟩ :=
      performStep_of_course hf payload key log
    obtain ⟨other, b', hrun', hwithin', hcomplete⟩ :=
      completePerform_of_course hf source outputs log
    refine ⟨?_, ?_, ?_⟩
    · rw [hperform]
      exact hwithin.records_le
    · rw [hcomplete]
      exact hwithin'.records_le
    · intro _ hsome
      obtain rfl := Option.some.inj hsome
      refine ⟨⟨component, course, b, hrun, hwithin, hperform⟩,
        ⟨other, b', hrun', hwithin', hcomplete⟩, fun depth c a hused => ?_⟩
      exact ⟨Setting.run_enter_of_zero _ depth a hused, Setting.run_route_of_zero _ depth a hused⟩

/-- The circle takes up its budget, and the fourth component is not tried any more. -/
theorem cascade_ends_circling :
    let o := circling.withMaxSteps 3
    ∃ f, o.features.get? "circle" = some f ∧
      ∃ component course b,
        (((o.setting f false).enter 3 .null "again").run (.start 3)).run
            { objects := f.objects, registry := o.registry } = some ((component, course), b) ∧
          course.Within 3 ∧ course.attempted = 3 ∧ course.truncated = true ∧
          course.records.map (·.component) = ["again", "server", "again"] ∧
          (o.performStep "circle" .null "again" false).answer.2.records.length ≤ 3 := by
  intro o
  obtain ⟨hrecords, -, hactive⟩ := cascade_ends o "circle" "again" "again" .null [] false
  obtain ⟨f, hf⟩ : ∃ f, o.features.get? "circle" = some f :=
    Option.isSome_iff_exists.mp (by decide +kernel)
  obtain ⟨⟨component, course, b, hrun, hwithin, -⟩, -⟩ := hactive f hf
  have hcourse : ((o.features.get? "circle").bind fun f =>
      ((((o.setting f false).enter 3 .null "again").run (.start 3)).run
        { objects := f.objects, registry := o.registry }).map fun result =>
          (result.1.2.attempted, result.1.2.truncated, result.1.2.records.map (·.component))) =
      some (3, true, ["again", "server", "again"]) := by
    decide +kernel
  have hrun' : ((((o.setting f false).enter 3 .null "again").run (.start 3)).run
      { objects := f.objects, registry := o.registry }) = some ((component, course), b) := hrun
  rw [hf, Option.bind_some, hrun'] at hcourse
  obtain ⟨hattempted, htruncated, hcomponents⟩ : course.attempted = 3 ∧ course.truncated = true ∧
      course.records.map (·.component) = ["again", "server", "again"] := by
    simpa using hcourse
  exact ⟨f, hf, component, course, b, hrun, hwithin, hattempted, htruncated, hcomponents, hrecords⟩

end Orchestrator

end FeatureFlow
