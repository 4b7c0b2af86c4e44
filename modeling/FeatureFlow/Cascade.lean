import FeatureFlow.Feature.Construction

/-!
# Cascades

A cascade starts at one component and follows the routes of its outputs, depth
first and in the order of emission. Each component that is about to be built
takes one step of the budget; with steps left over for none of the pending
components, the cascade is truncated. What cannot be built is passed over, and
nothing follows from a component that fails.
-/

namespace FeatureFlow

-- ---------------------------------------------------------------------------
-- Reports
-- ---------------------------------------------------------------------------

/-- One performed component: the ports it emitted on, or why it failed. -/
structure StepRecord where
  feature : String
  component : String
  result : Except NodeError (List String)

namespace StepRecord

def ports (r : StepRecord) : List String :=
  match r.result with
  | .ok ports => ports
  | .error _ => []

def error? (r : StepRecord) : Option String :=
  match r.result with
  | .ok _ => none
  | .error e => some e.message

end StepRecord

structure Report where
  feature : String
  trigger : String
  records : List StepRecord
  truncated : Bool

namespace Report

def empty (feature trigger : String) : Report :=
  { feature, trigger, records := [], truncated := false }

def executed (r : Report) : List String :=
  r.records.map (·.component)

end Report

namespace Cascade

-- ---------------------------------------------------------------------------
-- Steps
-- ---------------------------------------------------------------------------

/-- What the steps of a cascade have in common. -/
structure Setting where
  manifest : Manifest
  registration : Nat
  link : Link
  log : Bool

structure Step where
  key : String
  definition : ComponentDefinition
  payload : Property

/-- What a cascade leaves behind besides data objects. -/
structure Trace where
  records : List StepRecord
  sent : List ServerMessage
  truncated : Bool

namespace Trace

def nothing : Trace :=
  { records := [], sent := [], truncated := false }

def cut : Trace :=
  { records := [], sent := [], truncated := true }

end Trace

namespace Setting

def scope (s : Setting) (payload : Property) : Scope :=
  { manifest := s.manifest, registration := s.registration, payload }

def step? (s : Setting) (payload : Property) (key : String) : Option Step :=
  (s.manifest.component? key).map fun definition => { key, definition, payload }

/-- The steps that follow from outputs, without targets that do not exist. -/
def follow (s : Setting) (source : String) (outputs : Outputs) : List Step :=
  outputs.flatMap fun (port, value) => (s.manifest.targets source port).filterMap (s.step? value)

structure Performed where
  component : Component
  performance : Performance

def perform (s : Setting) (step : Step) : Building (Option Performed) := do
  let component ← (s.scope step.payload).component step.definition
  return component.map fun c =>
    { component := c, performance := c.perform s.link step.payload s.log }

/-- The steps that a performed component leads to. Its routes are those of the
key it goes by. -/
def next (s : Setting) (p : Performed) : List Step :=
  match p.performance.result with
  | .ok outputs => s.follow p.component.key outputs
  | .error _ => []

def record (s : Setting) (step : Step) (p : Performed) : StepRecord :=
  { feature := s.manifest.feature, component := step.key
    result := p.performance.result.map fun outputs => outputs.map (·.1) }

def extend (s : Setting) (step : Step) (p : Performed) (rest : Trace) : Trace :=
  { rest with
    records := s.record step p :: rest.records
    sent := p.performance.sent ++ rest.sent }

def run (s : Setting) : Nat → List Step → Building Trace
  | _, [] => return .nothing
  | 0, _ :: _ => return .cut
  | budget + 1, step :: pending => do
    match ← s.perform step with
    -- what cannot be built has used its step
    | none => s.run budget pending
    | some p => s.extend step p <$> s.run budget (s.next p ++ pending)

/-- Performs a first step and all that follows, and gives the first component. -/
def start (s : Setting) (budget : Nat) (step : Step) : Building (Option Component × Trace) :=
  match budget with
  | 0 => return (none, .cut)
  | budget + 1 => do
    match ← s.perform step with
    | none => return (none, .nothing)
    | some p =>
      let rest ← s.run budget (s.next p)
      return (some p.component, s.extend step p rest)

end Setting

end Cascade

end FeatureFlow
