import FeatureFlow.Cascade

/-!
# Outcomes of operations

An operation gives an answer and the state after it. Besides, it sends messages
to the server and reports the cascades it ran, both in the order of events.
-/

namespace FeatureFlow

structure Outcome (σ α : Type) where
  answer : α
  state : σ
  sent : List ServerMessage
  reports : List Report

namespace Outcome

def quiet (state : σ) (answer : α) : Outcome σ α :=
  { answer, state, sent := [], reports := [] }

def map (f : α → β) (o : Outcome σ α) : Outcome σ β :=
  { answer := f o.answer, state := o.state, sent := o.sent, reports := o.reports }

/-- The same outcome, seen from a state that contains this one. -/
def lift (f : σ → τ) (o : Outcome σ α) : Outcome τ α :=
  { answer := o.answer, state := f o.state, sent := o.sent, reports := o.reports }

def andThen (o : Outcome σ α) (f : α → σ → Outcome σ β) : Outcome σ β :=
  let second := f o.answer o.state
  { second with sent := o.sent ++ second.sent, reports := o.reports ++ second.reports }

end Outcome

end FeatureFlow
