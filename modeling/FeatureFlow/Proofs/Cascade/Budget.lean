import FeatureFlow.Proofs.Cascade.Walk
import FeatureFlow.Registry.Standard

/-!
# Cascades under two budgets

A larger budget only goes on where a smaller one stopped. Both walks take up the
same steps until the smaller budget is used up, and from there on the larger one
adds attempts, messages and data objects and takes nothing back.
-/

namespace FeatureFlow

namespace Cascade.Setting

variable {s : Setting} {pending : List Step} {a : Inventory}

theorem walk_of_le (s : Setting) (pending : List Step) (a : Inventory) (h : n ≤ m) :
    let small := (s.walk n pending).run a
    let large := (s.walk m pending).run a
    Inventory.Grows s.manifest small.2 large.2 ∧
      (small.1.pending = [] → large = small) ∧
      ∃ more, large.1.attempts = small.1.attempts ++ more ∧
        (small.1.pending ≠ [] → n < m → more ≠ []) := by
  obtain ⟨k, rfl⟩ := Nat.exists_eq_add_of_le h
  simp only [run_walk_add]
  generalize hsmall : (s.walk n pending).run a = small
  obtain ⟨⟨attempts, left⟩, middle⟩ := small
  refine ⟨s.grows_walk k left middle, ?_, _, rfl, ?_⟩
  · rintro rfl
    simp only [run_walk_nil, List.append_nil]
  · intro hleft hlt hmore
    cases left with
    | nil => exact hleft rfl
    | cons step left =>
      obtain ⟨j, rfl⟩ : ∃ j, k = j + 1 := ⟨k - 1, by omega⟩
      -- with steps left over, the first of them is taken up
      have hcons := congrArg (·.1.attempts) (s.run_walk_cons j step left middle)
      exact nomatch hmore.symm.trans hcons

end Cascade.Setting

namespace Orchestrator

open Cascade (Setting)

variable {o : Orchestrator} {f : Feature}

def withMaxSteps (o : Orchestrator) (maxSteps : Nat) : Orchestrator :=
  { o with maxSteps }

-- ---------------------------------------------------------------------------
-- Two budgets
-- ---------------------------------------------------------------------------

theorem walkIn_of_budget_le (o : Orchestrator) (f : Feature) (payload : Property) (key : String)
    (log : Bool) (h : n ≤ m) :
    let small := (o.withMaxSteps n).walkIn f payload key log
    let large := (o.withMaxSteps m).walkIn f payload key log
    Inventory.Grows f.manifest small.2 large.2 ∧
      (small.1.pending = [] → large = small) ∧
      ∃ more, large.1.attempts = small.1.attempts ++ more ∧
        (small.1.pending ≠ [] → n < m → more ≠ []) :=
  Setting.walk_of_le (o.setting f log) _ _ h

theorem dataObject?_insert_of_grows {manifest : Manifest} {a b : Inventory}
    (h : Inventory.Grows manifest a b) {other : Orchestrator}
    {features : Table Feature}
    (ho : o.features = features.insert feature { f with objects := a.objects })
    (hother : other.features = features.insert feature { f with objects := b.objects })
    (hobject : o.dataObject? name key = some object) :
    other.dataObject? name key = some object := by
  unfold dataObject? at hobject ⊢
  rw [ho, Table.get?_insert] at hobject
  rw [hother, Table.get?_insert]
  by_cases hname : feature = name
  · simp only [hname, if_true, Option.bind_some, Option.map_eq_some_iff] at hobject ⊢
    obtain ⟨found, hfound, rfl⟩ := hobject
    exact ⟨found, h.get? hfound, rfl⟩
  · simpa [hname] using hobject

/-- A larger budget extends the records, messages and data objects of a smaller
one. A cascade that is not truncated is the same under both, and one that is
truncated would have gone on to another component of the manifest. -/
theorem performStep_of_budget_le (o : Orchestrator) (feature : String) (payload : Property)
    (key : String) (log : Bool) (h : n ≤ m) :
    let small := (o.withMaxSteps n).performStep feature payload key log
    let large := (o.withMaxSteps m).performStep feature payload key log
    small.answer.2.records <+: large.answer.2.records ∧
      small.sent <+: large.sent ∧
      (∀ name k object, small.state.dataObject? name k = some object →
        large.state.dataObject? name k = some object) ∧
      (small.answer.2.truncated = false → large = small.lift (·.withMaxSteps m)) ∧
      (small.answer.2.truncated = true → n < m →
        ∃ manifest attempt more, o.manifest? feature = some manifest ∧
          manifest.component? attempt.step.key = some attempt.step.definition ∧
          (o.withMaxSteps m).attempts feature payload key log =
            (o.withMaxSteps n).attempts feature payload key log ++ attempt :: more) := by
  cases hf : o.features.get? feature with
  | none =>
    simp only [performStep, withMaxSteps, hf]
    refine ⟨List.prefix_refl _, List.prefix_refl _, fun _ _ _ hobject => hobject, fun _ => rfl, ?_⟩
    intro htruncated
    cases htruncated
  | some f =>
    have hn : (o.withMaxSteps n).features.get? feature = some f := hf
    have hm : (o.withMaxSteps m).features.get? feature = some f := hf
    obtain ⟨hgrows, hsame, more, hmore, hnext⟩ := walkIn_of_budget_le o f payload key log h
    simp only [performStep, hn, hm, performIn_eq_walk, attempts, Option.map_some, Option.getD_some]
    generalize (o.withMaxSteps n).walkIn f payload key log = small at *
    generalize hlarge : (o.withMaxSteps m).walkIn f payload key log = large at *
    refine ⟨?records, ?sent, ?objects, ?same, ?next⟩
    case records =>
      simp only [reportOf, hmore, Setting.built_append, Setting.records, List.map_append]
      exact List.prefix_append _ _
    case sent =>
      simp only [hmore, Setting.built_append, Setting.messages, List.flatMap_append]
      exact List.prefix_append _ _
    case objects =>
      intro name k object hobject
      exact dataObject?_insert_of_grows hgrows rfl rfl hobject
    case same =>
      intro hwhole
      have hdone : small.1.pending = [] := by simpa [reportOf] using hwhole
      rw [hsame hdone]
      rfl
    case next =>
      intro htruncated hlt
      have hpending : small.1.pending ≠ [] := by simpa [reportOf] using htruncated
      cases more with
      | nil => exact absurd rfl (hnext hpending hlt)
      | cons attempt more =>
        refine ⟨f.manifest, attempt, more, by simp [manifest?, hf], ?_, hmore⟩
        refine known_walkIn (o.withMaxSteps m) f payload key log attempt ?_
        simp [hlarge, hmore]

/-- Tells the server and starts over, without end. -/
def circling : Orchestrator :=
  let again : ComponentDefinition :=
    { node := { key := "again", typeName := BuiltIn.relayType, owner := none
                properties := .map [("ports", .list [.text "tell", .text "next"])] }
      provider := none
      outputs := .ofList [("next", ["again"]), ("tell", ["server"])]
      devPanelVisible := false }
  let server : ComponentDefinition :=
    { node := { key := "server", typeName := BuiltIn.delegateType, owner := none
                properties := .null }
      provider := none, outputs := ∅, devPanelVisible := false }
  let components : ProviderDefinition :=
    { node := { key := "components", typeName := Provider.components.typeName, owner := none
                properties := .null } }
  let manifest : Manifest :=
    { feature := "circle"
      components := some (.ofList [("again", again), ("server", server)])
      dataObjects := none
      providers := some (.ofList [("components", components)])
      providerOrder := ["components"], repeats := [] }
  { (ofRegistry (.ofCatalogue .builtIn)).register manifest with link := .connected }

theorem performStep_circling_two_five :
    let small := (circling.withMaxSteps 2).performStep "circle" .null "again" false
    let large := (circling.withMaxSteps 5).performStep "circle" .null "again" false
    2 ≤ 5 ∧ small.answer.2.truncated = true ∧ 2 < 5 ∧
      small.answer.2.executed = ["again", "server"] ∧ small.sent.length = 1 ∧
      small.answer.2.records <+: large.answer.2.records ∧ small.sent <+: large.sent ∧
      ∃ manifest attempt more, circling.manifest? "circle" = some manifest ∧
        manifest.component? attempt.step.key = some attempt.step.definition ∧
        (circling.withMaxSteps 5).attempts "circle" .null "again" false =
          (circling.withMaxSteps 2).attempts "circle" .null "again" false ++ attempt :: more := by
  have hle : 2 ≤ 5 := by decide
  have hlt : 2 < 5 := by decide
  have htruncated : ((circling.withMaxSteps 2).performStep "circle" .null "again"
      false).answer.2.truncated = true := by decide +kernel
  obtain ⟨hrecords, hsent, _, _, hnext⟩ :=
    performStep_of_budget_le circling "circle" .null "again" false hle
  exact ⟨hle, htruncated, hlt, by decide +kernel, by decide +kernel, hrecords, hsent,
    hnext htruncated hlt⟩

end Orchestrator

end FeatureFlow
