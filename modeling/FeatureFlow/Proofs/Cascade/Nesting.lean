import FeatureFlow.Proofs.Cascade.Budget
import FeatureFlow.Proofs.Cascade.Tree
import FeatureFlow.Proofs.Manifest.Routing

/-!
# Nested steps

A step is nested in the steps that led to it. Each of them routes to the next one
(`fits_nestedWalk`), so in a manifest without routing cycles no component is nested in
itself. There each step leads to components that reach less than its own, so all steps
are taken up at some time (`finishes_of_depth`), and a budget that allows for them is
not used up.
-/

namespace FeatureFlow

namespace Cascade

/-- A step and those that led to it, the closest one first. -/
structure Nested where
  step : Step
  around : List Step

namespace Nested

def keys (n : Nested) : List String :=
  n.step.key :: n.around.map (·.key)

def inside (n : Nested) (steps : List Step) : List Nested :=
  steps.map ({ step := ·, around := n.step :: n.around })

end Nested

namespace Setting

/-- The pending steps and all that follow from them are taken up at some time. -/
inductive Finishes (s : Setting) : List Step → Inventory → Inventory → Prop
  | nil : Finishes s [] a a
  | cons (hperform : (s.perform step).run a = (performed, b))
      (rest : Finishes s (s.following { step, performed } ++ pending) b c) :
      Finishes s (step :: pending) a c

variable {s : Setting} {a b c : Inventory} {pending : List Step}

/-- A walk that keeps what each step is nested in. Gives the steps that were taken up
and those that are pending. -/
def nestedWalk (s : Setting) : Nat → List Nested → Building (List Nested × List Nested)
  | 0, pending => return ([], pending)
  | _, [] => return ([], [])
  | budget + 1, n :: pending => do
    let first ← s.attempt n.step
    let (taken, left) ← s.nestedWalk budget (n.inside (s.following first) ++ pending)
    return (n :: taken, left)

theorem run_nestedWalk_cons (s : Setting) (budget : Nat) (n : Nested) (pending : List Nested)
    (a : Inventory) :
    (s.nestedWalk (budget + 1) (n :: pending)).run a =
      let (performed, middle) := (s.perform n.step).run a
      let ((taken, left), after) := (s.nestedWalk budget
        (n.inside (s.following { step := n.step, performed }) ++ pending)).run middle
      ((n :: taken, left), after) := rfl

theorem run_nestedWalk (s : Setting) (budget : Nat) (pending : List Nested) (a : Inventory) :
    let nested := (s.nestedWalk budget pending).run a
    let plain := (s.walk budget (pending.map (·.step))).run a
    nested.1.1.map (·.step) = plain.1.attempts.map (·.step) ∧
      nested.1.2.map (·.step) = plain.1.pending ∧ nested.2 = plain.2 := by
  induction budget generalizing pending a with
  | zero => exact ⟨rfl, rfl, rfl⟩
  | succ budget ih =>
    cases pending with
    | nil => exact ⟨rfl, rfl, rfl⟩
    | cons n pending =>
      rw [List.map_cons, run_nestedWalk_cons, run_walk_cons]
      obtain ⟨performed, middle⟩ := (s.perform n.step).run a
      have hrest := ih (n.inside (s.following { step := n.step, performed }) ++ pending) middle
      have hsteps : (n.inside (s.following { step := n.step, performed }) ++ pending).map
          (·.step) = s.following { step := n.step, performed } ++ pending.map (·.step) := by
        simp [Nested.inside, Function.comp_def]
      rw [hsteps] at hrest
      obtain ⟨htaken, hleft, hafter⟩ := hrest
      exact ⟨congrArg (n.step :: ·) htaken, hleft, hafter⟩

-- ---------------------------------------------------------------------------
-- Routes
-- ---------------------------------------------------------------------------

theorem leads_of_follow (h : step ∈ s.follow source outputs) :
    s.manifest.Leads source step.key := by
  obtain ⟨⟨port, value⟩, -, hstep⟩ := List.mem_flatMap.mp h
  obtain ⟨target, htarget, htaken⟩ := List.mem_filterMap.mp hstep
  obtain ⟨d, hd, rfl⟩ := Option.map_eq_some_iff.mp htaken
  exact Manifest.leads_of_mem_targets htarget hd

section

variable (hkeys : ∀ key d, s.manifest.component? key = some d → d.key = key)
include hkeys

theorem leads_of_following {outer inner : Step} (hr : a.registry.KeepsKeys)
    (hknown : s.Known outer) (hperform : (s.perform outer).run a = (performed, b))
    (h : inner ∈ s.following { step := outer, performed }) :
    s.manifest.Leads outer.key inner.key := by
  cases performed with
  | none => cases h
  | some p =>
    -- the component goes by the key of its step, so these are the routes of the step
    have hp : p.component.key = outer.key :=
      (key_perform hr hperform).trans (hkeys outer.key outer.definition hknown)
    change inner ∈ s.next p at h
    unfold next at h
    split at h
    · exact hp ▸ leads_of_follow h
    · cases h

-- ---------------------------------------------------------------------------
-- Chains of nested steps
-- ---------------------------------------------------------------------------

/-- Each step of a chain is routed to from the one around it. -/
structure Fits (s : Setting) (n : Nested) : Prop where
  known : s.Known n.step
  chained : n.keys.IsChain fun inner outer => s.manifest.Leads outer inner

omit hkeys in
theorem fits_outermost (h : s.Known step) : s.Fits { step, around := [] } :=
  ⟨h, .singleton _⟩

theorem Fits.inside (h : s.Fits n) (hr : a.registry.KeepsKeys)
    (hperform : (s.perform n.step).run a = (performed, b)) :
    ∀ inner ∈ n.inside (s.following { step := n.step, performed }), s.Fits inner := by
  intro inner hinner
  obtain ⟨step, hstep, rfl⟩ := List.mem_map.mp hinner
  refine ⟨known_following hstep, ?_⟩
  exact .cons_cons (leads_of_following hkeys hr h.known hperform hstep) h.chained

theorem fits_nestedWalk (budget : Nat) (hr : a.registry.KeepsKeys) {pending : List Nested}
    (hpending : ∀ n ∈ pending, s.Fits n) :
    ∀ n ∈ ((s.nestedWalk budget pending).run a).1.1, s.Fits n := by
  induction budget generalizing pending a with
  | zero => exact fun _ h => nomatch h
  | succ budget ih =>
    cases pending with
    | nil => exact fun _ h => nomatch h
    | cons n pending =>
      rw [run_nestedWalk_cons]
      generalize hperform : (s.perform n.step).run a = outcome
      obtain ⟨performed, middle⟩ := outcome
      have hagrees := agrees_of_perform hperform
      obtain ⟨hn, hrest⟩ := List.forall_mem_cons.mp hpending
      refine List.forall_mem_cons.mpr ⟨hn, ih (hr.of_agrees hagrees) ?_⟩
      exact List.forall_mem_append.mpr ⟨hn.inside hkeys hr hperform, hrest⟩

end

theorem subset_of_isChain {m : Manifest} (h : keys.IsChain fun inner outer => m.Leads outer inner)
    (hfirst : ∀ key ∈ keys.head?, key ∈ m.componentKeys) : keys ⊆ m.componentKeys := by
  induction h with
  | nil => exact List.nil_subset _
  | singleton key => exact List.cons_subset.mpr ⟨hfirst key rfl, List.nil_subset _⟩
  | cons_cons hleads _ ih =>
    refine List.cons_subset.mpr ⟨hfirst _ rfl, ih ?_⟩
    rintro _ ⟨⟩
    exact hleads.source

theorem Fits.nodup (hacyclic : ∀ cycle, .routingCycle cycle ∉ s.manifest.diagnostics)
    (h : s.Fits n) : n.keys.Nodup := by
  have hdepths : n.keys.IsChain fun inner outer =>
      s.manifest.depth inner < s.manifest.depth outer :=
    h.chained.imp fun _ _ hleads => Manifest.depth_lt_of_leads hacyclic hleads
  have htrans : IsTrans String fun inner outer => s.manifest.depth inner < s.manifest.depth outer :=
    ⟨fun _ _ _ => Nat.lt_trans⟩
  -- depths grow outwards, so equal keys would have different depths
  refine hdepths.pairwise.imp ?_
  rintro key _ hlt rfl
  exact Nat.lt_irrefl _ hlt

theorem Fits.length_le (hacyclic : ∀ cycle, .routingCycle cycle ∉ s.manifest.diagnostics)
    (h : s.Fits n) : n.keys.length ≤ s.manifest.componentTable.size := by
  have hsubset : n.keys ⊆ s.manifest.componentKeys := by
    refine subset_of_isChain h.chained ?_
    rintro _ ⟨⟩
    exact Manifest.mem_componentKeys_iff.mpr (Option.isSome_iff_exists.mpr ⟨_, h.known⟩)
  exact Manifest.length_le_size (h.nodup hacyclic) hsubset

-- ---------------------------------------------------------------------------
-- Walks that finish
-- ---------------------------------------------------------------------------

theorem Finishes.append (first : s.Finishes pending a b) (second : s.Finishes more b c) :
    s.Finishes (pending ++ more) a c := by
  induction first with
  | nil => exact second
  | cons hperform _ ih =>
    have hrest := ih second
    rw [List.append_assoc] at hrest
    exact .cons hperform hrest

theorem Finishes.agrees (h : s.Finishes pending a b) : a.registry.Agrees b.registry := by
  induction h with
  | nil => exact .refl _
  | cons hperform _ ih => exact (agrees_of_perform hperform).trans ih

theorem Finishes.exists_walk (h : s.Finishes pending a b) :
    ∃ budget, ((s.walk budget pending).run a).1.pending = [] := by
  induction h with
  | nil => exact ⟨0, rfl⟩
  | cons hperform _ ih =>
    obtain ⟨budget, hbudget⟩ := ih
    refine ⟨budget + 1, ?_⟩
    rw [run_walk_cons, hperform]
    exact hbudget

theorem finishes_of_depth (hkeys : ∀ key d, s.manifest.component? key = some d → d.key = key)
    (hacyclic : ∀ cycle, .routingCycle cycle ∉ s.manifest.diagnostics) (bound : Nat)
    (hr : a.registry.KeepsKeys)
    (hpending : ∀ step ∈ pending, s.Known step ∧ s.manifest.depth step.key < bound) :
    ∃ b, s.Finishes pending a b := by
  -- on the depth, and for steps of one depth on how many are pending
  induction bound generalizing pending a with
  | zero =>
    cases pending with
    | nil => exact ⟨a, .nil⟩
    | cons step pending => exact absurd (hpending step (by simp)).2 (Nat.not_lt_zero _)
  | succ bound ih =>
    induction pending generalizing a with
    | nil => exact ⟨a, .nil⟩
    | cons step pending ihrest =>
      obtain ⟨⟨hknown, hdepth⟩, hrest⟩ := List.forall_mem_cons.mp hpending
      generalize hperform : (s.perform step).run a = outcome
      obtain ⟨performed, middle⟩ := outcome
      have hagrees := agrees_of_perform hperform
      -- what follows from the step reaches less than the step
      have hnext : ∀ inner ∈ s.following { step, performed },
          s.Known inner ∧ s.manifest.depth inner.key < bound := by
        intro inner hinner
        have hleads := leads_of_following hkeys hr hknown hperform hinner
        have hlt := Manifest.depth_lt_of_leads hacyclic hleads
        exact ⟨known_following hinner, by omega⟩
      obtain ⟨after, hfollowing⟩ := ih (hr.of_agrees hagrees) hnext
      obtain ⟨last, hlater⟩ := ihrest
        (hr.of_agrees (hagrees.trans hfollowing.agrees)) hrest
      exact ⟨last, .cons hperform (hfollowing.append hlater)⟩

theorem exists_budget (hkeys : ∀ key d, s.manifest.component? key = some d → d.key = key)
    (hacyclic : ∀ cycle, .routingCycle cycle ∉ s.manifest.diagnostics)
    (hr : a.registry.KeepsKeys) (hpending : ∀ step ∈ pending, s.Known step) :
    ∃ budget, ∀ n, budget ≤ n → ((s.walk n pending).run a).1.pending = [] := by
  have hdepth : ∀ step ∈ pending,
      s.Known step ∧ s.manifest.depth step.key < s.manifest.componentTable.size + 1 :=
    fun step hstep => ⟨hpending step hstep, Nat.lt_succ_of_le (s.manifest.depth_le step.key)⟩
  obtain ⟨after, hfinishes⟩ := finishes_of_depth hkeys hacyclic _ hr hdepth
  obtain ⟨budget, hbudget⟩ := hfinishes.exists_walk
  refine ⟨budget, fun n hn => ?_⟩
  rw [(s.walk_of_le pending a hn).2.1 hbudget]
  exact hbudget

end Setting

end Cascade

namespace Orchestrator

open Cascade (Nested Setting)

variable {catalogue : Catalogue} {o : Orchestrator} {f : Feature}

def nested (o : Orchestrator) (feature : String) (payload : Property) (key : String) (log : Bool) :
    List Nested :=
  ((o.features.get? feature).map fun f =>
    let first := ((o.setting f log).step? payload key).toList.map ({ step := ·, around := [] })
    (((o.setting f log).nestedWalk o.maxSteps first).run
      { objects := f.objects, registry := o.registry }).1.1).getD []

theorem map_step_nested (o : Orchestrator) (feature : String) (payload : Property) (key : String)
    (log : Bool) :
    (o.nested feature payload key log).map (·.step) =
      (o.attempts feature payload key log).map (·.step) := by
  unfold nested attempts
  cases o.features.get? feature with
  | none => rfl
  | some f =>
    have hsteps := ((o.setting f log).run_nestedWalk o.maxSteps
      (((o.setting f log).step? payload key).toList.map ({ step := ·, around := [] }))
      { objects := f.objects, registry := o.registry }).1
    simpa [walkIn, Function.comp_def] using hsteps

/-- A feature without routing cycles has no endless cascades, whatever its components
emit: with a budget that is large enough none is truncated. With any budget no component
is performed within itself, so steps are nested at most as deep as there are components. -/
theorem performStep_of_acyclic (ho : Reachable catalogue o) (hkeys : catalogue.KeepsKeys)
    (hf : o.features.get? feature = some f)
    (hacyclic : ∀ cycle, .routingCycle cycle ∉ f.manifest.diagnostics)
    (payload : Property) (key : String) (log : Bool) :
    (∃ budget, ∀ n, budget ≤ n →
        ((o.withMaxSteps n).performStep feature payload key log).answer.2.truncated = false) ∧
      ∀ n, let nested := (o.withMaxSteps n).nested feature payload key log
        nested.map (·.step) =
            ((o.withMaxSteps n).attempts feature payload key log).map (·.step) ∧
          ∀ chain ∈ nested, chain.keys.Nodup ∧
            chain.keys.length ≤ f.manifest.componentTable.size := by
  obtain ⟨root, hroot⟩ := ho.sound.manifest feature f hf
  have hmanifest : ∀ key d, f.manifest.component? key = some d → d.key = key :=
    fun key d hd => Manifest.key_of_component? (hroot ▸ hd)
  have hr : o.registry.KeepsKeys :=
    (Registry.keepsKeys_ofCatalogue hkeys).of_agrees ho.sound.registry
  let s := o.setting f log
  let before : Inventory := { objects := f.objects, registry := o.registry }
  have hfirst : ∀ step ∈ (s.step? payload key).toList, s.Known step :=
    fun step hstep => Setting.known_of_step? (Option.mem_toList.mp hstep)
  refine ⟨?finishes, fun n => ⟨map_step_nested .., ?chains⟩⟩
  case finishes =>
    obtain ⟨budget, hbudget⟩ := Setting.exists_budget (s := s) hmanifest hacyclic (a := before) hr
      hfirst
    refine ⟨budget, fun n hn => ?_⟩
    have hwalk : ((o.withMaxSteps n).walkIn f payload key log).1.pending = [] := hbudget n hn
    have hfeature : (o.withMaxSteps n).features.get? feature = some f := hf
    simp [performStep, hfeature, performIn_eq_walk, reportOf, hwalk]
  case chains =>
    intro chain hchain
    have hfeature : (o.withMaxSteps n).features.get? feature = some f := hf
    rw [nested, hfeature] at hchain
    have hfits : s.Fits chain := by
      refine Setting.fits_nestedWalk hmanifest n (a := before) hr ?_ chain hchain
      intro first hmem
      obtain ⟨step, hstep, rfl⟩ := List.mem_map.mp hmem
      exact Setting.fits_outermost (hfirst step hstep)
    exact ⟨hfits.nodup hacyclic, hfits.length_le hacyclic⟩

theorem performStep_of_acyclic_fanningOut :
    let manifest := Manifest.ofObject "fan" fanOut
    Reachable .builtIn fanningOut ∧ Catalogue.builtIn.KeepsKeys ∧
      fanningOut.features.get? "fan" = some (.ofManifest manifest) ∧
      (∀ cycle, .routingCycle cycle ∉ manifest.diagnostics) ∧
      (∃ budget, ∀ n, budget ≤ n →
        ((fanningOut.withMaxSteps n).performStep "fan" .null "start" false).answer.2.truncated =
          false) ∧
      ((fanningOut.withMaxSteps 4).nested "fan" .null "start" false).map (·.keys) =
        [["start"], ["leaf", "start"], ["odd", "start"], ["ask", "start"]] ∧
      ∀ chain ∈ (fanningOut.withMaxSteps 4).nested "fan" .null "start" false,
        chain.keys.Nodup ∧ chain.keys.length ≤ manifest.componentTable.size := by
  have hf : fanningOut.features.get? "fan" = some (.ofManifest (.ofObject "fan" fanOut)) :=
    Table.get?_insert_self ∅ "fan" _
  have hacyclic : ∀ cycle, .routingCycle cycle ∉ (Manifest.ofObject "fan" fanOut).diagnostics :=
    Manifest.acyclic_of_falling (fun key => if key = "start" then 1 else 0) (by decide +kernel)
  obtain ⟨hbudget, hchains⟩ := performStep_of_acyclic reachable_fanningOut
    Catalogue.keepsKeys_builtIn hf hacyclic .null "start" false
  exact ⟨reachable_fanningOut, Catalogue.keepsKeys_builtIn, hf, hacyclic, hbudget,
    by decide +kernel, (hchains 4).2⟩

end Orchestrator

end FeatureFlow
