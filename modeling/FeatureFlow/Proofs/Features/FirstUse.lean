import FeatureFlow.Proofs.Features.Programs
import FeatureFlow.Proofs.Features.References

/-!
# The order of first uses

Data objects are built when they are first used, in an order that depends on who asks first.
Where a manifest is static this order does not show: after any two sequences of uses the data
objects that are there in both are the same, and every key is answered alike
(`uses_alike`). What carries the sequences is that everything there is denoted by its key
(`SettledIn`).
-/

namespace FeatureFlow.Orchestrator

open Building (keeps_compositional)

variable {o p : Orchestrator} {g key : String} {f : Feature} {live : LiveObject}

-- ---------------------------------------------------------------------------
-- Uses
-- ---------------------------------------------------------------------------

def lookUp (o : Orchestrator) (feature : String) (payload : Property) (key : String) :
    Option LiveObject × Orchestrator :=
  match o.features.get? feature with
  | none => (none, o)
  | some f => o.within feature f ((f.scope payload).dataObject key)

inductive Use where
  /-- Looks up what the components it runs refer to. -/
  | operation (operation : Operation)
  | lookUp (payload : Property) (key : String)

/-- The use neither registers the feature nor has data for its objects. -/
def Use.Reads (feature : String) : Use → Prop
  | .operation x => x.registers feature = false ∧ ∀ key, x.changes feature key = []
  | .lookUp .. => True

def afterUse (o : Orchestrator) (feature : String) : Use → Orchestrator
  | .operation x => o.after x
  | .lookUp payload key => (o.lookUp feature payload key).2

def afterUses (o : Orchestrator) (feature : String) (uses : List Use) : Orchestrator :=
  uses.foldl (·.afterUse feature ·) o

-- ---------------------------------------------------------------------------
-- Settled features
-- ---------------------------------------------------------------------------

/-- The feature has been used, and all objects there are what their keys denoted before. -/
def SettledIn (g : String) (f : Feature) (o p : Orchestrator) : Prop :=
  ∃ objects, p.features.get? g = some { f with objects } ∧
    (f.scope .null).Settled (o.inventory f) { objects, registry := p.registry }

theorem SettledIn.refl (hf : o.features.get? g = some f) : SettledIn g f o o :=
  ⟨f.objects, hf, .refl ..⟩

theorem SettledIn.denoted (h : SettledIn g f o p) (hthere : p.dataObject? g key = some live) :
    (f.scope .null).denoted (o.inventory f) key = some live := by
  obtain ⟨objects, hfound, hsettled⟩ := h
  simp only [dataObject?, hfound, Option.bind_some, Option.map_eq_some_iff] at hthere
  obtain ⟨object, hobject, rfl⟩ := hthere
  exact hsettled.denoted key object hobject

section

variable (hstatic : f.manifest.Static)
include hstatic

theorem SettledIn.lookUp (h : SettledIn g f o p) (payload : Property) (key : String) :
    (p.lookUp g payload key).1 = (f.scope .null).denoted (o.inventory f) key ∧
      SettledIn g f o (p.lookUp g payload key).2 := by
  obtain ⟨objects, hfound, hsettled⟩ := h
  obtain ⟨hanswer, hafter⟩ :=
    Scope.gives_dataObject (s := f.scope .null) hstatic (o.inventory f) payload key _ hsettled
  simp only [Orchestrator.lookUp, hfound]
  exact ⟨hanswer, _, (get?_within ..).trans (if_pos rfl), hafter⟩

theorem SettledIn.after (h : SettledIn g f o p) {x : Operation} (hx : (Use.operation x).Reads g) :
    SettledIn g f o (p.after x) := by
  obtain ⟨objects, hfound, hsettled⟩ := h
  have hkeeps := keeps_compositional
    (R := fun b c => (f.scope .null).Settled (o.inventory f) b →
      (f.scope .null).Settled (o.inventory f) c) (fun _ h => h) fun _ _ _ hbc hcd h => hcd (hbc h)
  obtain ⟨program, hprogram, hlater, hagrees⟩ := runsOn_after hkeeps hfound
    (Scope.settled_component (s := f.scope .null) hstatic (o.inventory f)) hx.1 hx.2
  exact ⟨_, hlater, (hprogram _ hsettled).of_agrees hagrees⟩

theorem SettledIn.afterUse (h : SettledIn g f o p) {use : Use} (huse : use.Reads g) :
    SettledIn g f o (p.afterUse g use) := by
  cases use with
  | operation x => exact h.after hstatic huse
  | lookUp payload key => exact (h.lookUp hstatic payload key).2

theorem SettledIn.afterUses (h : SettledIn g f o p) {uses : List Use}
    (huses : ∀ use ∈ uses, use.Reads g) : SettledIn g f o (p.afterUses g uses) := by
  induction uses generalizing p with
  | nil => exact h
  | cons use rest ih =>
    have hfirst := h.afterUse hstatic (huses use List.mem_cons_self)
    exact ih hfirst fun later hlater => huses later (List.mem_cons_of_mem _ hlater)

end

-- ---------------------------------------------------------------------------
-- Two sequences
-- ---------------------------------------------------------------------------

/-- Whatever uses a static feature, in whatever order: the objects that are there after both
sequences are the same, and each lookup answers the same after both. -/
theorem uses_alike (hf : o.features.get? g = some f) (hstatic : f.manifest.Static)
    {first second : List Use} (hfirst : ∀ use ∈ first, use.Reads g)
    (hsecond : ∀ use ∈ second, use.Reads g) :
    (∀ key here there, (o.afterUses g first).dataObject? g key = some here →
      (o.afterUses g second).dataObject? g key = some there → here = there) ∧
    ∀ key payload other, ((o.afterUses g first).lookUp g payload key).1 =
      ((o.afterUses g second).lookUp g other key).1 := by
  have hone := (SettledIn.refl hf).afterUses hstatic hfirst
  have htwo := (SettledIn.refl hf).afterUses hstatic hsecond
  refine ⟨fun key here there hhere hthere => ?_, fun key payload other => ?_⟩
  · exact Option.some.inj ((hone.denoted hhere).symm.trans (htwo.denoted hthere))
  · exact (hone.lookUp hstatic payload key).1.trans (htwo.lookUp hstatic other key).1.symm

/-- Data objects that refer to others, to one that cannot be built and to one that is not
there. -/
def layered : Json.Object :=
  let node (key typeName : String) (more : Json.Object) : Json :=
    .object ([("keyName", .text key), ("typeName", .text typeName)] ++ more)
  let data (key typeName : String) (value : Json) : Json :=
    node key typeName [("props", .object [("value", value)])]
  [("componentConfigs", .array
      [node "start" "RelayComponent" [("props", .object [("output", .text "\x7btop\x7d")])]]),
    ("dataObjectConfigs", .array
      [data "base" "ValueDataObject" (.object [("text", .text "ground")]),
        data "lost" "AbstractNode" (.text "\x7bbase.text\x7d"),
        data "middle" "ValueDataObject" (.text "\x7bbase.text\x7d under \x7blost.text\x7d"),
        data "top" "ValueDataObject" (.array [.text "\x7bmiddle\x7d",
          .text "\x7bbase.text\x7d or \x7bnowhere.text\x7d"])]),
    ("providerConfigs", .array
      [node "components" "ComponentProvider" [], node "data" "ServerDataProvider" []])]

def layers : Feature :=
  .ofManifest (.ofObject "layers" layered)

theorem static_layers : layers.manifest.Static :=
  .of_rank (["nowhere", "base", "lost", "middle", "top"].idxOf ·) (by decide +kernel)

/-- Once from the top through a component, once from below and in vain first. -/
theorem uses_alike_layers :
    let o := { ofRegistry (.ofCatalogue .trial) with
      features := (∅ : Table Feature).insert "layers" layers }
    let first := [Use.operation (.performStep "layers" .null "start" false)]
    let second := [Use.lookUp .null "lost", .lookUp (.text "seen") "base",
      .operation (.performTrigger "start")]
    ((o.afterUses "layers" first).dataObject? "layers" "top").isSome = true ∧
      ((o.afterUses "layers" second).dataObject? "layers" "top").isSome = true ∧
      (∀ use ∈ first, use.Reads "layers") ∧ (∀ use ∈ second, use.Reads "layers") ∧
      (∀ key here there, (o.afterUses "layers" first).dataObject? "layers" key = some here →
        (o.afterUses "layers" second).dataObject? "layers" key = some there → here = there) ∧
      ∀ key payload other, ((o.afterUses "layers" first).lookUp "layers" payload key).1 =
        ((o.afterUses "layers" second).lookUp "layers" other key).1 := by
  intro o first second
  have hfirst : ∀ use ∈ first, use.Reads "layers" := by
    simp [first, Use.Reads, Operation.registers, Operation.changes]
  have hsecond : ∀ use ∈ second, use.Reads "layers" := by
    simp [second, Use.Reads, Operation.registers, Operation.changes]
  exact ⟨by decide +kernel, by decide +kernel, hfirst, hsecond,
    uses_alike (f := layers) rfl static_layers hfirst hsecond⟩

end FeatureFlow.Orchestrator
