import FeatureFlow.Proofs.Cascade.Retrigger
import FeatureFlow.Proofs.Features.Programs

/-!
# One instance of each data object

A lookup makes a data object where its key is free, and from then on every lookup
finds the one that is there, until its feature is registered again. Building only
fills free keys (`Filling`), so an operation does two things to the objects of a
feature (`Advances`): free keys are filled, and the update of a `data_updated` event
is applied to its object. Over a run, an object is what a lookup made it (`made_after`)
with all updates for it since then applied in order (`kept_run`).
-/

namespace FeatureFlow

open Building (Keeps keeps_compositional run_bind)
open Relation (ReflTransGen)

-- ---------------------------------------------------------------------------
-- Filling free keys
-- ---------------------------------------------------------------------------

/-- One thing that building does: it looks a data object up under some payload, from
definitions that are still available, or it asks for a type. -/
def Scope.Turn (s : Scope) (a b : Inventory) : Prop :=
  (∃ payload available key, (∀ k d, available.get? k = some d → s.manifest.dataObject? k = some d) ∧
    b = ((({ s with payload } : Scope).dataObjectFrom available key).run a).2) ∨
  ∃ seed, b = { a with registry := (a.registry.create seed).2 }

abbrev Scope.Turns (s : Scope) : Inventory → Inventory → Prop :=
  ReflTransGen s.Turn

theorem Scope.Turn.grows {s : Scope} (h : s.Turn a b) : Inventory.Grows s.manifest a b := by
  rcases h with ⟨payload, available, key, hsub, rfl⟩ | ⟨seed, rfl⟩
  · exact ({ s with payload } : Scope).grows_dataObjectFrom hsub key a
  · exact .single (.ask seed)

theorem Scope.Turns.grows {s : Scope} (h : s.Turns a b) : Inventory.Grows s.manifest a b := by
  induction h with
  | refl => exact .refl
  | tail _ hlast ih => exact ih.trans (Scope.Turn.grows hlast)

/-- After some building, a lookup that finds the key free makes the object. -/
def Scope.Makes (s : Scope) (a : Inventory) (key : String) (object : DataObject) : Prop :=
  ∃ payload available b, s.Turns a b ∧ b.objects.get? key = none ∧
    (∀ k d, available.get? k = some d → s.manifest.dataObject? k = some d) ∧
    ((({ s with payload } : Scope).dataObjectFrom available key).run b).1 = some (s.live key object)

theorem Scope.Makes.of_turns {s : Scope} (h : s.Makes b key object) (hturns : s.Turns a b) :
    s.Makes a key object := by
  obtain ⟨payload, available, c, hlater, hfree, hsub, hmade⟩ := h
  exact ⟨payload, available, c, hturns.trans hlater, hfree, hsub, hmade⟩

/-- The program only builds, and each object that appears is made by a lookup. -/
structure Filling (s : Scope) (α : Type) (program : Building α) : Prop where
  turns : Keeps s.Turns α program
  made : ∀ a key object, a.objects.get? key = none →
    (program.run a).2.objects.get? key = some object → s.Makes a key object

namespace Filling

variable {s : Scope} {source : Source Building}

theorem compositional (s : Scope) : Compositional (Filling s) where
  pure value := ⟨fun _ => .refl, fun a key object hfree hthere => by
    cases hfree.symm.trans hthere⟩
  bind {α β x f} hx hf := by
    have hturns := (keeps_compositional (R := s.Turns) (fun _ => .refl)
      fun _ _ _ => .trans).bind hx.turns fun value => (hf value).turns
    refine ⟨hturns, fun a key object hfree hthere => ?_⟩
    rw [run_bind] at hthere
    cases hmiddle : (x.run a).2.objects.get? key with
    | some found =>
      have hkept := (Scope.Turns.grows ((hf (x.run a).1).turns (x.run a).2)).get? hmiddle
      obtain rfl : found = object := Option.some.inj (hkept.symm.trans hthere)
      exact hx.made a key found hfree hmiddle
    | none => exact ((hf _).made _ key object hmiddle hthere).of_turns (hx.turns a)

theorem build (hsource : ∀ key, Filling s _ (source key)) (role : Role) (d : NodeDefinition)
    (provider : Option ProviderDefinition) : Filling s _ (s.build source role d provider) := by
  have hturns : Keeps s.Turns _ (s.build source role d provider) :=
    Scope.keeps_build (fun _ => .refl) (fun _ _ _ => .trans)
      (fun _ seed => .single (.inr ⟨seed, rfl⟩)) fun key => (hsource key).turns
  refine ⟨hturns, fun a key object hfree hthere => ?_⟩
  rw [Scope.run_build] at hthere
  split at hthere
  · simp [hfree] at hthere
  · split at hthere
    · split at hthere
      · simp [hfree] at hthere
      · -- only resolving adds objects, the type that is asked for afterwards does not
        exact ((compositional s).resolve hsource d.properties).made a key object hfree hthere
    · simp [hfree] at hthere

theorem dataObjectFrom (s : Scope) (available : Table DataObjectDefinition) (key : String)
    (hsub : ∀ k d, available.get? k = some d → s.manifest.dataObject? k = some d) :
    Filling s _ (s.dataObjectFrom available key) := by
  induction available, key using Scope.dataObjectFrom.induct with
  | case1 available key ih =>
    refine ⟨fun a => .single (.inl ⟨s.payload, available, key, hsub, rfl⟩),
      fun a other object hfree hthere => ?_⟩
    by_cases hkey : key = other
    · subst hkey
      refine ⟨s.payload, available, a, .refl, hfree, hsub, ?_⟩
      rw [s.answer_dataObjectFrom hsub, hthere]
      rfl
    · rw [Scope.run_dataObjectFrom] at hthere
      split at hthere
      · simp [hfree] at hthere
      · split at hthere
        · simp [hfree] at hthere
        · rename_i d hd
          have hbuild : Filling s _ (s.build (s.dataObjectFrom (available.erase key)) .dataObject
              d.node (s.manifest.dataObjectProvider? d)) :=
            build (fun k => ih d hd k fun k' e hk => hsub k' e (Table.get?_of_get?_erase hk)) ..
          dsimp only at hthere
          split at hthere
          · exact hbuild.made a other object hfree hthere
          · rw [Table.get?_insert, if_neg hkey] at hthere
            exact hbuild.made a other object hfree hthere

theorem dataObject (s : Scope) (key : String) : Filling s _ (s.dataObject key) :=
  dataObjectFrom s _ key fun _ _ h => h

/-- What is made is made under any payload, so the scopes of one feature agree on it. -/
theorem of_payload {payload : Property} {program : Building α}
    (h : Filling { s with payload } α program) : Filling s α program :=
  ⟨h.turns, h.made⟩

theorem component (s : Scope) (d : ComponentDefinition) : Filling s _ (s.component d) :=
  (compositional s).map _ (build (dataObject s) .component d.node _)

end Filling

-- ---------------------------------------------------------------------------
-- What an operation does to the objects
-- ---------------------------------------------------------------------------

def DataObject.updateAll (d : DataObject) (changes : List Json.Object) : DataObject :=
  changes.foldl (fun current change => current.update (.object change)) d

theorem DataObject.updateAll_append (d : DataObject) (first more : List Json.Object) :
    d.updateAll (first ++ more) = (d.updateAll first).updateAll more :=
  List.foldl_append ..

/-- From one inventory to a later one: free keys are filled, and then the changes are
applied. -/
structure Inventory.Advances (s : Scope) (changes : String → List Json.Object)
    (a b : Inventory) : Prop where
  kept : ∀ key object, a.objects.get? key = some object →
    b.objects.get? key = some (object.updateAll (changes key))
  made : ∀ key object, a.objects.get? key = none → b.objects.get? key = some object →
    ∃ first, s.Makes a key first ∧ object = first.updateAll (changes key)

open Inventory (Advances)

variable {s : Scope}

theorem Filling.advances {program : Building α} (h : Filling s α program) (a : Inventory) :
    Advances s (fun _ => []) a (program.run a).2 where
  kept _ _ hthere := (Scope.Turns.grows (h.turns a)).get? hthere
  made key object hfree hthere := ⟨object, h.made a key object hfree hthere, rfl⟩

theorem Scope.run_updating (s : Scope) (key : String) (data : Json.Object) (a : Inventory) :
    (s.updating key data).run a =
      match (s.dataObject key).run a with
      | (none, looked) => (false, looked)
      | (some live, looked) => (true, { looked with
          objects := looked.objects.insert key (live.object.update (.object data)) }) := by
  rw [updating, run_bind]
  cases (s.dataObject key).run a with
  | mk found looked => cases found <;> rfl

theorem Scope.get?_updating (s : Scope) (key : String) (data : Json.Object) (a : Inventory)
    (other : String) :
    ((s.updating key data).run a).2.objects.get? other =
      (((s.dataObject key).run a).2.objects.get? other).map
        (·.updateAll (if key = other then [data] else [])) := by
  have hfound := s.answer_dataObject key a
  rw [run_updating]
  generalize (s.dataObject key).run a = result at hfound ⊢
  obtain ⟨found, looked⟩ := result
  dsimp only at hfound
  by_cases hkey : key = other
  · subst hkey
    cases hthere : looked.objects.get? key with
    | none =>
      rw [hthere, Option.map_none] at hfound
      simp [hfound, hthere]
    | some object =>
      rw [hthere, Option.map_some] at hfound
      simp [hfound, DataObject.updateAll, live]
  · cases found <;> simp [hkey, Table.get?_insert, DataObject.updateAll]

theorem Scope.answer_updating (s : Scope) (key : String) (data : Json.Object) (a : Inventory) :
    ((s.updating key data).run a).1 =
      (((s.updating key data).run a).2.objects.get? key).isSome := by
  have hanswer : ((s.updating key data).run a).1 = ((s.dataObject key).run a).1.isSome := by
    rw [run_updating]
    split <;> simp [*]
  rw [hanswer, answer_dataObject, get?_updating, Option.isSome_map, Option.isSome_map]

theorem Scope.advances_updating (s : Scope) (key : String) (data : Json.Object) (a : Inventory) :
    Advances s (fun other => if key = other then [data] else []) a
      ((s.updating key data).run a).2 where
  kept other object hthere := by
    rw [get?_updating, (s.grows_dataObject key a).get? hthere]
    rfl
  made other object hfree hthere := by
    rw [get?_updating, Option.map_eq_some_iff] at hthere
    obtain ⟨first, hfirst, rfl⟩ := hthere
    exact ⟨first, (Filling.dataObject s key).made a other first hfree hfirst, rfl⟩

namespace Orchestrator

variable {o p : Orchestrator} {g key : String} {f : Feature} {object : DataObject}
  {operation : Operation} {changes : String → List Json.Object} {catalogue : Catalogue}

-- ---------------------------------------------------------------------------
-- One operation
-- ---------------------------------------------------------------------------

/-- The feature is as active as before, and its objects have advanced. -/
structure AdvancesIn (g : String) (changes : String → List Json.Object) (o p : Orchestrator) :
    Prop where
  inactive : o.features.get? g = none → p.features.get? g = none
  active : ∀ f, o.features.get? g = some f → ∃ b : Inventory,
    p.features.get? g = some { f with objects := b.objects } ∧
      Advances (f.scope .null) changes (o.inventory f) b

theorem advances_within (hf : o.features.get? g = some f) {action : Building α}
    (h : Advances (f.scope .null) changes (o.inventory f) (action.run (o.inventory f)).2) :
    AdvancesIn g changes o (o.within g f action).2 where
  inactive hnone := by simp [hf] at hnone
  active f' hf' := by
    obtain rfl : f = f' := Option.some.inj (hf.symm.trans hf')
    exact ⟨_, (get?_within ..).trans (if_pos rfl), h⟩

theorem advances_updateDataObject (o : Orchestrator) (e : DataUpdatedEvent) :
    AdvancesIn e.feature (fun key => if e.key = key then [e.data] else []) o
      (o.updateDataObject e).state := by
  cases hf : o.features.get? e.feature with
  | none =>
    refine ⟨fun _ => ?_, fun f hsome => by simp [hf] at hsome⟩
    simp only [updateDataObject, hf, Outcome.quiet]
  | some f =>
    rw [updateDataObject_of_get? hf]
    exact advances_within hf (Scope.advances_updating ..)

theorem advances_quiet (hregisters : operation.registers g = false)
    (hquiet : ∀ key, operation.changes g key = []) (o : Orchestrator) :
    AdvancesIn g (fun _ => []) o (o.after operation) where
  inactive := inactive_after hregisters
  active f hf := by
    have hcomponent (payload : Property) (d : ComponentDefinition) :
        Filling (f.scope .null) _ ((f.scope payload).component d) :=
      (Filling.component (f.scope payload) d).of_payload
    obtain ⟨program, hprogram, hfound, -⟩ :=
      runsOn_after (Filling.compositional _) hf hcomponent hregisters hquiet
    exact ⟨_, hfound, hprogram.advances _⟩

theorem advances_after (h : operation.registers g = false) (o : Orchestrator) :
    AdvancesIn g (operation.changes g ·) o (o.after operation) := by
  by_cases hquiet : ∀ key, operation.changes g key = []
  · simp only [hquiet]
    exact advances_quiet h hquiet o
  · obtain ⟨m, e, rfl, hparse, rfl⟩ := exists_changes hquiet
    simp only [Operation.changes, Orchestrator.after, onDataUpdated, hparse, true_and]
    exact advances_updateDataObject o e

-- ---------------------------------------------------------------------------
-- Runs
-- ---------------------------------------------------------------------------

theorem kept_run (hf : o.features.get? g = some f) (hthere : f.objects.get? key = some object)
    {operations : List Operation} (h : ∀ x ∈ operations, x.registers g = false) :
    ∃ objects, (o.run operations).features.get? g = some { f with objects } ∧
      objects.get? key = some (object.updateAll (operations.flatMap (·.changes g key))) := by
  induction operations generalizing o f object with
  | nil => exact ⟨f.objects, hf, hthere⟩
  | cons operation rest ih =>
    obtain ⟨b, hfound, hadvances⟩ := (advances_after (h operation (by simp)) o).active f hf
    have hnow := hadvances.kept key object hthere
    obtain ⟨objects, hlater, hvalue⟩ := ih hfound hnow fun x hx => h x (List.mem_cons_of_mem _ hx)
    refine ⟨objects, hlater, ?_⟩
    rw [hvalue, List.flatMap_cons, DataObject.updateAll_append]

theorem dataObject?_of_get? (hf : o.features.get? g = some f)
    (hthere : f.objects.get? key = some object) :
    o.dataObject? g key = some { reference := f.reference key, object } := by
  simp [dataObject?, hf, hthere]

/-- A reference that was handed out denotes the object as it is now. -/
theorem resolve?_of_get? (hf : o.features.get? g = some f) (hname : f.manifest.feature = g)
    (hthere : f.objects.get? key = some object) : o.resolve? (f.reference key) = some object := by
  simp [resolve?, Feature.reference, Feature.objectsAt, hname, hf, hthere]

theorem answer_onDataUpdated {m : ServerMessage} {e : DataUpdatedEvent}
    (h : m.parse DataUpdatedEvent.decode = .ok e) (o : Orchestrator) :
    (o.onDataUpdated m).answer =
      ((o.onDataUpdated m).state.dataObject? e.feature e.key).isSome := by
  simp only [onDataUpdated, h]
  cases hf : o.features.get? e.feature with
  | none => simp [updateDataObject, hf, Outcome.quiet, dataObject?]
  | some f =>
    rw [updateDataObject_of_get? hf]
    simp only [Outcome.quiet, dataObject?, get?_within, if_true, Option.bind_some,
      Option.isSome_map]
    exact Scope.answer_updating ..

/-- Where an operation first finds a data object, the object was made by a lookup, and the
operation has made its own change. -/
theorem made_after (hregisters : operation.registers g = false)
    (hfree : o.dataObject? g key = none) (hthere : ((o.after operation).dataObject? g key).isSome) :
    ∃ f made objects, o.features.get? g = some f ∧ (f.scope .null).Makes (o.inventory f) key made ∧
      (o.after operation).features.get? g = some { f with objects } ∧
      objects.get? key = some (made.updateAll (operation.changes g key)) := by
  have hadvances := advances_after hregisters o
  cases hf : o.features.get? g with
  | none => simp [dataObject?, hadvances.inactive hf] at hthere
  | some f =>
    obtain ⟨b, hfound, hb⟩ := hadvances.active f hf
    have hfreeIn : f.objects.get? key = none := by simpa [dataObject?, hf] using hfree
    obtain ⟨object, hobject⟩ : ∃ object, b.objects.get? key = some object := by
      simpa [dataObject?, hfound, Option.isSome_iff_exists] using hthere
    obtain ⟨made, hmakes, rfl⟩ := hb.made key object hfreeIn hobject
    exact ⟨f, made, b.objects, rfl, hmakes, hfound, hobject⟩

theorem accepted_of_changes (h : operation.changes g key ≠ [])
    (hthere : ((o.after operation).dataObject? g key).isSome) :
    ∃ m, operation = .dataUpdated m ∧ (o.onDataUpdated m).answer = true := by
  cases operation with
  | dataUpdated m =>
    refine ⟨m, rfl, ?_⟩
    cases hparse : m.parse DataUpdatedEvent.decode with
    | error e => simp [Operation.changes, hparse] at h
    | ok e =>
      have haddressed : e.feature = g ∧ e.key = key := by
        simpa [Operation.changes, hparse] using h
      obtain ⟨rfl, rfl⟩ := haddressed
      rw [answer_onDataUpdated hparse]
      exact hthere
  | _ => exact absurd rfl h

/-- Whatever has been built since an operation began, its tokens find the object. -/
theorem run_dataObjectFrom_later (hthere : f.objects.get? key = some object) (payload : Property)
    (available : Table DataObjectDefinition) {a : Inventory}
    (h : Inventory.Grows f.manifest (o.inventory f) a) :
    ((f.scope payload).dataObjectFrom available key).run a =
      (some { reference := f.reference key, object }, a) :=
  (f.scope payload).run_dataObjectFrom_of_get? available (h.get? hthere)

theorem onDataUpdated_of_get? (hf : o.features.get? g = some f)
    (hthere : f.objects.get? key = some object) {m : ServerMessage} {e : DataUpdatedEvent}
    (hparse : m.parse DataUpdatedEvent.decode = .ok e) (hg : e.feature = g) (hkey : e.key = key) :
    (o.onDataUpdated m).answer = true ∧ (o.onDataUpdated m).state.dataObject? g key =
      some { reference := f.reference key, object := object.update (.object e.data) } := by
  subst hg hkey
  have hchanges : (Operation.dataUpdated m).changes e.feature e.key = [e.data] := by
    simp [Operation.changes, hparse]
  have hadvances : AdvancesIn e.feature ((Operation.dataUpdated m).changes e.feature ·) o
      (o.after (.dataUpdated m)) := advances_after rfl o
  obtain ⟨b, hfound, hb⟩ := hadvances.active f hf
  have hvalue := hb.kept e.key object hthere
  rw [hchanges] at hvalue
  have hnow := dataObject?_of_get? hfound hvalue
  refine ⟨?_, hnow⟩
  rw [answer_onDataUpdated hparse]
  exact Option.isSome_of_eq_some hnow

theorem dataObject?_register_self (o : Orchestrator) (g : String) (root : Json.Object)
    (key : String) : (o.after (.register g root)).dataObject? g key = none := by
  have hname : (Manifest.ofObject g root).feature = g := rfl
  simp only [Orchestrator.after, dataObject?, register, hname, Table.get?_insert_self]
  cases o.features.get? g <;> rfl

theorem dataObject?_register_of_ne {other : String} (h : other ≠ g) (o : Orchestrator)
    (root : Json.Object) (key : String) :
    (o.after (.register g root)).dataObject? other key = o.dataObject? other key := by
  have hfound : (o.after (.register g root)).features.get? other = o.features.get? other :=
    ((local_register g root).others o h.symm).found
  simp only [dataObject?, hfound]

/-- Where an operation first finds a data object of a feature, it makes the object, and
until the feature is registered again every lookup gives this one: it takes the data of
all accepted events for it, in order, and no other change. Registering a feature drops
its objects and those of no other feature. -/
theorem dataObject?_run (h : Reachable catalogue o) (g : String) :
    (∀ key operation, operation.registers g = false → o.dataObject? g key = none →
      ((o.after operation).dataObject? g key).isSome →
      ∃ f made, o.features.get? g = some f ∧
        (f.scope .null).Makes (o.inventory f) key made ∧
        (operation.changes g key ≠ [] →
          ∃ m, operation = .dataUpdated m ∧ (o.onDataUpdated m).answer = true) ∧
        ∀ later : List Operation, (∀ x ∈ later, x.registers g = false) →
          let now := (o.after operation).run later
          let current : LiveObject :=
            { reference := f.reference key
              object := made.updateAll ((operation :: later).flatMap (·.changes g key)) }
          now.dataObject? g key = some current ∧
            now.resolve? (f.reference key) = some current.object ∧
            (∀ f', now.features.get? g = some f' →
              ∀ payload available a, Inventory.Grows f'.manifest (now.inventory f') a →
                ((f'.scope payload).dataObjectFrom available key).run a = (some current, a)) ∧
            ∀ m e, m.parse DataUpdatedEvent.decode = .ok e → e.feature = g → e.key = key →
              (now.onDataUpdated m).answer = true ∧
                (now.onDataUpdated m).state.dataObject? g key =
                  some { current with object := current.object.update (.object e.data) }) ∧
      ∀ root, (∀ key, (o.after (.register g root)).dataObject? g key = none) ∧
        ∀ other key, other ≠ g →
          (o.after (.register g root)).dataObject? other key = o.dataObject? other key := by
  refine ⟨fun key operation hregisters hfree hthere => ?_, fun root =>
    ⟨dataObject?_register_self o g root, fun other key hne =>
      dataObject?_register_of_ne hne o root key⟩⟩
  obtain ⟨f, made, objects, hf, hmakes, hafter, hmade⟩ := made_after hregisters hfree hthere
  refine ⟨f, made, hf, hmakes, fun hchanges => accepted_of_changes hchanges hthere, ?_⟩
  intro later hlater now current
  obtain ⟨root, hroot⟩ := h.sound.manifest g f hf
  obtain ⟨latest, hnow, hthere⟩ := kept_run hafter hmade hlater
  rw [← DataObject.updateAll_append] at hthere
  have hname : f.manifest.feature = g := by
    rw [hroot]
    rfl
  have hfound := dataObject?_of_get? hnow hthere
  have hdenotes := resolve?_of_get? hnow hname hthere
  refine ⟨hfound, hdenotes, fun f' hf' payload available a hgrows => ?_,
    fun m e hparse hg hkey => onDataUpdated_of_get? hnow hthere hparse hg hkey⟩
  obtain rfl : { f with objects := latest } = f' := Option.some.inj (hnow.symm.trans hf')
  exact run_dataObjectFrom_later hthere payload available hgrows

def retelling (key text : String) : Operation :=
  .dataUpdated
    { name := ServerMessage.dataUpdated
      properties := [("data", .object [("text", .text text)]), ("featurename", .text "knot"),
        ("keyname", .text key)] }

/-- The object is made while another one is being built, and is updated afterwards. -/
theorem dataObject?_run_entangling :
    let step := Operation.performStep "knot" .null "start" false
    let later := [retelling "right" "b", retelling "left" "c", .performTrigger "start",
      retelling "right" "d"]
    Reachable .trial entangling ∧ step.registers "knot" = false ∧
      entangling.dataObject? "knot" "right" = none ∧
      ((entangling.after step).dataObject? "knot" "right").isSome = true ∧
      (∀ x ∈ later, x.registers "knot" = false) ∧
      ∃ f made, entangling.features.get? "knot" = some f ∧
        (f.scope .null).Makes (entangling.inventory f) "right" made ∧
        ((entangling.after step).run later).dataObject? "knot" "right" =
          some { reference := f.reference "right"
                 object := made.updateAll [[("text", .text "b")], [("text", .text "d")]] } := by
  intro step later
  have hfree : entangling.dataObject? "knot" "right" = none := by decide +kernel
  have hthere : ((entangling.after step).dataObject? "knot" "right").isSome = true := by
    decide +kernel
  have hlater : ∀ x ∈ later, x.registers "knot" = false := by decide
  have hchanges : (step :: later).flatMap (·.changes "knot" "right") =
      [[("text", .text "b")], [("text", .text "d")]] := by rfl
  obtain ⟨f, made, hf, hmakes, -, hrun⟩ :=
    (dataObject?_run reachable_entangling "knot").1 "right" step rfl hfree hthere
  refine ⟨reachable_entangling, rfl, hfree, hthere, hlater, f, made, hf, hmakes, ?_⟩
  rw [← hchanges]
  exact (hrun later hlater).1

end Orchestrator

end FeatureFlow
