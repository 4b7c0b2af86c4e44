import FeatureFlow.Proofs.Features.Instances
import FeatureFlow.Proofs.Tokens.Displays
import Mathlib.Data.List.Induction

/-!
# Updates of a data object

The server updates a data object with objects of changed fields. From the first update on its
value is an object, and each of its fields is that of the last update that had the field, or of
the value it began with (`exists_fields`). The fields decide what the data object is
(`received_congr`), so that the order of updates only matters where they share a field, and
any of them that follow one another may be sent as one.
-/

namespace FeatureFlow

/-- Where the value is an object its keys rise, as those of all objects that are read do. -/
def Json.IsRising (value : Json) : Prop :=
  ∀ fields, value = .object fields → Fields.Rising fields

theorem Table.get?_reverse (table : Table α) (key : String) :
    Fields.get? key table.entries.reverse = table.get? key :=
  Fields.get?_of_perm table.entries.reverse_perm table.nodup_keys key

namespace DataObject

-- ---------------------------------------------------------------------------
-- Fields that were sent
-- ---------------------------------------------------------------------------

/-- The field in the last of the updates that have it. -/
def lastSent? (name : String) (updates : List (Table Json)) : Option Json :=
  (updates.filter (·.contains name)).getLast?.bind (·.get? name)

def received (d : DataObject) (updates : List (Table Json)) : DataObject :=
  d.updateAll (updates.map (·.entries))

variable {key name : String} {value : Json} {updates others : List (Table Json)}

theorem lastSent?_singleton (name : String) (u : Table Json) :
    lastSent? name [u] = u.get? name := by
  cases hfield : u.get? name with
  | none => simp [lastSent?, Table.contains, hfield]
  | some value => simp [lastSent?, Table.contains, hfield]

theorem lastSent?_append (name : String) (first more : List (Table Json)) :
    lastSent? name (first ++ more) = (lastSent? name more).or (lastSent? name first) := by
  unfold lastSent?
  rw [List.filter_append, List.getLast?_append]
  cases hlast : (more.filter (·.contains name)).getLast? with
  | none => rfl
  | some u =>
    have hcontains : u.contains name = true := (List.mem_filter.mp (List.mem_of_getLast? hlast)).2
    obtain ⟨value, hvalue⟩ := Option.isSome_iff_exists.mp hcontains
    simp [hvalue]

theorem lastSent?_cons (name : String) (u : Table Json) (more : List (Table Json)) :
    lastSent? name (u :: more) = (lastSent? name more).or (u.get? name) := by
  rw [← List.singleton_append, lastSent?_append, lastSent?_singleton]

-- ---------------------------------------------------------------------------
-- Values
-- ---------------------------------------------------------------------------

theorem exists_merged (hvalue : value.IsRising) (u : Table Json) :
    ∃ fields : Table Json, merged value (.object u.entries) = .object fields.entries ∧
      ∀ name, fields.get? name = (u.get? name).or (value.field? name) := by
  cases value with
  | object current =>
    refine ⟨⟨_, (hvalue current rfl).insertAll u.entries⟩, rfl, fun name => ?_⟩
    rw [Table.get?, Fields.get?_insertAll, u.get?_reverse]
    rfl
  | _ => exact ⟨u, rfl, fun name => Option.or_none.symm⟩

theorem received_append (d : DataObject) (first more : List (Table Json)) :
    d.received (first ++ more) = (d.received first).received more := by
  rw [received, List.map_append, updateAll_append]
  rfl

/-- By induction on the updates: the last one puts its fields over those that are there. -/
theorem exists_fields (key : String) (hvalue : value.IsRising) (hupdates : updates ≠ []) :
    ∃ fields : Table Json,
      (ofValue key value).received updates = ofValue key (.object fields.entries) ∧
        ∀ name, fields.get? name = (lastSent? name updates).or (value.field? name) := by
  induction updates using List.reverseRecOn with
  | nil => exact absurd rfl hupdates
  | append_singleton earlier u ih =>
    rw [received_append]
    by_cases hfirst : earlier = []
    · subst hfirst
      obtain ⟨fields, hfields, hget⟩ := exists_merged hvalue u
      refine ⟨fields, congrArg (ofValue key) hfields, fun name => ?_⟩
      rw [hget, List.nil_append, lastSent?_singleton]
    · obtain ⟨fields, hfields, hget⟩ := ih hfirst
      have hrising : (Json.object fields.entries).IsRising := by
        intro current hcurrent
        obtain rfl := Json.object.inj hcurrent
        exact fields.rising
      obtain ⟨later, hlater, hgetLater⟩ := exists_merged hrising u
      rw [hfields]
      refine ⟨later, congrArg (ofValue key) hlater, fun name => ?_⟩
      rw [hgetLater, lastSent?_append, lastSent?_singleton, Option.or_assoc, ← hget]
      rfl

theorem received_congr (hvalue : value.IsRising) (hupdates : updates ≠ []) (hothers : others ≠ [])
    (h : ∀ name, lastSent? name updates = lastSent? name others) :
    (ofValue key value).received updates = (ofValue key value).received others := by
  obtain ⟨fields, hfields, hget⟩ := exists_fields key hvalue hupdates
  obtain ⟨fields', hfields', hget'⟩ := exists_fields key hvalue hothers
  have hsame : fields = fields' := Table.ext_get? fun name => by rw [hget, hget', h]
  rw [hfields, hfields', hsame]

theorem exists_summary (updates : List (Table Json)) :
    ∃ summary : Table Json, ∀ name, summary.get? name = lastSent? name updates := by
  by_cases hupdates : updates = []
  · subst hupdates
    exact ⟨∅, fun _ => rfl⟩
  · have hnull : Json.null.IsRising := nofun
    obtain ⟨fields, -, hget⟩ := exists_fields "" hnull hupdates
    exact ⟨fields, fun name => (hget name).trans Option.or_none⟩

/-- Of the updates of a data object the last one that has a field decides it, and where no update
has it the value that the data object began with. So the last update may be sent again, two that
share no field may change places, and any of them that follow one another may be sent as one.
In an orchestrator these are the updates that the messages of a run bring for the data object. -/
theorem received_outcome (hvalue : value.IsRising) (hupdates : updates ≠ []) :
    let d := ofValue key value
    (∃ fields : Table Json, d.received updates = ofValue key (.object fields.entries) ∧
      ∀ name, fields.get? name = (lastSent? name updates).or (value.field? name) ∧
        (d.received updates).fieldText? name =
          (fields.get? name).map fun value => (Property.ofJson value).display) ∧
    d.received (updates ++ [updates.getLast hupdates]) = d.received updates ∧
    (∀ before u w later, updates = before ++ u :: w :: later →
      (∀ name, u.get? name = none ∨ w.get? name = none) →
      d.received (before ++ w :: u :: later) = d.received updates) ∧
    (∀ before block later, updates = before ++ block ++ later →
      ∃ summary : Table Json, (∀ name, summary.get? name = lastSent? name block) ∧
        d.received (before ++ summary :: later) = d.received updates) ∧
    ∀ (o : Orchestrator) (g k : String) (f : Feature) (operations : List Orchestrator.Operation),
      o.features.get? g = some f → f.objects.get? k = some d →
      (∀ x ∈ operations, x.registers g = false) →
      operations.flatMap (·.changes g k) = updates.map (·.entries) →
      (o.run operations).dataObject? g k =
        some { reference := f.reference k, object := d.received updates } := by
  intro d
  refine ⟨?fields, ?again, ?swapped, ?summed, ?messages⟩
  case fields =>
    obtain ⟨fields, hfields, hget⟩ := exists_fields key hvalue hupdates
    refine ⟨fields, hfields, fun name => ⟨hget name, ?_⟩⟩
    rw [hfields]
    exact shown?_eq_display fields.entries name
  case again =>
    refine received_congr hvalue (by simp) hupdates fun name => ?_
    have hsplit := List.dropLast_append_getLast hupdates
    generalize updates.getLast hupdates = last at hsplit ⊢
    rw [← hsplit, lastSent?_append, lastSent?_append, lastSent?_singleton, ← Option.or_assoc,
      Option.or_self]
  case swapped =>
    rintro before u w later rfl happart
    refine received_congr hvalue (by simp) hupdates fun name => ?_
    simp only [lastSent?_append, lastSent?_cons]
    rcases happart name with hnone | hnone <;> simp [hnone]
  case summed =>
    rintro before block later rfl
    obtain ⟨summary, hsummary⟩ := exists_summary block
    refine ⟨summary, hsummary, received_congr hvalue (by simp) hupdates fun name => ?_⟩
    simp only [lastSent?_append, lastSent?_cons, hsummary, Option.or_assoc]
  case messages =>
    intro o g k f operations hf hthere hregisters hchanges
    obtain ⟨objects, hfound, hobject⟩ := Orchestrator.kept_run hf hthere hregisters
    rw [hchanges] at hobject
    have hnow := Orchestrator.dataObject?_of_get? hfound hobject
    exact hnow

/-- A field that is sent as null, one that only the first update has, and one that none has. -/
theorem received_outcome_null :
    let value : Json := .object [("a", .int 1), ("z", .boolean true)]
    let d : DataObject := .ofValue "d" value
    let updates : List (Table Json) :=
      [.ofList [("b", .int 2), ("a", .int 5)], .ofList [("a", .null)], .ofList [("c", .text "3")]]
    value.IsRising ∧ updates ≠ [] ∧
      (d.received updates).fieldText? "a" = some "" ∧
      (d.received updates).fieldText? "b" = some "2" ∧
      (d.received updates).fieldText? "z" = some "true" ∧
      (d.received updates).fieldText? "x" = none ∧
      d.received (updates ++ [.ofList [("c", .text "3")]]) = d.received updates := by
  intro value d updates
  have hvalue : value.IsRising := by
    intro fields hfields
    obtain rfl := Json.object.inj hfields
    simp only [Fields.Rising]
    decide
  have hupdates : updates ≠ [] := List.cons_ne_nil _ _
  obtain ⟨⟨fields, -, hget⟩, hagain, -⟩ := received_outcome hvalue hupdates
  have htext (name : String) : (d.received updates).fieldText? name =
      ((lastSent? name updates).or (value.field? name)).map fun value =>
        (Property.ofJson value).display := by
    rw [(hget name).2, (hget name).1]
  exact ⟨hvalue, hupdates, (htext "a").trans (by decide +kernel),
    (htext "b").trans (by decide +kernel), (htext "z").trans (by decide +kernel),
    (htext "x").trans (by decide +kernel), hagain⟩

end DataObject

end FeatureFlow
