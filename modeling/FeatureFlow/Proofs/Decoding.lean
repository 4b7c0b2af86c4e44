import FeatureFlow.Decode
import FeatureFlow.Proofs.Fallible

/-!
# Checks and reading

The fields of a record are checked before they are read. Where a field can be read its
check passes as well, so for fields in order the checks come down to lookups
(`checkFields_of_met`). Lists and tables of values that read back read back as a whole.
-/

namespace FeatureFlow

namespace Decode

open Fallible (bind_ok forM_ok mapM_map_ok)

structure Rule.Met (fields : Json.Object) (r : Rule) : Prop where
  check : ∀ value, Fields.get? r.name fields = some value → r.check value = .ok ()
  present : r.presence = .required → (Fields.get? r.name fields).isSome = true

theorem met_of_required (h : required fields name item = .ok a) (presence : Presence) :
    (rule name presence item).Met fields := by
  unfold required at h
  split at h
  · rename_i value hvalue
    refine ⟨fun other hother => ?_, fun _ => ?_⟩
    · obtain rfl := Option.some.inj (hvalue.symm.trans hother)
      simp [rule, h, pure, Except.pure, SeqRight.seqRight, Except.bind]
    · exact Option.isSome_iff_exists.mpr ⟨value, hvalue⟩
  · cases h

theorem met_of_defaulted (h : defaulted fields name missing item = .ok a) :
    (rule name .defaulted item).Met fields := by
  unfold defaulted at h
  refine ⟨fun value hvalue => ?_, nofun⟩
  rw [show Fields.get? name fields = some value from hvalue] at h
  simp [rule, h, pure, Except.pure, SeqRight.seqRight, Except.bind]

theorem checkFields_of_met (hrising : fields.Rising) (h : ∀ r ∈ rules, Rule.Met fields r) :
    checkFields rules fields = .ok () := by
  have hfields : fields.forM (checkField rules) = .ok () := by
    refine forM_ok ?_
    rintro ⟨name, value⟩ hmem
    unfold checkField
    split
    · rename_i r hr
      obtain rfl : r.name = name := by simpa using List.find?_some hr
      exact (h r (List.mem_of_find?_eq_some hr)).check value (Fields.get?_of_mem hrising hmem)
    · rfl
  have hpresent : rules.forM (checkPresent fields) = .ok () := by
    refine forM_ok fun r hr => ?_
    unfold checkPresent
    split
    · rename_i hmissing
      have hsome := (h r hr).present hmissing.1
      rw [Option.isNone_iff_eq_none.mp hmissing.2] at hsome
      cases hsome
    · rfl
  rw [checkFields, hfields]
  exact hpresent

theorem list_texts (values : List String) : list text (.texts values) = .ok values :=
  mapM_map_ok fun _ _ => rfl

theorem table_ofTable (expected : String) {item : Json → Decoded α} {write : α → Json}
    (h : ∀ a, item (write a) = .ok a) (t : Table α) :
    table expected item (.ofTable write t) = .ok t := by
  rw [Json.ofTable, table]
  refine bind_ok.mpr ⟨t.entries, mapM_map_ok ?_, ?_⟩
  · rintro ⟨key, value⟩ -
    exact congrArg (fun result => (key, ·) <$> result) (h value)
  · exact congrArg Except.ok (Table.ofList_of_perm (.refl t.entries))

end Decode

end FeatureFlow
