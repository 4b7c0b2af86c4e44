/-!
# Programs that may fail

A program of several parts succeeds where each of its parts does.
-/

namespace FeatureFlow.Fallible

theorem bind_ok {x : Except ε α} {f : α → Except ε β} :
    x >>= f = .ok b ↔ ∃ a, x = .ok a ∧ f a = .ok b := by
  cases x <;> simp [bind, Except.bind]

theorem forM_ok {f : α → Except ε PUnit} {items : List α} (h : ∀ a ∈ items, f a = .ok ⟨⟩) :
    items.forM f = .ok ⟨⟩ := by
  induction items with
  | nil => rfl
  | cons item rest ih =>
    change (f item >>= fun _ => rest.forM f) = _
    rw [h item (by simp)]
    exact ih fun a ha => h a (List.mem_cons_of_mem _ ha)

theorem mapM_map_ok {read : α → Except ε β} {write : β → α} {items : List β}
    (h : ∀ b ∈ items, read (write b) = .ok b) : (items.map write).mapM read = .ok items := by
  induction items with
  | nil => rfl
  | cons item rest ih =>
    rw [List.map_cons, List.mapM_cons, h item (by simp),
      ih fun b hb => h b (List.mem_cons_of_mem _ hb)]
    rfl

end FeatureFlow.Fallible
