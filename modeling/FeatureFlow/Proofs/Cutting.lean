import FeatureFlow.Text
import Mathlib.Data.List.Basic

/-!
# Cutting joined texts

Cutting a text at its last separator, or at every one, undoes putting texts together with
the separator between, as far as the parts hold none themselves.
-/

namespace FeatureFlow

namespace Text

variable {separator : Char} {cs rest start finish piece before after : List Char}

theorem after?_eq_some (h : after? start cs = some rest) : cs = start ++ rest := by
  unfold after? at h
  split at h
  · rename_i hstarts
    obtain ⟨other, rfl⟩ := List.isPrefixOf_iff_prefix.mp hstarts
    simpa using h
  · cases h

theorem before?_eq_some (h : before? finish cs = some rest) : cs = rest ++ finish := by
  unfold before? at h
  split at h
  · rename_i hends
    obtain ⟨other, rfl⟩ := List.isSuffixOf_iff_suffix.mp hends
    simpa using h
  · cases h

theorem cut?_append (separator : Char) (first second : List Char) :
    cut? separator (first ++ second) =
      match cut? separator first with
      | some (before, after) => some (before, after ++ second)
      | none => (cut? separator second).map fun (before, after) => (first ++ before, after) := by
  induction first with
  | nil => simp [cut?]
  | cons c rest ih =>
    by_cases hc : c = separator
    · simp [cut?, hc]
    · rw [List.cons_append, cut?, if_neg hc, ih, cut?, if_neg hc]
      cases cut? separator rest with
      | some parts => rfl
      | none => simp [Function.comp_def]

theorem cut?_of_not_mem (h : separator ∉ cs) : cut? separator cs = none := by
  induction cs with
  | nil => rfl
  | cons c rest ih =>
    simp only [List.mem_cons, not_or] at h
    rw [cut?, if_neg (Ne.symm h.1), ih h.2]
    rfl

theorem cut?_eq_some :
    cut? separator cs = some (before, after) ↔
      cs = before ++ separator :: after ∧ separator ∉ before := by
  constructor
  · intro h
    induction cs generalizing before with
    | nil => cases h
    | cons c rest ih =>
      rw [cut?] at h
      split at h
      · rename_i hc
        obtain ⟨rfl, rfl⟩ := Prod.mk.inj (Option.some.inj h)
        simp [hc]
      · rename_i hc
        obtain ⟨⟨first, last⟩, hcut, hparts⟩ := Option.map_eq_some_iff.mp h
        obtain ⟨rfl, rfl⟩ := Prod.mk.inj hparts
        obtain ⟨rfl, hfirst⟩ := ih hcut
        simp [Ne.symm hc, hfirst]
  · rintro ⟨rfl, hbefore⟩
    rw [cut?_append, cut?_of_not_mem hbefore]
    simp [cut?]

theorem afterLast?_of_not_mem (h : separator ∉ cs) : afterLast? separator cs = none := by
  rw [afterLast?, cut?_of_not_mem (mt List.mem_reverse.mp h)]
  rfl

theorem afterLast?_append (separator : Char) (first last : List Char) :
    afterLast? separator (first ++ separator :: last) =
      some ((afterLast? separator last).getD last) := by
  have hreverse : (first ++ separator :: last).reverse =
      last.reverse ++ separator :: first.reverse := by simp
  rw [afterLast?, afterLast?, hreverse, cut?_append]
  cases cut? separator last.reverse with
  | some parts => rfl
  | none => simp [cut?]

theorem splitAt_ne_nil (separator : Char) (cs : List Char) : splitAt separator cs ≠ [] := by
  cases cs with
  | nil => simp [splitAt]
  | cons c rest =>
    rw [splitAt]
    split
    · simp
    · split <;> simp

theorem splitAt_append (separator : Char) (first last : List Char) :
    splitAt separator (first ++ separator :: last) =
      splitAt separator first ++ splitAt separator last := by
  induction first with
  | nil => simp [splitAt]
  | cons c rest ih =>
    rw [List.cons_append, splitAt, splitAt, ih]
    split
    · rfl
    · cases hrest : splitAt separator rest with
      | nil => exact absurd hrest (splitAt_ne_nil separator rest)
      | cons piece pieces => rfl

theorem splitAt_of_not_mem (h : separator ∉ cs) : splitAt separator cs = [cs] := by
  induction cs with
  | nil => rfl
  | cons c rest ih =>
    simp only [List.mem_cons, not_or] at h
    rw [splitAt, if_neg (Ne.symm h.1), ih h.2]

theorem eq_of_splitAt {pieces : List (List Char)} (h : splitAt separator cs = piece :: pieces) :
    cs = piece ++ pieces.flatMap (separator :: ·) := by
  induction cs generalizing piece pieces with
  | nil =>
    obtain ⟨rfl, rfl⟩ := List.cons.inj h
    rfl
  | cons c rest ih =>
    cases hrest : splitAt separator rest with
    | nil => exact absurd hrest (splitAt_ne_nil separator rest)
    | cons first others =>
      rw [splitAt, hrest] at h
      split at h
      · rename_i hc
        obtain ⟨rfl, rfl⟩ := List.cons.inj h
        simp [hc, ih hrest]
      · obtain ⟨rfl, rfl⟩ := List.cons.inj h
        rw [ih hrest, List.cons_append]

theorem not_mem_of_mem_splitAt (h : piece ∈ splitAt separator cs) : separator ∉ piece := by
  induction cs generalizing piece with
  | nil =>
    obtain rfl := List.mem_singleton.mp h
    exact List.not_mem_nil
  | cons c rest ih =>
    rw [splitAt] at h
    split at h
    · rcases List.mem_cons.mp h with rfl | hrest
      · exact List.not_mem_nil
      · exact ih hrest
    · rename_i hc
      cases hrest : splitAt separator rest with
      | nil => exact absurd hrest (splitAt_ne_nil separator rest)
      | cons first others =>
        rw [hrest] at h ih
        rcases List.mem_cons.mp h with rfl | hothers
        · have hfirst : separator ∉ first := ih List.mem_cons_self
          simp [Ne.symm hc, hfirst]
        · exact ih (List.mem_cons_of_mem first hothers)

end Text

end FeatureFlow
