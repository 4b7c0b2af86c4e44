import FeatureFlow.Expression

/-!
# What resolving inherits from its source

Resolution asks its source in an order of its own and does nothing else. So a
property of programs that passes from the parts of a program to the whole holds
of `Expression.resolve` as soon as it holds of every question to the source
(`Compositional.resolve`). The laws of building are all of this kind.
-/

namespace FeatureFlow

/-- A property of programs that a program has when all its parts have it. -/
structure Compositional {m : Type → Type} [Monad m] (P : (α : Type) → m α → Prop) :
    Prop where
  pure : ∀ {α : Type} (a : α), P α (Pure.pure a)
  bind : ∀ {α β : Type} {x : m α} {f : α → m β}, P α x → (∀ a, P β (f a)) → P β (x >>= f)

namespace Compositional

variable {m : Type → Type} [Monad m] [LawfulMonad m] {P : (α : Type) → m α → Prop}
  {payload : Property} {source : Source m}

theorem map (hP : Compositional P) {x : m α} (f : α → β) (hx : P _ x) : P _ (f <$> x) := by
  rw [← bind_pure_comp]
  exact hP.bind hx fun a => hP.pure (f a)

theorem mapM (hP : Compositional P) {f : α → m β} {items : List α} (hf : ∀ a ∈ items, P _ (f a)) :
    P _ (items.mapM f) := by
  induction items with
  | nil =>
    rw [List.mapM_nil]
    exact hP.pure []
  | cons item rest ih =>
    rw [List.mapM_cons]
    refine hP.bind (hf item (by simp)) fun b => ?_
    refine hP.bind (ih fun a ha => hf a (List.mem_cons_of_mem _ ha)) fun bs => ?_
    exact hP.pure (b :: bs)

-- ---------------------------------------------------------------------------
-- Tokens
-- ---------------------------------------------------------------------------

theorem wholeValue (hP : Compositional P) (hs : ∀ key, P _ (source key)) (body : List Char) :
    P _ (Expression.wholeValue payload source body) := by
  unfold Expression.wholeValue
  split
  · rename_i key _
    split
    · exact hP.pure _
    · split
      · exact hP.pure _
      · exact hP.map _ (hs key)
  · exact hP.pure _
  · exact hP.pure _

theorem fieldText (hP : Compositional P) (hs : ∀ key, P _ (source key)) (body : List Char) :
    P _ (Expression.fieldText payload source body) := by
  unfold Expression.fieldText
  split
  · rename_i head field _
    split
    · exact hP.pure _
    · split
      · exact hP.pure _
      · exact hP.map _ (hs head)
  · exact hP.pure _

omit [LawfulMonad m] in
theorem replaceTokens (hP : Compositional P) {fill : List Char → m (Option String)}
    (hfill : ∀ body, P _ (fill body)) (cs : List Char) :
    P _ (Expression.replaceTokens fill cs) := by
  induction cs using Expression.replaceTokens.induct with
  | case1 cs hnone =>
    rw [Expression.replaceTokens]
    split
    · exact hP.pure _
    · simp_all
  | case2 cs before body after hsome ih =>
    rw [Expression.replaceTokens]
    split
    · exact hP.pure _
    · rename_i found
      obtain ⟨rfl, rfl, rfl⟩ : before = _ ∧ body = _ ∧ after = _ := by
        simpa [hsome] using found
      refine hP.bind (hfill body) fun filled => ?_
      refine hP.bind ih fun tail => ?_
      cases filled with
      | none => exact hP.pure _
      | some text => exact hP.pure _

-- ---------------------------------------------------------------------------
-- Properties
-- ---------------------------------------------------------------------------

theorem resolveRest (hP : Compositional P) (hs : ∀ key, P _ (source key)) (text : String)
    (whole : Option Property) : P (Option Property) (match whole with
      | some value => Pure.pure (some value)
      | none => do
        let (changed, out) ←
          Expression.replaceTokens (Expression.fieldText payload source) text.toList
        return if changed then some (.text (String.ofList out)) else none) := by
  cases whole with
  | some value => exact hP.pure _
  | none => exact hP.bind (hP.replaceTokens (hP.fieldText hs) _) fun out => hP.pure _

theorem resolveText (hP : Compositional P) (hs : ∀ key, P _ (source key)) (text : String) :
    P _ (Expression.resolveText payload source text) := by
  simp only [Expression.resolveText]
  split
  · exact hP.bind (hP.wholeValue hs _) (hP.resolveRest hs text)
  · exact hP.bind (hP.pure none) (hP.resolveRest hs text)

theorem resolveLeaf (hP : Compositional P) (hs : ∀ key, P _ (source key)) (p : Property) :
    P _ (Expression.resolveLeaf payload source p) := by
  cases p with
  | text value => exact hP.map _ (hP.resolveText hs value)
  | _ => exact hP.pure _

theorem resolveProperty (hP : Compositional P) (hs : ∀ key, P _ (source key)) (p : Property) :
    P _ (Expression.resolveProperty payload source p) := by
  unfold Expression.resolveProperty
  split
  · exact hP.map _ (hP.mapM fun item _ => hP.resolveLeaf hs item)
  · exact hP.resolveLeaf hs p

theorem resolve (hP : Compositional P) (hs : ∀ key, P _ (source key)) (p : Property) :
    P _ (Expression.resolve payload source p) := by
  unfold Expression.resolve
  split
  · exact hP.map _ (hP.mapM fun field _ => hP.map _ (hP.resolveProperty hs field.2))
  · exact hP.resolveProperty hs p

end Compositional

end FeatureFlow
