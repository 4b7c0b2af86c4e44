import FeatureFlow.Proofs.Tokens.Questions

/-!
# Tokens of the payload

A token stands for the payload where its first name is `payloadName`. Texts without such
tokens become the same under every payload (`resolve_congr`).
-/

namespace FeatureFlow

namespace Expression

-- ---------------------------------------------------------------------------
-- Tokens
-- ---------------------------------------------------------------------------

def isPayloadToken (body : List Char) : Bool :=
  match parts body with
  | [head] | [head, _] => head == payloadName
  | _ => false

def NamesPayload (text : String) : Prop :=
  ∃ body ∈ (Cut.ofChars text.toList).bodies, isPayloadToken body = true

instance : Decidable (NamesPayload text) :=
  inferInstanceAs (Decidable (∃ body ∈ _, _))

variable {payload other : Property} {body : List Char} {text : String}

theorem wholeOf_congr (h : isPayloadToken body = false) (payload other : Property)
    (answer : Option LiveObject) : wholeOf payload answer body = wholeOf other answer body := by
  unfold isPayloadToken at h
  unfold wholeOf wholeValue
  split <;> simp_all

theorem fieldOf_congr (h : isPayloadToken body = false) (payload other : Property)
    (answer : Option LiveObject) : fieldOf payload answer body = fieldOf other answer body := by
  unfold isPayloadToken at h
  unfold fieldOf fieldText
  split <;> simp_all

-- ---------------------------------------------------------------------------
-- Resolving under different payloads
-- ---------------------------------------------------------------------------

theorem zipWith_congr_left {f g : α → β → γ} {first : List α} (h : ∀ a ∈ first, f a = g a)
    (second : List β) : List.zipWith f first second = List.zipWith g first second := by
  induction first generalizing second with
  | nil => rfl
  | cons a rest ih =>
    cases second with
    | nil => rfl
    | cons b others =>
      rw [List.zipWith_cons_cons, List.zipWith_cons_cons, h a List.mem_cons_self,
        ih fun x hx => h x (List.mem_cons_of_mem _ hx)]

theorem mapM_congr_left [Monad m] [LawfulMonad m] {items : List α} {f g : α → m β}
    (h : ∀ item ∈ items, f item = g item) : items.mapM f = items.mapM g := by
  induction items with
  | nil => rfl
  | cons item rest ih =>
    rw [List.mapM_cons, List.mapM_cons, h item List.mem_cons_self,
      ih fun x hx => h x (List.mem_cons_of_mem _ hx)]

theorem result_congr {c : Cut} (h : ∀ body ∈ c.bodies, isPayloadToken body = false)
    (payload other : Property) (found : List (Option LiveObject)) :
    c.result payload found = c.result other found := by
  have hwords : List.zipWith (fun body answer => fieldOf payload answer body) c.bodies found =
      List.zipWith (fun body answer => fieldOf other answer body) c.bodies found :=
    zipWith_congr_left (fun body hbody => funext (fieldOf_congr (h body hbody) payload other)) found
  have hwhole : c.alone?.bind (wholeOf payload found.head?.join) =
      c.alone?.bind (wholeOf other found.head?.join) := by
    refine Option.bind_congr fun body hbody => wholeOf_congr (h body ?_) payload other _
    rw [(Cut.alone?_eq_some.mp hbody).1]
    exact List.mem_singleton_self body
  simp only [Cut.result, hwords, hwhole]

section

variable [Monad m] [LawfulMonad m]

theorem resolveText_congr (h : ¬NamesPayload text) (payload other : Property)
    (source : Source m) : resolveText payload source text = resolveText other source text := by
  have hbodies : ∀ body ∈ (Cut.ofChars text.toList).bodies, isPayloadToken body = false :=
    fun body hbody => eq_false_of_ne_true fun htoken => h ⟨body, hbody, htoken⟩
  rw [resolveText_eq, resolveText_eq, funext (result_congr hbodies payload other)]

theorem resolveLeaf_congr {p : Property} (h : ∀ text ∈ p.text?, ¬NamesPayload text)
    (payload other : Property) (source : Source m) :
    resolveLeaf payload source p = resolveLeaf other source p := by
  cases p with
  | text value => simp only [resolveLeaf, resolveText_congr (h value rfl) payload other]
  | _ => rfl

theorem resolveProperty_congr {p : Property} (h : ∀ text ∈ propertyTexts p, ¬NamesPayload text)
    (payload other : Property) (source : Source m) :
    resolveProperty payload source p = resolveProperty other source p := by
  unfold propertyTexts at h
  unfold resolveProperty
  split
  · rename_i items
    refine congrArg (Property.list <$> ·) (mapM_congr_left fun item hitem => ?_)
    refine resolveLeaf_congr (fun text htext => h text ?_) payload other source
    exact List.mem_flatMap.mpr ⟨item, hitem, Option.mem_toList.mpr htext⟩
  · rename_i hlist
    refine resolveLeaf_congr (fun text htext => h text ?_) payload other source
    split
    · exact absurd rfl (hlist _)
    · exact Option.mem_toList.mpr htext

theorem resolve_congr {p : Property} (h : ∀ text ∈ texts p, ¬NamesPayload text)
    (payload other : Property) (source : Source m) :
    resolve payload source p = resolve other source p := by
  unfold texts at h
  unfold resolve
  split
  · rename_i fields
    refine congrArg (Property.map <$> ·) (mapM_congr_left fun field hfield => ?_)
    have hvalue := resolveProperty_congr (p := field.2) (fun text htext =>
      h text (List.mem_flatMap.mpr ⟨field, hfield, htext⟩)) payload other source
    simp only [hvalue]
  · rename_i hmap
    refine resolveProperty_congr (fun text htext => h text ?_) payload other source
    split
    · exact absurd rfl (hmap _)
    · exact htext

end

end Expression

end FeatureFlow
