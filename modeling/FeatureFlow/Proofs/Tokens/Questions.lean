import FeatureFlow.Proofs.Tokens.Answers

/-!
# What resolving asks its source

Resolving a property tree asks the source for the keys that its texts name, in their order,
and only then looks at the payload and the answers (`asks_resolve`). So the keys are the same
for every payload and every source, and a text that comes from either of them is never read
for tokens.
-/

namespace FeatureFlow

/-- The program asks the source for these keys, in this order, and concludes from the answers.
It does so over every monad, so that it can do nothing else. -/
def Asks (keys : List String) (program : (m : Type → Type) → [Monad m] → Source m → m α) : Prop :=
  ∃ conclude : List (Option LiveObject) → α,
    ∀ (m : Type → Type) [Monad m] [LawfulMonad m] (source : Source m),
      program m source = conclude <$> keys.mapM source

def Source.logged [Monad m] (source : Source m) : Source (StateT (List String) m) := fun key => do
  modify (· ++ [key])
  source key

theorem mapM_bind_congr [Monad m] [LawfulMonad m] {items : List α} {f : α → m β}
    {g h : List β → m γ} (hgh : ∀ results, results.length = items.length → g results = h results) :
    items.mapM f >>= g = items.mapM f >>= h := by
  induction items generalizing g h with
  | nil => simpa using hgh [] rfl
  | cons item rest ih =>
    simp only [List.mapM_cons, bind_assoc, pure_bind]
    refine bind_congr fun result => ih fun results hlength => ?_
    exact hgh (result :: results) (by simp [hlength])

theorem Source.run_mapM_logged [Monad m] [LawfulMonad m] (source : Source m) (keys : List String)
    (log : List String) :
    (keys.mapM source.logged).run log = (·, log ++ keys) <$> keys.mapM source := by
  induction keys generalizing log with
  | nil => simp
  | cons key rest ih => simp [Source.logged, ih]

namespace Asks

variable {keys more : List String} {x y : (m : Type → Type) → [Monad m] → Source m → m α}

theorem of_eq (hx : Asks keys x)
    (h : ∀ (m : Type → Type) [Monad m] [LawfulMonad m] (source : Source m),
      y m source = x m source) : Asks keys y := by
  obtain ⟨conclude, hx⟩ := hx
  exact ⟨conclude, fun m _ _ source => (h m source).trans (hx m source)⟩

theorem pure (a : α) : Asks [] fun _ [Monad _] _ => Pure.pure a :=
  ⟨fun _ => a, fun m _ _ source => by simp⟩

theorem map (hx : Asks keys x) (f : α → β) :
    Asks keys fun m [Monad m] source => f <$> x m source := by
  obtain ⟨conclude, hx⟩ := hx
  exact ⟨fun found => f (conclude found), fun m _ _ source => by simp [hx]⟩

theorem map₂ {z : (m : Type → Type) → [Monad m] → Source m → m β} (hx : Asks keys x)
    (hz : Asks more z) (f : α → β → γ) :
    Asks (keys ++ more) fun m [Monad m] source => do
      let a ← x m source
      let b ← z m source
      return f a b := by
  obtain ⟨first, hx⟩ := hx
  obtain ⟨second, hz⟩ := hz
  refine ⟨fun found => f (first (found.take keys.length)) (second (found.drop keys.length)), ?_⟩
  intro m _ _ source
  simp only [hx, hz, List.mapM_append, map_eq_pure_bind, bind_assoc, pure_bind]
  -- the answers to the first part are as many as its keys
  refine mapM_bind_congr fun found hlength => bind_congr fun others => ?_
  simp [← hlength]

theorem mapM {items : List ι} {keys : ι → List String}
    {x : ι → (m : Type → Type) → [Monad m] → Source m → m α}
    (h : ∀ item ∈ items, Asks (keys item) (x item)) :
    Asks (items.flatMap keys) fun m [Monad m] source => items.mapM fun item => x item m source := by
  induction items with
  | nil => exact (pure []).of_eq fun m _ _ source => List.mapM_nil
  | cons item rest ih =>
    have hrest := ih fun other hother => h other (List.mem_cons_of_mem _ hother)
    exact ((h item (by simp)).map₂ hrest List.cons).of_eq fun m _ _ source => List.mapM_cons

theorem run_logged (hx : Asks keys x) [Monad m] [LawfulMonad m] (source : Source m) :
    (x (StateT (List String) m) source.logged).run [] = (·, keys) <$> x m source := by
  obtain ⟨conclude, hx⟩ := hx
  simp [hx, source.run_mapM_logged]

end Asks

namespace Expression

-- ---------------------------------------------------------------------------
-- Keys of texts
-- ---------------------------------------------------------------------------

def keysOf (text : String) : List String :=
  (Cut.ofChars text.toList).questions.flatMap Option.toList

def propertyTexts : Property → List String
  | .list items => items.flatMap (·.text?.toList)
  | p => p.text?.toList

def texts : Property → List String
  | .map fields => fields.flatMap fun (_, value) => propertyTexts value
  | p => propertyTexts p

theorem asks_ask (question : Option String) :
    Asks question.toList fun m [Monad m] (source : Source m) => ask source question := by
  cases question with
  | none => exact .pure none
  | some key => exact ⟨fun found => found.head?.join, fun m _ _ source => by simp [ask]⟩

theorem asks_resolveText (payload : Property) (text : String) :
    Asks (keysOf text) fun m [Monad m] (source : Source m) => resolveText payload source text :=
  ((Asks.mapM fun question _ => asks_ask question).map
    ((Cut.ofChars text.toList).result payload)).of_eq fun _ _ _ source =>
      resolveText_eq payload source text

theorem asks_resolveLeaf (payload p : Property) :
    Asks (p.text?.toList.flatMap keysOf) fun m [Monad m] (source : Source m) =>
      resolveLeaf payload source p := by
  cases p with
  | text value =>
    have hkeys : (Property.text value).text?.toList.flatMap keysOf = keysOf value := by
      simp [Property.text?]
    rw [hkeys]
    exact (asks_resolveText payload value).map _
  | _ => exact .pure _

theorem asks_resolveProperty (payload p : Property) :
    Asks ((propertyTexts p).flatMap keysOf) fun m [Monad m] (source : Source m) =>
      resolveProperty payload source p := by
  by_cases hlist : ∃ items, p = .list items
  · obtain ⟨items, rfl⟩ := hlist
    rw [propertyTexts, List.flatMap_assoc]
    exact (Asks.mapM fun item _ => asks_resolveLeaf payload item).map _
  · have htexts : propertyTexts p = p.text?.toList := by
      unfold propertyTexts
      split <;> simp_all
    rw [htexts]
    refine (asks_resolveLeaf payload p).of_eq fun m _ _ source => ?_
    unfold resolveProperty
    split <;> simp_all

theorem asks_resolve (payload p : Property) :
    Asks ((texts p).flatMap keysOf) fun m [Monad m] (source : Source m) =>
      resolve payload source p := by
  by_cases hmap : ∃ fields, p = .map fields
  · obtain ⟨fields, rfl⟩ := hmap
    rw [texts, List.flatMap_assoc]
    exact (Asks.mapM fun field _ => (asks_resolveProperty payload field.2).map _).map _
  · have htexts : texts p = propertyTexts p := by
      unfold texts
      split <;> simp_all
    rw [htexts]
    refine (asks_resolveProperty payload p).of_eq fun m _ _ source => ?_
    unfold resolve
    split <;> simp_all

theorem named_of_mem_keysOf {text : String} (h : key ∈ keysOf text) :
    ∃ body ∈ (Cut.ofChars text.toList).bodies,
      parts body = [key] ∨ ∃ field, parts body = [key, field] := by
  obtain ⟨question, hquestion, hkey⟩ := List.mem_flatMap.mp h
  obtain ⟨body, hbody, rfl⟩ := List.mem_map.mp hquestion
  refine ⟨body, hbody, ?_⟩
  have hkey := Option.mem_toList.mp hkey
  unfold key? at hkey
  split at hkey
  · rename_i name hparts
    obtain ⟨-, hname⟩ := Option.ite_none_right_eq_some.mp hkey
    obtain rfl := Option.some.inj hname
    exact .inl hparts
  · rename_i head field hparts
    obtain ⟨-, hname⟩ := Option.ite_none_right_eq_some.mp hkey
    obtain rfl := Option.some.inj hname
    exact .inr ⟨field, hparts⟩
  · cases hkey

/-- Whatever the payload is and whatever the source answers, resolving a tree asks for the same
keys in the same order, and for none that does not stand in a token of the tree. -/
theorem resolve_logged (p : Property) :
    ∃ keys : List String,
      (∀ (m : Type → Type) [Monad m] [LawfulMonad m] (payload : Property) (source : Source m),
        (resolve payload source.logged p).run [] = (·, keys) <$> resolve payload source p) ∧
      ∀ key ∈ keys, ∃ text ∈ texts p, ∃ body ∈ (Cut.ofChars text.toList).bodies,
        parts body = [key] ∨ ∃ field, parts body = [key, field] := by
  refine ⟨(texts p).flatMap keysOf, fun m _ _ payload source => ?_, fun key hkey => ?_⟩
  · exact (asks_resolve payload p).run_logged source
  · obtain ⟨text, htext, hkey⟩ := List.mem_flatMap.mp hkey
    exact ⟨text, htext, named_of_mem_keysOf hkey⟩

/-- Text of the payload and of a data object that looks like a token is not looked up. -/
theorem resolve_logged_untrusted :
    let p : Property := .map
      [("first", .text "\x7bpayload.name\x7d \x7bd.tier\x7d"),
        ("second", .list [.text "\x7be\x7d", .text "\x7bpayload\x7d"])]
    let payload : Property := .map [("name", .text "\x7bsecret.pin\x7d")]
    let object : DataObject := .ofValue "d" (.object [("tier", .text "\x7bsecret\x7d")])
    let live : LiveObject :=
      { reference := { feature := "shop", registration := 0, key := "d" }, object }
    LawfulMonad Id ∧
      ∃ keys : List String, keys = ["d", "e"] ∧
        (resolve (m := StateT _ Id) payload (Source.logged fun _ => some live) p).run [] =
          ((resolve (m := Id) payload (fun _ => some live) p), keys) ∧
        (resolve (m := StateT _ Id) .null (Source.logged Source.empty) p).run [] =
          ((resolve (m := Id) .null Source.empty p), keys) := by
  intro p payload object live
  obtain ⟨keys, hlogged, -⟩ := resolve_logged p
  refine ⟨inferInstance, keys, ?_, hlogged Id payload fun _ => some live,
    hlogged Id .null Source.empty⟩
  have hkeys := congrArg Prod.snd (hlogged Id .null Source.empty)
  exact hkeys.symm.trans (by decide +kernel)

end Expression

end FeatureFlow
