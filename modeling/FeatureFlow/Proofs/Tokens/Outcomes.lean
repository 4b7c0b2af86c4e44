import FeatureFlow.Proofs.Tokens.Answers
import Mathlib.Data.List.Forall2

/-!
# What a text becomes

A text that is one token may stand for a value as a whole. In any other text the tokens with
a field are filled in, each with the display text of its field, and all else stays as it is
(`Outcome`). This is what resolving a text gives, whatever the source answers.
-/

namespace FeatureFlow

namespace Expression

/-- What each token is filled in with by its answer, none where it stays. -/
def Words (payload : Property) (c : Cut) (found : List (Option LiveObject))
    (words : List (Option String)) : Prop :=
  List.Forall₂ (fun token word => ∀ text, word = some text ↔ Filled payload token.2 token.1 text)
    (c.bodies.zip found) words

def IsWhole (payload : Property) (c : Cut) (found : List (Option LiveObject)) (value : Property) :
    Prop :=
  ∃ body answer, c.alone? = some body ∧ found = [answer] ∧ Whole payload answer body value

/-- What becomes of a text whose tokens the source has answered with `found`, none where nothing
changes. -/
inductive Outcome (payload : Property) (c : Cut) (found : List (Option LiveObject)) :
    Option Property → Prop
  | whole (h : IsWhole payload c found value) : Outcome payload c found (some value)
  | unchanged (hwhole : ∀ value, ¬ IsWhole payload c found value)
      (hwords : Words payload c found words) (hnone : ∀ word ∈ words, word = none) :
      Outcome payload c found none
  | filled (hwhole : ∀ value, ¬ IsWhole payload c found value)
      (hwords : Words payload c found words) (hsome : some text ∈ words) :
      Outcome payload c found (some (.text (String.ofList (c.fill words))))

variable {payload value : Property} {c : Cut} {found : List (Option LiveObject)}
  {words : List (Option String)}

theorem words_iff :
    Words payload c found words ↔
      words = List.zipWith (fun body answer => fieldOf payload answer body) c.bodies found := by
  have hword (token : List Char × Option LiveObject) (word : Option String) :
      (∀ text, word = some text ↔ Filled payload token.2 token.1 text) ↔
        word = fieldOf payload token.2 token.1 := by
    constructor
    · exact fun h => Option.ext fun text => (h text).trans fieldOf_eq_some.symm
    · rintro rfl text
      exact fieldOf_eq_some
  unfold Words
  simp only [hword, ← List.map_uncurry_zip_eq_zipWith]
  generalize c.bodies.zip found = tokens
  constructor
  · intro h
    induction h with
    | nil => rfl
    | cons hhead _ ih => exact congrArg₂ List.cons hhead ih
  · rintro rfl
    exact List.forall₂_map_right_iff.mpr (List.forall₂_same.mpr fun _ _ => rfl)

theorem isWhole_iff (hfound : found.length = c.tokens.length) :
    IsWhole payload c found value ↔
      c.alone?.bind (wholeOf payload found.head?.join) = some value := by
  constructor
  · rintro ⟨body, answer, halone, rfl, h⟩
    simpa [halone] using wholeOf_eq_some.mpr h
  · intro h
    obtain ⟨body, halone, hvalue⟩ := Option.bind_eq_some_iff.mp h
    obtain ⟨rfl, -⟩ := Cut.alone?_eq_some.mp halone
    obtain ⟨answer, rfl⟩ := List.length_eq_one_iff.mp hfound
    exact ⟨body, answer, halone, rfl, wholeOf_eq_some.mp hvalue⟩

theorem outcome_iff (hfound : found.length = c.tokens.length) (outcome : Option Property) :
    Outcome payload c found outcome ↔ outcome = c.result payload found := by
  have hwhole (value : Property) : IsWhole payload c found value ↔ _ := isWhole_iff hfound
  unfold Cut.result
  generalize c.alone?.bind (wholeOf payload found.head?.join) = whole at hwhole
  generalize hwords : List.zipWith (fun body answer => fieldOf payload answer body) c.bodies found =
    words
  cases whole with
  | some value =>
    have hvalue : IsWhole payload c found value := (hwhole value).mpr rfl
    constructor
    · rintro (h | ⟨h, -, -⟩ | ⟨h, -, -⟩)
      · exact ((hwhole _).mp h).symm
      · exact absurd hvalue (h value)
      · exact absurd hvalue (h value)
    · rintro rfl
      exact .whole hvalue
  | none =>
    have hnever (value : Property) : ¬ IsWhole payload c found value :=
      fun h => nomatch (hwhole value).mp h
    constructor
    · rintro (h | ⟨-, hother, hnone⟩ | ⟨-, hother, hsome⟩)
      · exact absurd h (hnever _)
      · obtain rfl := (words_iff.mp hother).trans hwords
        refine (if_neg fun hany => ?_).symm
        obtain ⟨word, hmem, hisSome⟩ := List.any_eq_true.mp hany
        simp [hnone word hmem] at hisSome
      · obtain rfl := (words_iff.mp hother).trans hwords
        exact (if_pos (List.any_eq_true.mpr ⟨_, hsome, rfl⟩)).symm
    · rintro rfl
      have hgiven : Words payload c found words := words_iff.mpr hwords.symm
      by_cases hany : words.any Option.isSome = true
      · obtain ⟨word, hmem, hisSome⟩ := List.any_eq_true.mp hany
        obtain ⟨text, rfl⟩ := Option.isSome_iff_exists.mp hisSome
        simp only [hany, if_true]
        exact .filled hnever hgiven hmem
      · simp only [hany]
        refine .unchanged hnever hgiven fun word hmem => Option.not_isSome_iff_eq_none.mp ?_
        exact fun hsome => hany (List.any_eq_true.mpr ⟨word, hmem, hsome⟩)

/-- A text has one proper cut. The source is asked for the keys of its tokens and for nothing
else, and what becomes of the text is the outcome of the answers. -/
theorem resolveText_cut [Monad m] [LawfulMonad m] (payload : Property) (source : Source m)
    (text : String) :
    ∃ c : Cut, c.Proper ∧ c.chars = text.toList ∧
      (∀ other : Cut, other.Proper → other.chars = text.toList → other = c) ∧
      ∃ result : List (Option LiveObject) → Option Property,
        resolveText payload source text = result <$> c.questions.mapM (ask source) ∧
        ∀ found, found.length = c.tokens.length →
          ∀ outcome, Outcome payload c found outcome ↔ outcome = result found := by
  refine ⟨Cut.ofChars text.toList, Cut.proper_ofChars _, Cut.chars_ofChars _, ?_,
    (Cut.ofChars text.toList).result payload, resolveText_eq payload source text,
    fun found => outcome_iff⟩
  rintro other hproper hchars
  rw [← hchars, Cut.ofChars_chars hproper]

/-- Hands out one data object once, and keeps the keys that it was asked for. -/
def once (live : LiveObject) : Source (StateM (List String)) := fun key => do
  let asked ← get
  set (asked ++ [key])
  return if key = live.object.key ∧ key ∉ asked then some live else none

theorem resolveText_cut_once :
    let object : DataObject := .ofValue "d" (.object [("tier", .text "\x7bpayload.n\x7d")])
    let live : LiveObject :=
      { reference := { feature := "shop", registration := 0, key := "d" }, object }
    let payload : Property := .map [("n", .text "3")]
    let text :=
      "\x7d\x7bpayload.n\x7d \x7bd.tier\x7d \x7bd.tier\x7d \x7b\x7bd.tier\x7d \x7bd\x7d\x7b"
    LawfulMonad (StateM (List String)) ∧
      (∃ c : Cut, c.Proper ∧ c.chars = text.toList ∧
        ∃ result : List (Option LiveObject) → Option Property,
          resolveText payload (once live) text = result <$> c.questions.mapM (ask (once live)) ∧
          ∀ found, found.length = c.tokens.length →
            ∀ outcome, Outcome payload c found outcome ↔ outcome = result found) ∧
      (Cut.ofChars text.toList).questions = [none, some "d", some "d", some "\x7bd", none] ∧
      ((resolveText payload (once live) text).run []).1.bind Property.text? =
        some "\x7d3 \x7bpayload.n\x7d \x7bd.tier\x7d \x7b\x7bd.tier\x7d \x7bd\x7d\x7b" := by
  intro object live payload text
  obtain ⟨c, hproper, hchars, -, hresult⟩ := resolveText_cut payload (once live) text
  exact ⟨inferInstance, ⟨c, hproper, hchars, hresult⟩, by decide +kernel, by decide +kernel⟩

end Expression

end FeatureFlow
