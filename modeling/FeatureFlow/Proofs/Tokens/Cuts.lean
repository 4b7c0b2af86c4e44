import FeatureFlow.Expression
import FeatureFlow.Proofs.Cutting

/-!
# Texts cut at their tokens

A text is cut at the next opening brace and the first closing brace behind it, again and
again. What the pieces look like (`Cut.Proper`) leaves only one cut of each text
(`Cut.ofChars_chars`). Replacing the tokens of a text puts its pieces together again, with
the texts that were found in place of their tokens (`replaceTokens_eq`).
-/

namespace FeatureFlow

namespace Expression

variable {cs before body after rest : List Char}

-- ---------------------------------------------------------------------------
-- The next token
-- ---------------------------------------------------------------------------

theorem nextToken?_eq_some :
    nextToken? cs = some (before, body, after) ↔
      cs = before ++ '\x7b' :: body ++ '\x7d' :: after ∧ '\x7b' ∉ before ∧ '\x7d' ∉ body := by
  constructor
  · intro h
    obtain ⟨⟨first, tail⟩, hopen, h⟩ := Option.bind_eq_some_iff.mp h
    obtain ⟨⟨inner, last⟩, hclose, h⟩ := Option.bind_eq_some_iff.mp h
    obtain ⟨rfl, rfl, rfl⟩ : first = before ∧ inner = body ∧ last = after := by
      simpa [pure] using h
    obtain ⟨rfl, hbefore⟩ := Text.cut?_eq_some.mp hopen
    obtain ⟨rfl, hbody⟩ := Text.cut?_eq_some.mp hclose
    exact ⟨by simp, hbefore, hbody⟩
  · rintro ⟨rfl, hbefore, hbody⟩
    have hopen : Text.cut? '\x7b' (before ++ '\x7b' :: body ++ '\x7d' :: after) =
        some (before, body ++ '\x7d' :: after) :=
      Text.cut?_eq_some.mpr ⟨by simp, hbefore⟩
    have hclose : Text.cut? '\x7d' (body ++ '\x7d' :: after) = some (body, after) :=
      Text.cut?_eq_some.mpr ⟨rfl, hbody⟩
    simp only [nextToken?, hopen, hclose, Option.bind_eq_bind, Option.bind_some]
    rfl

theorem nextToken?_eq_none :
    nextToken? cs = none ↔ ∀ first last, cs = first ++ '\x7b' :: last → '\x7d' ∉ last := by
  constructor
  · rintro h first last rfl hmem
    -- the next opening brace stands at this one or in front of it
    obtain ⟨before, tail, hopen, htail⟩ : ∃ before tail,
        Text.cut? '\x7b' (first ++ '\x7b' :: last) = some (before, tail) ∧ '\x7d' ∈ tail := by
      rw [Text.cut?_append]
      cases Text.cut? '\x7b' first with
      | some parts => exact ⟨parts.1, _, rfl, by simp [hmem]⟩
      | none => exact ⟨first, last, by simp [Text.cut?], hmem⟩
    obtain ⟨body, after, rfl, hbody⟩ := List.eq_append_cons_of_mem htail
    obtain ⟨hcut, hbefore⟩ := Text.cut?_eq_some.mp hopen
    have hnext := nextToken?_eq_some.mpr ⟨by simpa using hcut, hbefore, hbody⟩
    simp [h] at hnext
  · intro h
    cases hnext : nextToken? cs with
    | none => rfl
    | some parts =>
      obtain ⟨before, body, after⟩ := parts
      obtain ⟨rfl, -, -⟩ := nextToken?_eq_some.mp hnext
      exact absurd (by simp) (h before (body ++ '\x7d' :: after) (by simp))

-- ---------------------------------------------------------------------------
-- Cuts
-- ---------------------------------------------------------------------------

/-- A text in pieces: the tokens, each with the text in front of it and its body, and the text
behind the last one. -/
structure Cut where
  tokens : List (List Char × List Char)
  rest : List Char
deriving DecidableEq

namespace Cut

def chars (c : Cut) : List Char :=
  c.tokens.flatMap (fun (before, body) => before ++ '\x7b' :: body ++ ['\x7d']) ++ c.rest

def bodies (c : Cut) : List (List Char) :=
  c.tokens.map (·.2)

/-- The text is cut at every opening brace that has a closing one behind it, and at the first
closing one. -/
structure Proper (c : Cut) : Prop where
  before : ∀ token ∈ c.tokens, '\x7b' ∉ token.1
  body : ∀ token ∈ c.tokens, '\x7d' ∉ token.2
  rest : ∀ first last, c.rest = first ++ '\x7b' :: last → '\x7d' ∉ last

def ofChars (cs : List Char) : Cut :=
  match _h : nextToken? cs with
  | none => { tokens := [], rest := cs }
  | some (before, body, after) =>
    let later := ofChars after
    { later with tokens := (before, body) :: later.tokens }
termination_by cs.length
decreasing_by exact nextToken?_length _h

theorem ofChars_of_none (h : nextToken? cs = none) : ofChars cs = { tokens := [], rest := cs } := by
  rw [ofChars]
  split <;> simp_all

theorem ofChars_of_some (h : nextToken? cs = some (before, body, after)) :
    ofChars cs =
      { tokens := (before, body) :: (ofChars after).tokens, rest := (ofChars after).rest } := by
  rw [ofChars]
  split <;> simp_all

theorem chars_ofChars (cs : List Char) : (ofChars cs).chars = cs := by
  induction cs using ofChars.induct with
  | case1 cs hnone => simp [ofChars_of_none hnone, chars]
  | case2 cs before body after hsome ih =>
    obtain ⟨rfl, -, -⟩ := nextToken?_eq_some.mp hsome
    rw [ofChars_of_some hsome]
    simpa [chars] using ih

theorem proper_ofChars (cs : List Char) : (ofChars cs).Proper := by
  induction cs using ofChars.induct with
  | case1 cs hnone =>
    rw [ofChars_of_none hnone]
    exact ⟨nofun, nofun, nextToken?_eq_none.mp hnone⟩
  | case2 cs before body after hsome ih =>
    obtain ⟨-, hbefore, hbody⟩ := nextToken?_eq_some.mp hsome
    rw [ofChars_of_some hsome]
    exact ⟨List.forall_mem_cons.mpr ⟨hbefore, ih.before⟩,
      List.forall_mem_cons.mpr ⟨hbody, ih.body⟩, ih.rest⟩

theorem ofChars_chars {c : Cut} (h : c.Proper) : ofChars c.chars = c := by
  obtain ⟨tokens, rest⟩ := c
  induction tokens with
  | nil => exact ofChars_of_none (nextToken?_eq_none.mpr h.rest)
  | cons token later ih =>
    obtain ⟨hbefore, hbefores⟩ := List.forall_mem_cons.mp h.before
    obtain ⟨hbody, hbodies⟩ := List.forall_mem_cons.mp h.body
    have hlater : ofChars (chars { tokens := later, rest }) = { tokens := later, rest } :=
      ih ⟨hbefores, hbodies, h.rest⟩
    have hnext : nextToken? (chars { tokens := token :: later, rest }) =
        some (token.1, token.2, chars { tokens := later, rest }) :=
      nextToken?_eq_some.mpr ⟨by simp [chars], hbefore, hbody⟩
    rw [ofChars_of_some hnext, hlater]

def alone? (c : Cut) : Option (List Char) :=
  match c with
  | { tokens := [([], body)], rest := [] } => if '\x7b' ∈ body then none else some body
  | _ => none

theorem alone?_eq_some {c : Cut} :
    c.alone? = some body ↔ c = { tokens := [([], body)], rest := [] } ∧ '\x7b' ∉ body := by
  unfold alone?
  split
  · rename_i inner
    by_cases h : inner = body
    · subst h
      simp
    · simp [h]
  · rename_i hother
    constructor
    · intro h
      cases h
    · rintro ⟨rfl, -⟩
      exact absurd rfl (hother body)

/-- The text with what its tokens are replaced by; a token without a replacement stays. -/
def fill (c : Cut) (words : List (Option String)) : List Char :=
  (List.zipWith (fun token word =>
    token.1 ++ word.elim ('\x7b' :: token.2 ++ ['\x7d']) String.toList) c.tokens words).flatten ++
      c.rest

end Cut

-- ---------------------------------------------------------------------------
-- Replacing tokens
-- ---------------------------------------------------------------------------

theorem wholeToken?_eq_some :
    wholeToken? cs = some body ↔
      cs = '\x7b' :: body ++ ['\x7d'] ∧ '\x7b' ∉ body ∧ '\x7d' ∉ body := by
  have hbraces : body.any isBrace = false ↔ '\x7b' ∉ body ∧ '\x7d' ∉ body := by
    rw [← Bool.not_eq_true, List.any_eq_true]
    simp only [isBrace, Bool.or_eq_true, beq_iff_eq]
    grind
  constructor
  · intro h
    obtain ⟨rest, hrest, hclosed⟩ := Option.bind_eq_some_iff.mp h
    obtain ⟨inner, hinner, hplain⟩ := Option.bind_eq_some_iff.mp hclosed
    obtain rfl := Text.before?_eq_some hinner
    split at hplain
    · cases hplain
    · rename_i hnone
      obtain rfl := Option.some.inj hplain
      exact ⟨by simpa using Text.after?_eq_some hrest, hbraces.mp (Bool.eq_false_iff.mpr hnone)⟩
  · rintro ⟨rfl, hbody⟩
    have hafter : Text.after? ['\x7b'] ('\x7b' :: body ++ ['\x7d']) = some (body ++ ['\x7d']) := by
      simp [Text.after?]
    have hbefore : Text.before? ['\x7d'] (body ++ ['\x7d']) = some body := by
      simp [Text.before?]
    simp only [wholeToken?, hafter, hbefore, Option.bind_eq_bind, Option.bind_some,
      hbraces.mpr hbody, Bool.false_eq_true, if_false]

theorem wholeToken?_eq_alone? (cs : List Char) : wholeToken? cs = (Cut.ofChars cs).alone? := by
  refine Option.ext fun body => ?_
  rw [wholeToken?_eq_some, Cut.alone?_eq_some]
  constructor
  · rintro ⟨rfl, hopening, hclosing⟩
    have hproper : Cut.Proper { tokens := [([], body)], rest := [] } :=
      ⟨by simp, by simpa using hclosing, by simp⟩
    exact ⟨by simpa [Cut.chars] using Cut.ofChars_chars hproper, hopening⟩
  · rintro ⟨hcut, hopening⟩
    have hchars := Cut.chars_ofChars cs
    have hbody := (Cut.proper_ofChars cs).body
    rw [hcut] at hchars hbody
    exact ⟨by simpa [Cut.chars] using hchars.symm, hopening, by simpa using hbody⟩

theorem replaceTokens_eq [Monad m] [LawfulMonad m] (find : List Char → m (Option String))
    (cs : List Char) :
    replaceTokens find cs =
      (fun words => (words.any Option.isSome, (Cut.ofChars cs).fill words)) <$>
        (Cut.ofChars cs).bodies.mapM find := by
  induction cs using Cut.ofChars.induct with
  | case1 cs hnone =>
    rw [Cut.ofChars_of_none hnone, replaceTokens]
    split
    · simp [Cut.bodies, Cut.fill]
    · simp_all
  | case2 cs before body after hsome ih =>
    rw [Cut.ofChars_of_some hsome, replaceTokens]
    split
    · simp_all
    · rename_i found
      obtain ⟨rfl, rfl, rfl⟩ : before = _ ∧ body = _ ∧ after = _ := by
        simpa [hsome] using found
      simp only [ih, Cut.bodies, List.map_cons, List.mapM_cons, map_eq_pure_bind, bind_assoc,
        pure_bind]
      refine bind_congr fun word => bind_congr fun words => ?_
      cases word with
      | none => simp [Cut.fill]
      | some text => simp [Cut.fill]

end Expression

end FeatureFlow
