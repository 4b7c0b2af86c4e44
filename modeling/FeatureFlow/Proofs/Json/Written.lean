import FeatureFlow.Json.Parse
import FeatureFlow.Proofs.Json.Tokens

/-!
# Written values that are read back

The compact text of a value is the text of its tokens, and the reader goes through these tokens
to the value (`parse?_compact`). The value must be one that the reader can come to: the keys of its
objects are in order, its numbers are read back, and it is not nested too deep.
-/

namespace FeatureFlow

theorem Fields.Rising.ofList_eq {fields : Fields α} (h : fields.Rising) :
    Fields.ofList fields = fields := by
  have htable : Table.ofList fields = ⟨fields, h⟩ := Table.ofList_of_perm (.refl fields)
  rw [← Table.entries_ofList, htable]

namespace Json

-- ---------------------------------------------------------------------------
-- The tokens of a value
-- ---------------------------------------------------------------------------

mutual
def tokens : Json → List Token
  | null => [.null]
  | boolean value => [.boolean value]
  | number value => [.number value]
  | text value => [.text value]
  | array items => .openArray :: (tokensOfItems items ++ [.closeArray])
  | object fields => .openObject :: (tokensOfFields fields ++ [.closeObject])
def tokensOfItems : List Json → List Token
  | [] => []
  | [item] => tokens item
  | item :: rest => tokens item ++ .comma :: tokensOfItems rest
def tokensOfFields : List (String × Json) → List Token
  | [] => []
  | [(key, value)] => .text key :: .colon :: tokens value
  | (key, value) :: rest => .text key :: .colon :: (tokens value ++ .comma :: tokensOfFields rest)
end

mutual
theorem toList_compact : (j : Json) → j.compact.toList = j.tokens.flatMap Token.written
  | null => rfl
  | boolean true => rfl
  | boolean false => rfl
  | number value => by simp [compact, tokens, Token.written]
  | text value => by simp [compact, tokens, Token.written]
  | array items => by
    simp [compact, tokens, Token.written, toList_compactItems items]
  | object fields => by
    simp [compact, tokens, Token.written, toList_compactFields fields]
theorem toList_compactItems : (items : List Json) →
    (compactItems items).toList = (tokensOfItems items).flatMap Token.written
  | [] => rfl
  | [item] => by rw [compactItems, tokensOfItems, toList_compact item]
  | item :: second :: rest => by
    simp [compactItems, tokensOfItems, Token.written, toList_compact item,
      toList_compactItems (second :: rest)]
theorem toList_compactFields : (fields : List (String × Json)) →
    (compactFields fields).toList = (tokensOfFields fields).flatMap Token.written
  | [] => rfl
  | [(key, value)] => by
    simp [compactFields, tokensOfFields, Token.written, toList_compact value]
  | (key, value) :: second :: rest => by
    simp [compactFields, tokensOfFields, Token.written, toList_compact value,
      toList_compactFields (second :: rest)]
end

-- ---------------------------------------------------------------------------
-- From the text to the tokens
-- ---------------------------------------------------------------------------

namespace Token

/-- Each token stands in front of the text of those behind it. -/
def AllStand : List Token → Prop
  | [] => True
  | t :: rest => t.Stands (rest.flatMap written) ∧ AllStand rest

variable {t : Token} {rest : List Char}

theorem not_isBlank_of_number? (h : number? (c :: cs) = some r) : isBlank c = false := by
  rcases head_of_number? h with rfl | hdigit
  · rfl
  · rw [isBlank]
    simp only [Bool.or_eq_false_iff, beq_eq_false_iff_ne]
    refine ⟨⟨⟨?_, ?_⟩, ?_⟩, ?_⟩ <;> rintro rfl <;> exact hdigit (by decide)

theorem exists_written (h : t.Stands rest) : ∃ c cs, t.written = c :: cs ∧ isBlank c = false := by
  cases t with
  | boolean value => cases value <;> exact ⟨_, _, rfl, rfl⟩
  | number n =>
    have hreads := (h n rfl).1
    rw [written]
    cases htext : n.text.toList with
    | nil =>
      rw [Number.ReadsBack, htext] at hreads
      cases hreads
    | cons c cs =>
      rw [Number.ReadsBack, htext] at hreads
      exact ⟨c, cs, rfl, not_isBlank_of_number? hreads⟩
  | text s => exact ⟨'"', s.toList.flatMap escape ++ ['"'], by simp [written, quote], rfl⟩
  | _ => exact ⟨_, _, rfl, rfl⟩

theorem length_le_flatMap_written {ts : List Token} (h : AllStand ts) :
    ts.length ≤ (ts.flatMap written).length := by
  induction ts with
  | nil => exact Nat.le_refl 0
  | cons t ts ih =>
    obtain ⟨c, cs, hwritten, -⟩ := exists_written h.1
    have hrest := ih h.2
    rw [List.flatMap_cons, hwritten, List.length_cons, List.length_append, List.length_cons]
    omega

theorem readAll?_of_first? (hblank : isBlank c = false) (hfirst : first? (c :: cs) = some (t, rest))
    (more : Nat) (done : List Token) :
    readAll? (more + 1) (c :: cs) done = readAll? more rest (t :: done) := by
  have hdrop : (c :: cs).dropWhile isBlank = c :: cs :=
    List.dropWhile_cons_of_neg (by simp [hblank])
  rw [readAll?.eq_def]
  simp only [hdrop, hfirst]

theorem readAll?_written {ts : List Token} (h : AllStand ts) {rounds : Nat}
    (hrounds : ts.length ≤ rounds) (done : List Token) :
    readAll? rounds (ts.flatMap written) done = some (done.reverse ++ ts) := by
  induction ts generalizing rounds done with
  | nil =>
    rw [List.append_nil]
    cases rounds <;> rfl
  | cons t ts ih =>
    obtain ⟨c, cs, hwritten, hblank⟩ := exists_written h.1
    obtain ⟨more, rfl⟩ : ∃ more, rounds = more + 1 := ⟨rounds - 1, by simp at hrounds; omega⟩
    have hfirst := first?_written h.1
    rw [hwritten, List.cons_append] at hfirst
    rw [List.flatMap_cons, hwritten, List.cons_append, readAll?_of_first? hblank hfirst,
      ih h.2 (Nat.le_of_succ_le_succ hrounds), List.reverse_cons, List.append_assoc]
    rfl

end Token

mutual
/-- The keys of every object rise and every number is read back. -/
def Regular : Json → Prop
  | number n => n.ReadsBack
  | array items => RegularItems items
  | object fields => Fields.Rising fields ∧ RegularFields fields
  | null | boolean _ | text _ => True
def RegularItems : List Json → Prop
  | [] => True
  | item :: rest => Regular item ∧ RegularItems rest
def RegularFields : List (String × Json) → Prop
  | [] => True
  | (_, value) :: rest => Regular value ∧ RegularFields rest
end

open Token (AllStand EndsNumber)

mutual
theorem allStand_tokens (j : Json) (h : j.Regular) {rest : List Token} (hrest : AllStand rest)
    (hends : EndsNumber (rest.flatMap Token.written)) : AllStand (j.tokens ++ rest) := by
  match j with
  | null | boolean _ | text _ => exact ⟨nofun, hrest⟩
  | number n =>
    refine ⟨?_, hrest⟩
    rintro _ ⟨⟩
    exact ⟨h, hends⟩
  | array items =>
    simp only [tokens, List.cons_append, List.append_assoc, List.nil_append]
    exact ⟨nofun, allStand_tokensOfItems items h ⟨nofun, hrest⟩ (by rintro _ ⟨⟩; decide)⟩
  | object fields =>
    simp only [tokens, List.cons_append, List.append_assoc, List.nil_append]
    exact ⟨nofun, allStand_tokensOfFields fields h.2 ⟨nofun, hrest⟩ (by rintro _ ⟨⟩; decide)⟩
theorem allStand_tokensOfItems (items : List Json) (h : RegularItems items) {rest : List Token}
    (hrest : AllStand rest) (hends : EndsNumber (rest.flatMap Token.written)) :
    AllStand (tokensOfItems items ++ rest) := by
  match items with
  | [] => exact hrest
  | [item] => exact allStand_tokens item h.1 hrest hends
  | item :: second :: others =>
    simp only [tokensOfItems, List.append_assoc, List.cons_append]
    have hothers := allStand_tokensOfItems (second :: others) h.2 hrest hends
    exact allStand_tokens item h.1 ⟨nofun, hothers⟩ (by rintro _ ⟨⟩; decide)
theorem allStand_tokensOfFields (fields : List (String × Json)) (h : RegularFields fields)
    {rest : List Token} (hrest : AllStand rest)
    (hends : EndsNumber (rest.flatMap Token.written)) :
    AllStand (tokensOfFields fields ++ rest) := by
  match fields with
  | [] => exact hrest
  | [(key, value)] => exact ⟨nofun, nofun, allStand_tokens value h.1 hrest hends⟩
  | (key, value) :: second :: others =>
    simp only [tokensOfFields, List.append_assoc, List.cons_append]
    have hothers := allStand_tokensOfFields (second :: others) h.2 hrest hends
    exact ⟨nofun, nofun, allStand_tokens value h.1 ⟨nofun, hothers⟩ (by rintro _ ⟨⟩; decide)⟩
end

theorem ofText?_compact {j : Json} (h : j.Regular) : Token.ofText? j.compact = some j.tokens := by
  have hstand : AllStand (j.tokens ++ []) := allStand_tokens j h trivial nofun
  rw [List.append_nil] at hstand
  simp only [Token.ofText?, toList_compact]
  exact Token.readAll?_written hstand (Token.length_le_flatMap_written hstand) []

-- ---------------------------------------------------------------------------
-- From the tokens to the value
-- ---------------------------------------------------------------------------

mutual
def nesting : Json → Nat
  | array items => nestingOfItems items + 1
  | object fields => nestingOfFields fields + 1
  | null | boolean _ | number _ | text _ => 0
def nestingOfItems : List Json → Nat
  | [] => 0
  | item :: rest => max (nesting item) (nestingOfItems rest)
def nestingOfFields : List (String × Json) → Nat
  | [] => 0
  | (_, value) :: rest => max (nesting value) (nestingOfFields rest)
end

theorem exists_tokens (j : Json) : ∃ t more, j.tokens = t :: more ∧ t ≠ .closeArray := by
  cases j with
  | _ => exact ⟨_, _, rfl, nofun⟩

namespace Reader

theorem step?_valueOrClose {opened : List Container} {t : Token} (h : t ≠ .closeArray) :
    step? ⟨opened, .valueOrClose⟩ t = step? ⟨opened, .value⟩ t := by
  cases t with
  | closeArray => exact absurd rfl h
  | _ => rfl

theorem foldlM_valueOrClose (opened : List Container) {items : List Json} (h : items ≠ [])
    (more : List Token) :
    (tokensOfItems items ++ more).foldlM step? ⟨opened, .valueOrClose⟩ =
      (tokensOfItems items ++ more).foldlM step? ⟨opened, .value⟩ := by
  obtain ⟨item, rest, rfl⟩ := List.exists_cons_of_ne_nil h
  obtain ⟨t, others, htokens, ht⟩ := exists_tokens item
  cases rest <;>
    simp only [tokensOfItems, htokens, List.cons_append, List.foldlM_cons, step?_valueOrClose ht]

theorem foldlM_keyOrClose (opened : List Container) {fields : List (String × Json)}
    (h : fields ≠ []) (more : List Token) :
    (tokensOfFields fields ++ more).foldlM step? ⟨.object [] "" :: opened, .keyOrClose⟩ =
      (tokensOfFields fields ++ more).foldlM step? ⟨opened, .key []⟩ := by
  obtain ⟨field, rest, rfl⟩ := List.exists_cons_of_ne_nil h
  cases rest <;> rfl

theorem foldlM_array (items : List Json) (opened : List Container) (more : List Token) :
    ((array items).tokens ++ more).foldlM step? ⟨opened, .value⟩ =
      if opened.length < depthLimit then
        (tokensOfItems items ++ .closeArray :: more).foldlM step?
          ⟨.array [] :: opened, .valueOrClose⟩
      else none := by
  rw [tokens, List.cons_append, List.append_assoc, List.foldlM_cons]
  change Option.bind (if opened.length < depthLimit then some _ else none) _ = _
  split <;> rfl

theorem foldlM_object (fields : List (String × Json)) (opened : List Container)
    (more : List Token) :
    ((object fields).tokens ++ more).foldlM step? ⟨opened, .value⟩ =
      if opened.length < depthLimit then
        (tokensOfFields fields ++ .closeObject :: more).foldlM step?
          ⟨.object [] "" :: opened, .keyOrClose⟩
      else none := by
  rw [tokens, List.cons_append, List.append_assoc, List.foldlM_cons]
  change Option.bind (if opened.length < depthLimit then some _ else none) _ = _
  split <;> rfl

mutual
/-- From where a value may come, its tokens finish it. -/
theorem foldlM_tokens (j : Json) (h : j.Regular) (opened : List Container)
    (hdepth : opened.length + j.nesting ≤ depthLimit) (more : List Token) :
    (j.tokens ++ more).foldlM step? ⟨opened, .value⟩ = more.foldlM step? (finish j opened) := by
  match j with
  | null | boolean _ | number _ | text _ => rfl
  | array items =>
    rw [nesting] at hdepth
    rw [foldlM_array, if_pos (by omega)]
    by_cases hitems : items = []
    · subst hitems
      rfl
    · rw [foldlM_valueOrClose _ hitems, foldlM_tokensOfItems items h hitems [] opened hdepth,
        List.append_nil]
      change more.foldlM step? (finish (array items.reverse.reverse) opened) = _
      rw [List.reverse_reverse]
  | object fields =>
    rw [nesting] at hdepth
    rw [foldlM_object, if_pos (by omega)]
    by_cases hfields : fields = []
    · subst hfields
      rfl
    · obtain ⟨key, hkey⟩ := foldlM_tokensOfFields fields h.2 hfields [] opened hdepth
        (.closeObject :: more)
      rw [foldlM_keyOrClose _ hfields, hkey]
      change more.foldlM step? (finish (object (Fields.ofList fields)) opened) = _
      rw [h.1.ofList_eq]
theorem foldlM_tokensOfItems (items : List Json) (h : RegularItems items) (hne : items ≠ [])
    (done : List Json) (opened : List Container)
    (hdepth : opened.length + (nestingOfItems items + 1) ≤ depthLimit) (more : List Token) :
    (tokensOfItems items ++ more).foldlM step? ⟨.array done :: opened, .value⟩ =
      more.foldlM step? ⟨.array (items.reverse ++ done) :: opened, .commaOrClose⟩ := by
  match items with
  | [item] =>
    rw [nestingOfItems] at hdepth
    exact foldlM_tokens item h.1 (.array done :: opened) (by rw [List.length_cons]; omega) more
  | item :: second :: others =>
    rw [nestingOfItems] at hdepth
    rw [tokensOfItems, List.append_assoc, List.reverse_cons, List.append_assoc]
    · refine (foldlM_tokens item h.1 (.array done :: opened) (by rw [List.length_cons]; omega)
        _).trans ?_
      exact foldlM_tokensOfItems (second :: others) h.2 nofun (item :: done) opened (by omega) more
    · exact nofun
theorem foldlM_tokensOfFields (fields : List (String × Json)) (h : RegularFields fields)
    (hne : fields ≠ []) (done : Object) (opened : List Container)
    (hdepth : opened.length + (nestingOfFields fields + 1) ≤ depthLimit) (more : List Token) :
    ∃ key, (tokensOfFields fields ++ more).foldlM step? ⟨opened, .key done⟩ =
      more.foldlM step? ⟨.object (Fields.insertAll done fields) key :: opened, .commaOrClose⟩ := by
  match fields with
  | [(key, value)] =>
    rw [nestingOfFields] at hdepth
    exact ⟨key, foldlM_tokens value h.1 (.object done key :: opened)
      (by rw [List.length_cons]; omega) more⟩
  | (key, value) :: second :: others =>
    rw [nestingOfFields] at hdepth
    obtain ⟨last, hothers⟩ := foldlM_tokensOfFields (second :: others) h.2 nofun
      (Fields.insert key value done) opened (by omega) more
    refine ⟨last, ?_⟩
    rw [tokensOfFields, List.cons_append, List.cons_append, List.append_assoc]
    · refine (foldlM_tokens value h.1 (.object done key :: opened)
        (by rw [List.length_cons]; omega) _).trans ?_
      exact hothers
    · exact nofun
end

mutual
/-- A value that opens a container too many is refused there, whatever follows it. -/
theorem foldlM_tokens_eq_none (j : Json) (h : j.Regular) (opened : List Container)
    (hopened : opened.length ≤ depthLimit) (hdepth : depthLimit < opened.length + j.nesting)
    (more : List Token) : (j.tokens ++ more).foldlM step? ⟨opened, .value⟩ = none := by
  match j with
  | null | boolean _ | number _ | text _ =>
    rw [nesting] at hdepth
    omega
  | array items =>
    rw [nesting] at hdepth
    rw [foldlM_array]
    split
    · rename_i hlt
      have hitems : items ≠ [] := by
        rintro rfl
        rw [nestingOfItems] at hdepth
        omega
      rw [foldlM_valueOrClose _ hitems]
      exact foldlM_tokensOfItems_eq_none items h [] opened hlt hdepth _
    · rfl
  | object fields =>
    rw [nesting] at hdepth
    rw [foldlM_object]
    split
    · rename_i hlt
      have hfields : fields ≠ [] := by
        rintro rfl
        rw [nestingOfFields] at hdepth
        omega
      rw [foldlM_keyOrClose _ hfields]
      exact foldlM_tokensOfFields_eq_none fields h.2 [] opened hlt hdepth _
    · rfl
theorem foldlM_tokensOfItems_eq_none (items : List Json) (h : RegularItems items)
    (done : List Json) (opened : List Container) (hopened : opened.length < depthLimit)
    (hdepth : depthLimit < opened.length + (nestingOfItems items + 1)) (more : List Token) :
    (tokensOfItems items ++ more).foldlM step? ⟨.array done :: opened, .value⟩ = none := by
  match items with
  | [] =>
    rw [nestingOfItems] at hdepth
    omega
  | [item] =>
    rw [nestingOfItems, nestingOfItems] at hdepth
    exact foldlM_tokens_eq_none item h.1 (.array done :: opened) hopened
      (by rw [List.length_cons]; omega) more
  | item :: second :: others =>
    rw [nestingOfItems] at hdepth
    rw [tokensOfItems, List.append_assoc]
    · -- the first of the items that is too deep stops the reader
      by_cases hitem : depthLimit < opened.length + 1 + item.nesting
      · exact foldlM_tokens_eq_none item h.1 (.array done :: opened) hopened hitem _
      · rw [foldlM_tokens item h.1 (.array done :: opened) (Nat.le_of_not_lt hitem)]
        exact foldlM_tokensOfItems_eq_none (second :: others) h.2 (item :: done) opened hopened
          (by omega) more
    · exact nofun
theorem foldlM_tokensOfFields_eq_none (fields : List (String × Json)) (h : RegularFields fields)
    (done : Object) (opened : List Container) (hopened : opened.length < depthLimit)
    (hdepth : depthLimit < opened.length + (nestingOfFields fields + 1)) (more : List Token) :
    (tokensOfFields fields ++ more).foldlM step? ⟨opened, .key done⟩ = none := by
  match fields with
  | [] =>
    rw [nestingOfFields] at hdepth
    omega
  | [(key, value)] =>
    rw [nestingOfFields, nestingOfFields] at hdepth
    exact foldlM_tokens_eq_none value h.1 (.object done key :: opened) hopened
      (by rw [List.length_cons]; omega) more
  | (key, value) :: second :: others =>
    rw [nestingOfFields] at hdepth
    rw [tokensOfFields, List.cons_append, List.cons_append, List.append_assoc]
    · by_cases hvalue : depthLimit < opened.length + 1 + value.nesting
      · exact foldlM_tokens_eq_none value h.1 (.object done key :: opened) hopened hvalue _
      · refine (foldlM_tokens value h.1 (.object done key :: opened) (Nat.le_of_not_lt hvalue)
          _).trans ?_
        exact foldlM_tokensOfFields_eq_none (second :: others) h.2 (Fields.insert key value done)
          opened hopened (by omega) more
    · exact nofun
end

end Reader

/-- A regular value is read back from its compact text, unless it is nested too deep. -/
theorem parse?_compact {j : Json} (h : j.Regular) :
    parse? j.compact = if j.nesting ≤ Reader.depthLimit then some j else none := by
  rw [parse?, ofText?_compact h, Option.bind_some, ofTokens?, Reader.start]
  split
  · rename_i hdepth
    have hrun := Reader.foldlM_tokens j h [] (by rwa [List.length_nil, Nat.zero_add]) []
    rw [List.append_nil] at hrun
    rw [hrun]
    rfl
  · rename_i hdepth
    have hrun := Reader.foldlM_tokens_eq_none j h [] (Nat.zero_le _)
      (by rw [List.length_nil]; omega) []
    rw [List.append_nil] at hrun
    rw [hrun]
    rfl

end Json

end FeatureFlow
