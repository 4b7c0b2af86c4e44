import FeatureFlow.Json.Print
import FeatureFlow.Json.Token
import Mathlib.Data.Option.Basic

/-!
# Tokens and their text

Every token but a number is read back from its text, whatever follows it (`first?_written`). A
number is read back where its text is (`Number.ReadsBack`), as that of every integer is, and where
nothing follows that would go on with it.
-/

namespace FeatureFlow.Json.Token

variable {cs rest tail : List Char} {c : Char}

-- ---------------------------------------------------------------------------
-- Quoted texts
-- ---------------------------------------------------------------------------

theorem codeUnit?_append {n : Nat} (h : codeUnit? cs = some (n, tail)) (rest : List Char) :
    codeUnit? (cs ++ rest) = some (n, tail ++ rest) := by
  match cs, h with
  | a :: b :: c :: d :: more, h =>
    simp only [List.cons_append, codeUnit?, Option.bind_eq_bind, Option.bind_eq_some_iff] at h ⊢
    obtain ⟨i, hi, j, hj, k, hk, l, hl, hresult⟩ := h
    obtain ⟨rfl, rfl⟩ := Prod.mk.inj (Option.some.inj hresult)
    exact ⟨i, hi, j, hj, k, hk, l, hl, rfl⟩

theorem lowSurrogate?_append {high : Nat} (h : lowSurrogate? high cs = some (c, tail))
    (rest : List Char) : lowSurrogate? high (cs ++ rest) = some (c, tail ++ rest) := by
  unfold lowSurrogate? at h
  split at h
  · obtain ⟨⟨low, left⟩, hunit, hlow⟩ := Option.bind_eq_some_iff.mp h
    simp only [List.cons_append, lowSurrogate?, codeUnit?_append hunit]
    change (if _ then _ else _) = _ at hlow ⊢
    split at hlow
    · rename_i hrange
      obtain ⟨rfl, rfl⟩ := Prod.mk.inj (Option.some.inj hlow)
      exact if_pos hrange
    · cases hlow
  · cases h

theorem escaped?_append (h : escaped? cs = some (c, tail)) (rest : List Char) :
    escaped? (cs ++ rest) = some (c, tail ++ rest) := by
  unfold escaped? at h
  split at h
  case h_9 more =>
    obtain ⟨⟨n, left⟩, hunit, hn⟩ := Option.bind_eq_some_iff.mp h
    simp only [List.cons_append, escaped?, codeUnit?_append hunit]
    change (if _ then _ else if _ then _ else _) = _ at hn ⊢
    split at hn
    · rename_i hhigh
      rw [if_pos hhigh]
      exact lowSurrogate?_append hn rest
    · rename_i hhigh
      rw [if_neg hhigh]
      split at hn
      · cases hn
      · rename_i hlow
        obtain ⟨rfl, rfl⟩ := Prod.mk.inj (Option.some.inj hn)
        exact if_neg hlow
  case h_10 => cases h
  all_goals
    obtain ⟨rfl, rfl⟩ := Prod.mk.inj (Option.some.inj h)
    rfl

theorem escape_control : ∀ n < 0x20, ∃ e ∈ (escape (Char.ofNat n)).tail?,
    escape (Char.ofNat n) = '\\' :: e ∧ escaped? e = some (Char.ofNat n, []) := by
  decide +kernel

theorem escaped?_escape_control (h : c.toNat < 0x20) (rest : List Char) :
    ∃ e, escape c = '\\' :: e ∧ escaped? (e ++ rest) = some (c, rest) := by
  obtain ⟨e, -, hescape, hstands⟩ := escape_control c.toNat h
  rw [Char.ofNat_toNat] at hescape hstands
  exact ⟨e, hescape, escaped?_append hstands rest⟩

theorem escape_cases (c : Char) (rest : List Char) :
    escape c = [c] ∧ c ≠ '"' ∧ c ≠ '\\' ∧ ¬c.toNat < 0x20 ∨
      ∃ e, escape c = '\\' :: e ∧ escaped? (e ++ rest) = some (c, rest) := by
  by_cases hcontrol : c.toNat < 0x20
  · exact .inr (escaped?_escape_control hcontrol rest)
  by_cases hquote : c = '"'
  · subst hquote
    exact .inr ⟨_, rfl, rfl⟩
  by_cases hbackslash : c = '\\'
  · subst hbackslash
    exact .inr ⟨_, rfl, rfl⟩
  refine .inl ⟨?_, hquote, hbackslash, hcontrol⟩
  have hne {d : Char} (hd : d.toNat < 0x20) : c ≠ d := fun h => hcontrol (h ▸ hd)
  rw [escape, if_neg hquote, if_neg hbackslash, if_neg (hne (by decide)), if_neg (hne (by decide)),
    if_neg (hne (by decide)), if_neg (hne (by decide)), if_neg (hne (by decide)), if_neg hcontrol]

theorem quoted?_escape (done : List Char) (c : Char) (rest : List Char) :
    quoted? done (escape c ++ rest) = quoted? (c :: done) rest := by
  rcases escape_cases c rest with ⟨hsame, hquote, hbackslash, hcontrol⟩ | ⟨e, hescape, hstands⟩
  · rw [hsame, List.singleton_append, quoted?, if_neg hquote, if_neg hbackslash, if_neg hcontrol]
  · rw [hescape, List.cons_append, quoted?, if_neg (by decide), if_pos rfl]
    split
    · rename_i d tail hd
      obtain ⟨rfl, rfl⟩ := Prod.mk.inj (Option.some.inj (hstands.symm.trans hd))
      rfl
    · rename_i hnone
      cases hstands.symm.trans hnone

theorem quoted?_escapes (done cs rest : List Char) :
    quoted? done (cs.flatMap escape ++ '"' :: rest) =
      some (String.ofList (done.reverse ++ cs), rest) := by
  induction cs generalizing done with
  | nil =>
    rw [List.flatMap_nil, List.nil_append, quoted?, if_pos rfl, List.append_nil]
  | cons c cs ih =>
    rw [List.flatMap_cons, List.append_assoc, quoted?_escape, ih, List.reverse_cons,
      List.append_assoc]
    rfl

-- ---------------------------------------------------------------------------
-- Numbers
-- ---------------------------------------------------------------------------

def EndsNumber (rest : List Char) : Prop :=
  ∀ c ∈ rest.head?, digit? c = none ∧ c ≠ '.' ∧ c ≠ 'e' ∧ c ≠ 'E'

theorem digits_append (h : EndsNumber rest) (cs : List Char) :
    digits (cs ++ rest) = ((digits cs).1, (digits cs).2 ++ rest) := by
  induction cs with
  | nil =>
    cases rest with
    | nil => rfl
    | cons c rest => simp [digits, (h c rfl).1]
  | cons c cs ih =>
    rw [List.cons_append, digits, digits]
    cases digit? c with
    | none => rfl
    | some n => simp [ih]

theorem someDigits_append (read : List Nat → α) {a : α} (h : EndsNumber rest)
    (hread : (match digits cs with
      | ([], _) => none
      | (ds, left) => some (read ds, left)) = some (a, tail)) :
    (match digits (cs ++ rest) with
      | ([], _) => none
      | (ds, left) => some (read ds, left)) = some (a, tail ++ rest) := by
  rw [digits_append h]
  revert hread
  rcases digits cs with ⟨_ | ⟨d, ds⟩, left⟩
  · exact nofun
  · intro hread
    obtain ⟨rfl, rfl⟩ := Prod.mk.inj (Option.some.inj hread)
    rfl

theorem fraction?_of_head? (h : ∀ c ∈ cs.head?, c ≠ '.') : fraction? cs = some (none, cs) := by
  unfold fraction?
  split
  · exact absurd rfl (h '.' rfl)
  · rfl

theorem fraction?_append {fraction : Option (List Nat)} (h : EndsNumber rest)
    (hfraction : fraction? cs = some (fraction, tail)) :
    fraction? (cs ++ rest) = some (fraction, tail ++ rest) := by
  by_cases hpoint : ∃ more, cs = '.' :: more
  · obtain ⟨more, rfl⟩ := hpoint
    exact someDigits_append some h hfraction
  · have hhead : ∀ c ∈ cs.head?, c ≠ '.' := by
      rintro _ hc rfl
      obtain ⟨more, rfl⟩ := List.head?_eq_some_iff.mp hc
      exact hpoint ⟨more, rfl⟩
    rw [fraction?_of_head? hhead] at hfraction
    obtain ⟨rfl, rfl⟩ := Prod.mk.inj (Option.some.inj hfraction)
    refine fraction?_of_head? ?_
    cases cs with
    | nil => exact fun c hc => (h c hc).2.1
    | cons c more => exact hhead

theorem exponent?_of_head? (h : ∀ c ∈ cs.head?, c ≠ 'e' ∧ c ≠ 'E') :
    exponent? cs = some (none, cs) := by
  unfold exponent?
  split
  · rfl
  · exact if_neg (by simp [h _ rfl])

def sign : List Char → Bool × List Char
  | '+' :: tail => (false, tail)
  | '-' :: tail => (true, tail)
  | tail => (false, tail)

theorem sign_append (h : cs ≠ []) (rest : List Char) :
    sign (cs ++ rest) = ((sign cs).1, (sign cs).2 ++ rest) := by
  obtain ⟨c, cs, rfl⟩ := List.exists_cons_of_ne_nil h
  rw [List.cons_append]
  by_cases hplus : c = '+'
  · subst hplus
    rfl
  by_cases hminus : c = '-'
  · subst hminus
    rfl
  have hnone (tail : List Char) : sign (c :: tail) = (false, c :: tail) := by
    unfold sign
    split <;> simp_all
  rw [hnone, hnone, List.cons_append]

theorem exponent?_of_mark (h : c = 'e' ∨ c = 'E') (cs : List Char) :
    exponent? (c :: cs) =
      match digits (sign cs).2 with
      | ([], _) => none
      | (ds, tail) =>
        some (some (if (sign cs).1 then -(value ds : Int) else value ds), tail) := by
  unfold exponent?
  exact if_pos h

theorem exponent?_append {exponent : Option Int} (h : EndsNumber rest)
    (hexponent : exponent? cs = some (exponent, tail)) :
    exponent? (cs ++ rest) = some (exponent, tail ++ rest) := by
  cases cs with
  | nil =>
    obtain ⟨rfl, rfl⟩ := Prod.mk.inj (Option.some.inj hexponent)
    exact exponent?_of_head? fun c hc => (h c hc).2.2
  | cons c more =>
    rw [List.cons_append]
    by_cases hmark : c = 'e' ∨ c = 'E'
    · have hmore : more ≠ [] := by
        rintro rfl
        rw [exponent?_of_mark hmark] at hexponent
        cases hexponent
      rw [exponent?_of_mark hmark] at hexponent ⊢
      rw [sign_append hmore]
      exact someDigits_append _ h hexponent
    · have hhead (tail : List Char) : ∀ d ∈ (c :: tail).head?, d ≠ 'e' ∧ d ≠ 'E' := by
        rintro _ ⟨⟩
        exact not_or.mp hmark
      rw [exponent?_of_head? (hhead more)] at hexponent
      obtain ⟨rfl, rfl⟩ := Prod.mk.inj (Option.some.inj hexponent)
      exact exponent?_of_head? (hhead _)

def unsigned? (negative : Bool) (cs : List Char) : Option (Number × List Char) := do
  let (whole, cs) := digits cs
  guard (!whole.isEmpty && (whole.head? != some 0 || whole.length == 1))
  let (fraction, cs) ← fraction? cs
  let (exponent, cs) ← exponent? cs
  let n ← Number.Literal.value? { negative, whole, fraction, exponent }
  return (n, cs)

theorem number?_of_head? (h : ∀ c ∈ cs.head?, c ≠ '-') : number? cs = unsigned? false cs := by
  unfold number?
  split
  rename_i hsign
  split at hsign
  · exact absurd rfl (h '-' rfl)
  · obtain ⟨rfl, rfl⟩ := Prod.mk.inj hsign
    rfl

theorem unsigned?_append {n : Number} {negative : Bool} (h : EndsNumber rest)
    (hnumber : unsigned? negative cs = some (n, tail)) :
    unsigned? negative (cs ++ rest) = some (n, tail ++ rest) := by
  simp only [unsigned?, Option.bind_eq_bind, Option.bind_eq_some_iff, Prod.exists] at hnumber ⊢
  rw [digits_append h]
  obtain ⟨u, hguard, fraction, left, hfraction, exponent, left', hexponent, m, hvalue, hresult⟩ :=
    hnumber
  obtain ⟨rfl, rfl⟩ := Prod.mk.inj (Option.some.inj hresult)
  exact ⟨u, hguard, _, _, fraction?_append h hfraction, _, _, exponent?_append h hexponent, _,
    hvalue, rfl⟩

theorem number?_append {n : Number} (h : EndsNumber rest) (hnumber : number? cs = some (n, tail)) :
    number? (cs ++ rest) = some (n, tail ++ rest) := by
  by_cases hminus : ∃ more, cs = '-' :: more
  · obtain ⟨more, rfl⟩ := hminus
    exact unsigned?_append h hnumber
  · cases cs with
    | nil => cases hnumber
    | cons c more =>
      have hhead (tail : List Char) : ∀ d ∈ (c :: tail).head?, d ≠ '-' := by
        rintro _ ⟨⟩ rfl
        exact hminus ⟨more, rfl⟩
      rw [number?_of_head? (hhead more)] at hnumber
      rw [List.cons_append, number?_of_head? (hhead _)]
      exact unsigned?_append h hnumber

-- ---------------------------------------------------------------------------
-- Integers
-- ---------------------------------------------------------------------------

theorem digit?_digitChar : ∀ n < 10, digit? n.digitChar = some n := by
  decide

theorem digits_append_digits {ds : List Nat} (h : digits cs = (ds, [])) (rest : List Char) :
    digits (cs ++ rest) = (ds ++ (digits rest).1, (digits rest).2) := by
  induction cs generalizing ds with
  | nil =>
    obtain ⟨rfl, -⟩ := Prod.mk.inj h
    rfl
  | cons c cs ih =>
    rw [digits] at h
    rw [List.cons_append, digits]
    cases hdigit : digit? c with
    | none => simp [hdigit] at h
    | some n =>
      simp only [hdigit, Prod.mk.injEq] at h ⊢
      obtain ⟨rfl, hleft⟩ := h
      rw [ih (Prod.ext rfl hleft)]
      exact ⟨rfl, rfl⟩

theorem value_append (ds : List Nat) (d : Nat) : value (ds ++ [d]) = value ds * 10 + d := by
  simp [value]

theorem digits_toDigits (n : Nat) :
    ∃ ds, digits (Nat.toDigits 10 n) = (ds, []) ∧ value ds = n ∧
      (ds = [0] ∨ ∃ d rest, ds = d :: rest ∧ d ≠ 0) := by
  induction n using Nat.strongRecOn with
  | ind n ih =>
    rw [Nat.toDigits_eq_if (by decide)]
    split
    · rename_i hlt
      refine ⟨[n], by simp [digits, digit?_digitChar n hlt], by simp [value], ?_⟩
      by_cases hzero : n = 0
      · exact .inl (by rw [hzero])
      · exact .inr ⟨n, [], rfl, hzero⟩
    · rename_i hge
      obtain ⟨ds, hdigits, hvalue, hlead⟩ := ih (n / 10) (by omega)
      refine ⟨ds ++ [n % 10], ?_, ?_, ?_⟩
      · rw [digits_append_digits hdigits]
        simp [digits, digit?_digitChar (n % 10) (by omega)]
      · rw [value_append, hvalue]
        omega
      · rcases hlead with rfl | ⟨d, rest, rfl, hd⟩
        · change 0 = n / 10 at hvalue
          omega
        · exact .inr ⟨d, rest ++ [n % 10], rfl, hd⟩

end FeatureFlow.Json.Token

namespace FeatureFlow.Number

theorem le_foldl (ds : List Nat) (n : Nat) : n ≤ ds.foldl (fun n d => n * 10 + d) n := by
  induction ds generalizing n with
  | nil => exact Nat.le_refl n
  | cons d ds ih =>
    have hrest := ih (n * 10 + d)
    rw [List.foldl_cons]
    omega

theorem gather_eq {ds : List Nat} {n : Nat}
    (h : ds.foldl (fun n d => n * 10 + d) n ≤ significandLimit) :
    gather n ds = (ds.foldl (fun n d => n * 10 + d) n, []) := by
  induction ds generalizing n with
  | nil => rfl
  | cons d ds ih =>
    have hle := le_foldl ds (n * 10 + d)
    rw [List.foldl_cons] at h ⊢
    rw [gather, if_neg (by omega), ih h]

def ReadsBack (n : Number) : Prop :=
  Json.Token.number? n.text.toList = some (n, [])

theorem unsigned?_toDigits {negative : Bool} {m : Nat} {n : Number} (hm : m ≤ significandLimit)
    (h : ∀ ds, gather 0 ds = (m, []) → Literal.value?
      { negative := negative, whole := ds, fraction := none, exponent := none } = some n) :
    Json.Token.unsigned? negative (Nat.toDigits 10 m) = some (n, []) := by
  obtain ⟨ds, hdigits, hvalue, hlead⟩ := Json.Token.digits_toDigits m
  have hwhole : (!ds.isEmpty && (ds.head? != some 0 || ds.length == 1)) = true := by
    rcases hlead with rfl | ⟨d, rest, rfl, hd⟩
    · rfl
    · simp [hd]
  have hguard : (guard (!ds.isEmpty && (ds.head? != some 0 || ds.length == 1)) : Option Unit) =
      some () := if_pos hwhole
  change ds.foldl (fun n d => n * 10 + d) 0 = m at hvalue
  have hgather : gather 0 ds = (m, []) := by rw [gather_eq (by rwa [hvalue]), hvalue]
  rw [Json.Token.unsigned?, hdigits]
  dsimp only
  rw [hguard]
  change (Literal.value? { negative, whole := ds, fraction := none, exponent := none }).bind
    (fun n => some (n, [])) = _
  rw [h ds hgather]
  rfl

theorem readsBack_integer {value : Int} (hleast : -(Nat.pow 2 63 : Nat) ≤ value)
    (hmost : value < (Nat.pow 2 64 : Nat)) : ReadsBack (.integer value) := by
  have hwidth : Nat.pow 2 63 = 2 ^ 63 ∧ Nat.pow 2 64 = 2 ^ 64 := ⟨rfl, rfl⟩
  have hlimit : significandLimit = 2 ^ 64 - 1 := rfl
  have htext (m : Nat) : m.repr.toList = Nat.toDigits 10 m := by
    rw [Nat.repr_eq_ofList_toDigits, String.toList_ofList]
  rw [ReadsBack, text, Int.toString_eq_repr]
  cases value with
  | ofNat m =>
    have hm : m < 2 ^ 64 := by
      rw [Int.ofNat_eq_natCast] at hmost
      omega
    change Json.Token.number? m.repr.toList = _
    rw [htext, Json.Token.number?_of_head?]
    · refine unsigned?_toDigits (by omega) fun ds hds => ?_
      simp [Literal.value?, hds]
    · rintro c hc rfl
      have hdigit := Nat.isDigit_of_mem_toDigits (by decide) (by decide) (List.mem_of_head? hc)
      exact absurd hdigit (by decide)
  | negSucc m =>
    have hm : m + 1 ≤ 2 ^ 63 := by omega
    change Json.Token.number? ("-" ++ (m + 1).repr).toList = _
    rw [String.toList_append, htext]
    change Json.Token.unsigned? true (Nat.toDigits 10 (m + 1)) = _
    refine unsigned?_toDigits (by omega) fun ds hds => ?_
    simp only [Literal.value?, hds]
    rw [if_neg (by decide), if_pos ⟨Nat.succ_pos m, hm⟩]
    exact congrArg (some ∘ integer) (Int.negSucc_eq m).symm

end FeatureFlow.Number

namespace FeatureFlow.Json.Token

variable {cs rest : List Char} {c : Char}

-- ---------------------------------------------------------------------------
-- Any token
-- ---------------------------------------------------------------------------

def written : Token → List Char
  | openObject => ['\x7b']
  | closeObject => ['\x7d']
  | openArray => ['[']
  | closeArray => [']']
  | colon => [':']
  | comma => [',']
  | null => ['n', 'u', 'l', 'l']
  | boolean true => ['t', 'r', 'u', 'e']
  | boolean false => ['f', 'a', 'l', 's', 'e']
  | number n => n.text.toList
  | text s => (quote s).toList

/-- Where the token is a number, it is read back and what follows does not go on with it. -/
def Stands (t : Token) (rest : List Char) : Prop :=
  ∀ n, t = number n → n.ReadsBack ∧ EndsNumber rest

theorem head_of_number? (h : number? (c :: cs) = some r) : c = '-' ∨ digit? c ≠ none := by
  refine or_iff_not_imp_left.mpr fun hminus hdigit => ?_
  rw [number?_of_head? (by rintro _ ⟨⟩; exact hminus)] at h
  have hdigits : digits (c :: cs) = ([], c :: cs) := by rw [digits, hdigit]
  rw [unsigned?, hdigits] at h
  cases h

theorem first?_number {n : Number} (h : number? (c :: cs) = some (n, rest)) :
    first? (c :: cs) = some (number n, rest) := by
  have hne {d : Char} (hminus : d ≠ '-') (hdigit : digit? d = none) : c ≠ d := by
    rintro rfl
    exact (head_of_number? h).elim hminus (· hdigit)
  rw [first?]
  repeat rw [if_neg (hne (by decide) (by decide))]
  rw [h]
  rfl

theorem first?_written {t : Token} (h : t.Stands rest) :
    first? (t.written ++ rest) = some (t, rest) := by
  cases t with
  | null => simp [written, first?, keyword?]
  | boolean value => cases value <;> simp [written, first?, keyword?]
  | number n =>
    obtain ⟨hreads, hends⟩ := h n rfl
    have hnumber := number?_append hends hreads
    rw [written]
    cases htext : n.text.toList with
    | nil =>
      rw [Number.ReadsBack, htext] at hreads
      cases hreads
    | cons c cs =>
      rw [htext] at hnumber
      exact first?_number hnumber
  | text s =>
    have hquoted := quoted?_escapes [] s.toList rest
    simp [written, quote, first?, hquoted]
  | _ => rfl

end FeatureFlow.Json.Token
