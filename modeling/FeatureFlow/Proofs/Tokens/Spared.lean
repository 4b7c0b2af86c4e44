import FeatureFlow.Proofs.Tokens.Outcomes
import Mathlib.Data.Finset.Defs

/-!
# Tokens that stay

A token that asks the source for a key stays in the text if the key has no answer
(`Expression.spares_of_found`).
-/

namespace FeatureFlow

namespace Expression

variable {payload value : Property} {answer : Option LiveObject} {body : List Char}
  {text : String}

/-- What becomes of a text, where every token of these keys stays as it is. -/
def Spares (payload : Property) (keys : Finset String) (text : String)
    (outcome : Option Property) : Prop :=
  ∃ (c : Cut) (found : List (Option LiveObject)) (words : List (Option String)),
    c.Proper ∧ c.chars = text.toList ∧ Outcome payload c found outcome ∧
      Words payload c found words ∧
      ∀ token ∈ c.bodies.zip words, ∀ key ∈ keys, key ≠ payloadName →
        (parts token.1).head? = some key →
          token.2 = none ∧ ∀ value, ¬ IsWhole payload c found value

def Withheld (keys : Finset String) (question : Option String) (answer : Option LiveObject) :
    Prop :=
  ∀ key ∈ keys, question = some key → answer = none

def Answered (alone : Bool) (answer : Option LiveObject) (body : List Char) : Prop :=
  ∃ head, (parts body).head? = some head ∧
    (head = payloadName ∨ key? alone body = some head ∧ answer.isSome)

theorem Whole.answered (h : Whole payload answer body value) : Answered true answer body := by
  cases h with
  | payload => exact ⟨payloadName, by simp [parts_key not_mem_payloadName], .inl rfl⟩
  | field hfield hvalue =>
    exact ⟨payloadName, by simp [parts_field not_mem_payloadName hfield], .inl rfl⟩
  | @object key _ hkey hdot hname hlive =>
    have hasked : key? true key.toList = some key := by simp [key?, parts_key hdot, hkey, hname]
    exact ⟨key, by simp [parts_key hdot], .inr ⟨hasked, by simp [hlive]⟩⟩

theorem Filled.answered (h : Filled payload answer body text) (alone : Bool) :
    Answered alone answer body := by
  cases h with
  | payload hfield hdot hvalue =>
    exact ⟨payloadName, by simp [parts_field not_mem_payloadName hdot], .inl rfl⟩
  | @object head field _ _ hhead hheadDot hname hfield hdot hlive htext =>
    have hasked : key? alone (head.toList ++ '.' :: field.toList) = some head := by
      simp [key?, parts_field hheadDot hdot, hhead, hfield, hname]
    exact ⟨head, by simp [parts_field hheadDot hdot], .inr ⟨hasked, by simp [hlive]⟩⟩

theorem spares_of_found {keys : Finset String} {found : List (Option LiveObject)}
    (hfound : List.Forall₂ (Withheld keys) (Cut.ofChars text.toList).questions found) :
    Spares payload keys text ((Cut.ofChars text.toList).result payload found) := by
  generalize hcut : Cut.ofChars text.toList = c at hfound
  have hlength : found.length = c.tokens.length := by
    simpa [Cut.questions, Cut.bodies] using hfound.length_eq.symm
  refine ⟨c, found, _, hcut ▸ Cut.proper_ofChars _, hcut ▸ Cut.chars_ofChars _,
    (outcome_iff hlength _).mpr rfl, words_iff.mpr rfl, ?_⟩
  rintro ⟨body, word⟩ htoken key hkey hname hhead
  obtain ⟨i, htoken⟩ := List.mem_iff_getElem?.mp htoken
  obtain ⟨hbody, hword⟩ := List.getElem?_zip_eq_some.mp htoken
  obtain ⟨other, answer, hother, hanswer, rfl⟩ := List.getElem?_zipWith_eq_some.mp hword
  obtain rfl : body = other := Option.some.inj (hbody.symm.trans hother)
  have hwithheld : key? c.alone?.isSome body = some key → answer = none := by
    refine (List.forall₂_iff_zip.mp hfound).2 (List.mem_iff_getElem?.mpr ⟨i, ?_⟩) key hkey
    simp [Cut.questions, List.getElem?_zip_eq_some, hbody, hanswer]
  have hunanswered : ¬ Answered c.alone?.isSome answer body := by
    rintro ⟨head, hparts, hsource⟩
    obtain rfl := Option.some.inj (hparts.symm.trans hhead)
    obtain ⟨hasked, hsome⟩ := hsource.resolve_left hname
    simp [hwithheld hasked] at hsome
  refine ⟨Option.eq_none_iff_forall_ne_some.mpr fun text h => ?_, ?_⟩
  · exact hunanswered ((fieldOf_eq_some.mp h).answered _)
  · rintro value ⟨other, answer', halone, rfl, hwhole⟩
    -- the text is this token alone
    have hbodies : c.bodies = [other] := by
      rw [(Cut.alone?_eq_some.mp halone).1]
      rfl
    rw [hbodies] at hbody
    obtain ⟨rfl, rfl⟩ : other = body ∧ answer' = answer := by
      cases i with
      | zero => exact ⟨Option.some.inj hbody, Option.some.inj hanswer⟩
      | succ i => cases hanswer
    exact hunanswered (by simpa [halone] using hwhole.answered)

end Expression

end FeatureFlow
