import FeatureFlow.Feature.Construction
import FeatureFlow.Proofs.Cutting
import Mathlib.Data.List.Forall2

/-!
# Texts that stay

A text can only become another text where it has a token that a payload or a data object
may fill (`Expression.Fillable`). Any other text stays, or becomes a reference to a data
object, whatever the payload and the data objects are (`yields_resolveText`).
-/

namespace FeatureFlow

-- ---------------------------------------------------------------------------
-- What programs answer
-- ---------------------------------------------------------------------------

namespace Building

def Yields (Q : α → Prop) (program : Building α) : Prop :=
  ∀ a, Q (program.run a).1

theorem Yields.pure (h : Q v) : Yields Q (Pure.pure v) :=
  fun _ => h

theorem Yields.any (program : Building α) : Yields (fun _ => True) program :=
  fun _ => trivial

theorem Yields.bind {x : Building α} {f : α → Building β} (hx : Yields P x)
    (hf : ∀ v, P v → Yields Q (f v)) : Yields Q (x >>= f) :=
  fun a => hf _ (hx a) _

theorem Yields.map {x : Building α} {f : α → β} (hx : Yields P x) (hf : ∀ v, P v → Q (f v)) :
    Yields Q (f <$> x) :=
  fun a => hf _ (hx a)

theorem Yields.mapM {R : α → β → Prop} {f : α → Building β} {items : List α}
    (h : ∀ item ∈ items, Yields (R item) (f item)) :
    Yields (List.Forall₂ R items) (items.mapM f) := by
  induction items with
  | nil =>
    rw [List.mapM_nil]
    exact .pure .nil
  | cons item rest ih =>
    rw [List.mapM_cons]
    refine .bind (h item (by simp)) fun first hfirst => ?_
    refine .bind (ih fun other hother => h other (List.mem_cons_of_mem _ hother)) ?_
    exact fun later hlater => .pure (.cons hfirst hlater)

end Building

namespace Expression

open Building (Yields)

-- ---------------------------------------------------------------------------
-- Tokens
-- ---------------------------------------------------------------------------

def tokens (cs : List Char) : List (List Char) :=
  match _h : nextToken? cs with
  | none => []
  | some (_, body, after) => body :: tokens after
termination_by cs.length
decreasing_by exact nextToken?_length _h

/-- The text is one token that addresses the payload, or has a token with a field. Only
such a text can be filled in by a payload or a data object. -/
inductive Fillable (text : String) : Prop
  | payload (hbody : wholeToken? text.toList = some body) (h : parts body = [payloadName])
  | payloadField (hbody : wholeToken? text.toList = some body)
      (h : parts body = [payloadName, field])
  | field (hbody : body ∈ tokens text.toList) (h : parts body = [head, field]) (hhead : head ≠ "")
      (hfield : field ≠ "")

theorem not_fillable_of_not_mem (h : '\x7b' ∉ text.toList) : ¬ Fillable text := by
  have hwhole : wholeToken? text.toList = none := by
    have hafter : Text.after? ['\x7b'] text.toList = none := by
      refine Option.eq_none_iff_forall_ne_some.mpr fun rest hrest => h ?_
      simp [Text.after?_eq_some hrest]
    simp [wholeToken?, hafter]
  have htokens : tokens text.toList = [] := by
    have hnext : nextToken? text.toList = none := by
      simp [nextToken?, Text.cut?_of_not_mem h]
    rw [tokens]
    split <;> simp_all
  rintro (⟨hbody, -⟩ | ⟨hbody, -⟩ | ⟨hbody, -, -, -⟩)
  · cases hwhole.symm.trans hbody
  · cases hwhole.symm.trans hbody
  · simp [htokens] at hbody

-- ---------------------------------------------------------------------------
-- Resolving
-- ---------------------------------------------------------------------------

variable {payload : Property} {source : Source Building} {text : String}

theorem yields_replaceTokens {fill : List Char → Building (Option String)} {cs : List Char}
    (h : ∀ body ∈ tokens cs, Yields (· = none) (fill body)) :
    Yields (·.1 = false) (replaceTokens fill cs) := by
  induction cs using tokens.induct with
  | case1 cs hnone =>
    rw [replaceTokens]
    split
    · exact .pure rfl
    · simp_all
  | case2 cs before body after hsome ih =>
    rw [replaceTokens]
    split
    · exact .pure rfl
    · rename_i found
      obtain ⟨rfl, rfl, rfl⟩ : before = _ ∧ body = _ ∧ after = _ := by
        simpa [hsome] using found
      have htokens : tokens cs = body :: tokens after := by
        rw [tokens]
        split <;> simp_all
      rw [htokens] at h
      obtain ⟨hbody, hafter⟩ := List.forall_mem_cons.mp h
      refine .bind hbody fun filled hfilled => .bind (ih hafter) fun tail htail => ?_
      subst hfilled
      exact .pure htail

/-- Nothing, or a value that is no text, such as a reference to a data object. -/
def Untold (result : Option Property) : Prop :=
  ∀ p, result = some p → p.text? = none

theorem yields_wholeValue (h : ¬ Fillable text) (hbody : wholeToken? text.toList = some body) :
    Yields Untold (wholeValue payload source body) := by
  unfold wholeValue
  split
  · rename_i key hkey
    split
    · rename_i hpayload
      exact absurd (.payload hbody (hpayload ▸ hkey)) h
    · split
      · exact .pure nofun
      · refine .map (.any _) fun found _ p hp => ?_
        obtain ⟨live, -, rfl⟩ := Option.map_eq_some_iff.mp hp
        rfl
  · rename_i head field hparts
    split
    · rename_i hpayload
      exact absurd (.payloadField hbody (hpayload ▸ hparts)) h
    · exact .pure nofun
  · exact .pure nofun

theorem yields_fieldText (h : ¬ Fillable text) (hbody : body ∈ tokens text.toList) :
    Yields (· = none) (fieldText payload source body) := by
  unfold fieldText
  split
  · rename_i head field hparts
    split
    · exact .pure rfl
    · rename_i hnames
      obtain ⟨hhead, hfield⟩ := not_or.mp hnames
      exact absurd (.field hbody hparts hhead hfield) h
  · exact .pure rfl

theorem yields_resolveRest (h : ¬ Fillable text) (whole : Option Property) :
    Untold whole → Yields Untold (match whole with
      | some value => pure (some value)
      | none => do
        let (changed, out) ← replaceTokens (fieldText payload source) text.toList
        return if changed then some (.text (String.ofList out)) else none) := by
  intro hwhole
  cases whole with
  | some value => exact .pure hwhole
  | none =>
    refine .bind (yields_replaceTokens fun body hbody => yields_fieldText h hbody) ?_
    rintro ⟨changed, out⟩ hchanged
    obtain rfl : changed = false := hchanged
    exact .pure hwhole

theorem yields_resolveText (h : ¬ Fillable text) :
    Yields Untold (resolveText payload source text) := by
  have hnone : Untold none := nofun
  simp only [resolveText]
  split
  · rename_i body hbody
    exact .bind (yields_wholeValue h hbody) (yields_resolveRest h)
  · exact .bind (.pure hnone) (yields_resolveRest h)

-- ---------------------------------------------------------------------------
-- What a text is read as
-- ---------------------------------------------------------------------------

/-- What a text may be read as after resolving: as it is, or as the text that it becomes with
some data objects. -/
inductive Reads (payload : Property) (source : Source Building) (text : String) : String → Prop
  | same : Reads payload source text text
  | filled (a : Inventory) (reading : String)
      (h : ((resolveText payload source text).run a).1 = some (.text reading)) :
      Reads payload source text reading

theorem Reads.eq_of_not_fillable (h : ¬ Fillable text) {reading : String}
    (hreads : Reads payload source text reading) : reading = text := by
  cases hreads with
  | same => rfl
  | filled a reading hfilled => cases yields_resolveText h a _ hfilled

/-- A value that reads as a text that was resolved; what is no text reads as it was. -/
def Renders (payload : Property) (source : Source Building) (text : String) (p : Property) : Prop :=
  Reads payload source text (p.text?.getD text)

theorem yields_resolveProperty (payload : Property) (source : Source Building) (text : String) :
    Yields (Renders payload source text) (resolveProperty payload source (.text text)) := by
  intro a
  change Renders payload source text (((resolveText payload source text).run a).1.getD (.text text))
  generalize hresult : ((resolveText payload source text).run a).1 = result
  cases result with
  | none => exact .same
  | some p =>
    cases p with
    | text reading => exact .filled a reading hresult
    | _ => exact .same

def Rendered (payload : Property) (source : Source Building) (text : String)
    (field out : String × Property) : Prop :=
  out.1 = field.1 ∧ (field.2 = .text text → Renders payload source text out.2)

theorem exists_renders {fields outs : List (String × Property)}
    (h : List.Forall₂ (Rendered payload source text) fields outs)
    (hfield : Fields.get? key fields = some (.text text)) :
    ∃ value, Fields.get? key outs = some value ∧ Renders payload source text value := by
  induction h with
  | nil => cases hfield
  -- resolving keeps the names, so the first field of the name stays the first
  | @cons field out rest later hout _ ih =>
    by_cases hkey : field.1 = key
    · have hvalue : field.2 = .text text := by simpa [Fields.get?, hkey] using hfield
      exact ⟨out.2, by simp [Fields.get?, hout.1, hkey], hout.2 hvalue⟩
    · obtain ⟨value, hget, hrenders⟩ := ih (by simpa [Fields.get?, hkey] using hfield)
      exact ⟨value, by simpa [Fields.get?, hout.1, hkey] using hget, hrenders⟩

theorem yields_resolve {fields : List (String × Property)}
    (hfield : Fields.get? key fields = some (.text text)) :
    Yields (fun p => ∃ value, p.get? key = some value ∧ Renders payload source text value)
      (resolve payload source (.map fields)) := by
  refine .map (.mapM (R := Rendered payload source text) ?_)
    fun outs houts => exists_renders houts hfield
  rintro ⟨name, value⟩ -
  by_cases htext : value = .text text
  · subst htext
    refine .map (yields_resolveProperty payload source text) fun _ hrenders => ?_
    exact ⟨rfl, fun _ => hrenders⟩
  · exact .map (.any _) fun _ _ => ⟨rfl, fun hother => absurd hother htext⟩

end Expression

end FeatureFlow
