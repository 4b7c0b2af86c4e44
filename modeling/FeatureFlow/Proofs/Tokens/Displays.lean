import FeatureFlow.Proofs.Building
import FeatureFlow.Proofs.Manifest.Written
import FeatureFlow.Proofs.Tokens.Answers
import FeatureFlow.Registry.Standard

/-!
# Fields of a payload and of a data object

A payload shows its fields by the display text of a property, and a data object shows the fields
of its JSON value. For one value these are the same texts (`shown?_eq_display`), so that a
token may name the field in either of them (`resolve_field_alike`).
-/

namespace FeatureFlow

-- ---------------------------------------------------------------------------
-- Two renderings of a field
-- ---------------------------------------------------------------------------

theorem Property.get?_ofFields (key : String) (fields : Json.Object) :
    Fields.get? key (ofFields fields) = (Fields.get? key fields).map ofJson := by
  induction fields with
  | nil => rfl
  | cons field rest ih =>
    by_cases hkey : field.1 = key
    · simp [ofFields, Fields.get?, hkey]
    · simpa [ofFields, Fields.get?, hkey] using ih

theorem Property.get?_ofJson (key : String) (fields : Json.Object) :
    (ofJson (.object fields)).get? key = (Fields.get? key fields).map ofJson :=
  get?_ofFields key fields

theorem DataObject.shown?_eq_display (fields : Json.Object) (field : String) :
    shown? (.object fields) field =
      (Fields.get? field fields).map fun value => (Property.ofJson value).display := by
  rw [shown?, Json.field?]
  cases Fields.get? field fields with
  | none => rfl
  | some value =>
    cases value with
    | null => rfl
    | boolean value => cases value <;> rfl
    | number value => rfl
    | text value => rfl
    | array items => exact congrArg (some ·.compact) (Property.toJson_ofJson _).symm
    | object fields => exact congrArg (some ·.compact) (Property.toJson_ofJson _).symm

/-- From every state of a kind the source leads to states of this kind. It answers the key with
a data object of the value and stays in the state where it is then. -/
structure Source.Offers (source : Source (StateM σ)) (Holds : σ → Prop) (key : String)
    (value : Json) : Prop where
  keeps : ∀ other s, Holds s → Holds ((source other).run s).2
  answer : ∀ s, Holds s →
    ∃ live : LiveObject, (source key).run s = (some live, s) ∧
      ∃ name, live.object = .ofValue name value

theorem Scope.offers_dataObject (s : Scope) (key name : String) (value : Json) :
    Source.Offers s.dataObject (fun a => a.objects.get? key = some (.ofValue name value)) key
      value where
  keeps other a h := (s.grows_dataObject other a).get? h
  answer _ h := ⟨s.live key (.ofValue name value), s.run_dataObject_of_get? h, name, rfl⟩

namespace Expression

-- ---------------------------------------------------------------------------
-- A token inside a text
-- ---------------------------------------------------------------------------

/-- Every opening brace has a closing one behind it. -/
def Closed (cs : List Char) : Prop :=
  ∀ first last, cs = first ++ '\x7b' :: last → '\x7d' ∈ last

def replaced [Monad m] (payload : Property) (source : Source m) (text : String) : m String :=
  (fun (_, out) => String.ofList out) <$> replaceTokens (fieldText payload source) text.toList

variable {cs before body later front back : List Char}

theorem Closed.behind (h : Closed (before ++ '\x7b' :: body ++ '\x7d' :: later)) :
    Closed later := by
  rintro first last rfl
  exact h (before ++ '\x7b' :: body ++ '\x7d' :: first) last (by simp)

theorem closed_append (cs rest : List Char) (h : '\x7b' ∉ rest) :
    Closed (cs ++ '\x7d' :: rest) := by
  intro first last heq
  rcases List.append_eq_append_iff.mp heq with ⟨more, -, hrest⟩ | ⟨more, -, hlast⟩
  · -- the opening brace would be behind
    cases more with
    | nil => exact absurd (List.cons.inj hrest).1 (by decide)
    | cons c more =>
      obtain ⟨-, rfl⟩ := List.cons.inj hrest
      simp at h
  · cases more with
    | nil => exact absurd (List.cons.inj hlast).1 (by decide)
    | cons c more =>
      obtain ⟨-, rfl⟩ := List.cons.inj hlast
      simp

theorem Closed.not_mem_of_nextToken? (h : Closed cs) (hnone : nextToken? cs = none) :
    '\x7b' ∉ cs := by
  intro hmem
  obtain ⟨first, last, hcs⟩ := List.append_of_mem hmem
  exact nextToken?_eq_none.mp hnone first last hcs (h first last hcs)

section

variable [Monad m] [LawfulMonad m] (fill : List Char → m (Option String))

omit [LawfulMonad m] in
theorem replaceTokens_of_none (h : nextToken? cs = none) :
    replaceTokens fill cs = pure (false, cs) := by
  rw [replaceTokens]
  split <;> simp_all

omit [LawfulMonad m] in
theorem replaceTokens_of_some (h : nextToken? cs = some (before, body, later)) :
    replaceTokens fill cs = (do
      let filled ← fill body
      let (changed, tail) ← replaceTokens fill later
      match filled with
      | some text => return (true, before ++ text.toList ++ tail)
      | none => return (changed, before ++ '\x7b' :: body ++ '\x7d' :: tail)) := by
  rw [replaceTokens]
  split
  · simp_all
  · rename_i found
    obtain ⟨rfl, rfl, rfl⟩ : before = _ ∧ body = _ ∧ later = _ := by simpa [h] using found
    rfl

theorem replaceTokens_around (hfront : Closed front) (hbody : '\x7d' ∉ body) (back : List Char) :
    replaceTokens fill (front ++ '\x7b' :: body ++ '\x7d' :: back) = (do
      let (changed, first) ← replaceTokens fill front
      let word ← fill body
      let (changedToo, last) ← replaceTokens fill back
      return (changed || word.isSome || changedToo,
        first ++ word.elim ('\x7b' :: body ++ ['\x7d']) String.toList ++ last)) := by
  -- one token of the front after the other, until the next one is the token itself
  induction front using replaceTokens.induct with
  | case1 cs hnone =>
    have hnext : nextToken? (cs ++ '\x7b' :: body ++ '\x7d' :: back) = some (cs, body, back) :=
      nextToken?_eq_some.mpr ⟨rfl, hfront.not_mem_of_nextToken? hnone, hbody⟩
    rw [replaceTokens_of_some fill hnext, replaceTokens_of_none fill hnone, pure_bind]
    refine bind_congr fun word => bind_congr fun tail => ?_
    cases word <;> simp
  | case2 cs before inner later hsome ih =>
    obtain ⟨rfl, hbefore, hinner⟩ := nextToken?_eq_some.mp hsome
    have hnext : nextToken? (before ++ '\x7b' :: inner ++ '\x7d' :: later ++ '\x7b' :: body ++
        '\x7d' :: back) =
        some (before, inner, later ++ '\x7b' :: body ++ '\x7d' :: back) :=
      nextToken?_eq_some.mpr ⟨by simp, hbefore, hinner⟩
    rw [replaceTokens_of_some fill hnext, replaceTokens_of_some fill hsome, ih hfront.behind]
    simp only [bind_assoc, pure_bind]
    refine bind_congr fun filled => bind_congr fun head => ?_
    cases filled <;> simp only [pure_bind] <;>
      refine bind_congr fun word => bind_congr fun tail => ?_ <;> simp

end

theorem wholeToken?_around (h : front ≠ [] ∨ back ≠ []) :
    wholeToken? (front ++ '\x7b' :: body ++ '\x7d' :: back) = none := by
  refine Option.eq_none_iff_forall_ne_some.mpr fun inner hinner => ?_
  obtain ⟨htext, hopening, hclosing⟩ := wholeToken?_eq_some.mp hinner
  cases front with
  | nil =>
    -- the closing brace of the token is not the last character
    rcases List.eq_nil_or_concat' back with rfl | ⟨last, c, rfl⟩
    · simp at h
    · have htail : (body ++ '\x7d' :: last) ++ [c] = inner ++ ['\x7d'] := by simpa using htext
      obtain ⟨rfl, -⟩ := List.append_inj' htail rfl
      simp at hclosing
  | cons c front =>
    -- the opening brace of the token is not the first character
    obtain ⟨last, d, hlast⟩ : ∃ last d, body ++ '\x7d' :: back = last ++ [d] :=
      (List.eq_nil_or_concat' (body ++ '\x7d' :: back)).resolve_left (by simp)
    have htail : (front ++ '\x7b' :: last) ++ [d] = inner ++ ['\x7d'] := by
      simpa [← hlast] using (List.cons.inj htext).2
    obtain ⟨rfl, -⟩ := List.append_inj' htail rfl
    simp at hopening

-- ---------------------------------------------------------------------------
-- Resolving with a state
-- ---------------------------------------------------------------------------

variable {payload : Property} {source : Source (StateM σ)} {Holds : σ → Prop} {text : String}

theorem run_bind (x : StateM σ α) (f : α → StateM σ β) (s : σ) :
    (x >>= f).run s = (f (x.run s).1).run (x.run s).2 := rfl

theorem map_congr_run {x : StateM σ α} {f g : α → β}
    (h : ∀ s, f (x.run s).1 = g (x.run s).1) : f <$> x = g <$> x :=
  funext fun s => congrArg (·, (x.run s).2) (h s)

theorem replaceTokens_unchanged {fill : List Char → StateM σ (Option String)} {s : σ}
    (h : ((replaceTokens fill cs).run s).1.1 = false) :
    ((replaceTokens fill cs).run s).1.2 = cs := by
  induction cs using replaceTokens.induct generalizing s with
  | case1 cs hnone =>
    rw [replaceTokens_of_none fill hnone]
    rfl
  | case2 cs before body later hsome ih =>
    obtain ⟨rfl, -, -⟩ := nextToken?_eq_some.mp hsome
    rw [replaceTokens_of_some fill hsome, run_bind, run_bind] at h ⊢
    cases hword : ((fill body).run s).1 with
    | some word => simp [hword] at h
    | none =>
      rw [hword] at h
      exact congrArg (before ++ '\x7b' :: body ++ '\x7d' :: ·) (ih h)

theorem resolve_of_not_whole (h : wholeToken? text.toList = none) :
    resolve payload source (.text text) = Property.text <$> replaced payload source text := by
  have hresolve : resolve payload source (.text text) =
      (fun (changed, out) =>
        (if changed then some (.text (String.ofList out)) else none).getD (.text text)) <$>
        replaceTokens (fieldText payload source) text.toList := by
    simp only [resolve, resolveProperty, resolveLeaf, resolveText, h]
    rfl
  rw [hresolve, replaced, Functor.map_map]
  refine map_congr_run fun s => ?_
  have hsame : ((replaceTokens (fieldText payload source) text.toList).run s).1.1 = false →
      ((replaceTokens (fieldText payload source) text.toList).run s).1.2 = text.toList :=
    replaceTokens_unchanged
  generalize ((replaceTokens (fieldText payload source) text.toList).run s).1 = result at hsame
  obtain ⟨changed, out⟩ := result
  cases changed with
  | true => rfl
  | false =>
    obtain rfl : out = text.toList := hsame rfl
    simp

theorem holds_replaced (hkeeps : ∀ key s, Holds s → Holds ((source key).run s).2) (text : String)
    (hs : Holds s) : Holds ((replaced payload source text).run s).2 := by
  have hcompositional : Compositional fun α (program : StateM σ α) =>
      ∀ s, Holds s → Holds (program.run s).2 :=
    { pure := fun _ _ h => h
      bind := fun hx hf s h => hf _ _ (hx s h) }
  exact hcompositional.map _
    (hcompositional.replaceTokens (hcompositional.fieldText hkeeps) text.toList) s hs

-- ---------------------------------------------------------------------------
-- Tokens with a field
-- ---------------------------------------------------------------------------

def fieldToken (head field : String) : String :=
  "\x7b" ++ head ++ "." ++ field ++ "\x7d"

structure Plain (name : String) : Prop where
  nonempty : name ≠ ""
  point : '.' ∉ name.toList
  brace : '\x7d' ∉ name.toList

theorem plain_payloadName : Plain payloadName :=
  ⟨by decide, by decide, by decide⟩

theorem toList_fieldToken (head field : String) :
    (fieldToken head field).toList =
      '\x7b' :: (head.toList ++ '.' :: field.toList) ++ ['\x7d'] := by
  simp [fieldToken]

variable {first last head key field : String} {fields : Json.Object} {s : σ}

/-- A token with a field becomes the text of the field, if there is one, and the rest of the text
becomes what it would be without the token. -/
theorem resolve_fieldToken (hhead : Plain head) (hfield : Plain field)
    (hfirst : Closed first.toList) (haround : first ≠ "" ∨ last ≠ "") :
    resolve payload source (.text (first ++ fieldToken head field ++ last)) = (do
      let front ← replaced payload source first
      let word ← fieldText payload source (head.toList ++ '.' :: field.toList)
      let back ← replaced payload source last
      return .text (front ++ word.getD (fieldToken head field) ++ back)) := by
  have htext : (first ++ fieldToken head field ++ last).toList =
      first.toList ++ '\x7b' :: (head.toList ++ '.' :: field.toList) ++ '\x7d' :: last.toList := by
    simp [toList_fieldToken]
  have hbody : '\x7d' ∉ head.toList ++ '.' :: field.toList := by
    simp [hhead.brace, hfield.brace]
  have hwhole : wholeToken? (first ++ fieldToken head field ++ last).toList = none := by
    rw [htext]
    exact wholeToken?_around (by simpa using haround)
  have hword (word : Option String) :
      String.ofList (word.elim ('\x7b' :: (head.toList ++ '.' :: field.toList) ++ ['\x7d'])
        String.toList) = word.getD (fieldToken head field) := by
    cases word with
    | none => simp only [Option.elim_none, ← toList_fieldToken, String.ofList_toList,
        Option.getD_none]
    | some word => simp
  rw [resolve_of_not_whole hwhole, replaced, htext, replaceTokens_around _ hfirst hbody]
  simp only [replaced, map_eq_pure_bind, bind_assoc, pure_bind, String.ofList_append, hword]

theorem fieldText_payload (source : Source (StateM σ)) (fields : Json.Object)
    (hfield : Plain field) :
    fieldText (.ofJson (.object fields)) source (payloadName.toList ++ '.' :: field.toList) =
      pure ((Fields.get? field fields).map fun value => (Property.ofJson value).display) := by
  have hpayload : payloadName ≠ "" := by decide
  simp [fieldText, parts_field not_mem_payloadName hfield.point, hpayload, hfield.nonempty,
    Property.get?_ofJson, Function.comp_def]

theorem run_fieldText_offered (payload : Property)
    (hsource : source.Offers Holds key (.object fields)) (hs : Holds s) (hkey : Plain key)
    (hname : key ≠ payloadName) (hfield : Plain field) :
    (fieldText payload source (key.toList ++ '.' :: field.toList)).run s =
      ((Fields.get? field fields).map fun value => (Property.ofJson value).display, s) := by
  obtain ⟨⟨reference, object⟩, hlive, name, rfl⟩ := hsource.answer s hs
  have hprogram : fieldText payload source (key.toList ++ '.' :: field.toList) =
      (·.bind (·.object.fieldText? field)) <$> source key := by
    simp [fieldText, parts_field hkey.point hfield.point, hkey.nonempty, hfield.nonempty, hname]
  rw [hprogram, StateT.run_map, hlive, ← DataObject.shown?_eq_display]
  rfl

/-- A payload and a data object that hold the same fields show them alike. A token that names a
field in either of them becomes the same text in the same surroundings, and where there is no
such field both tokens stay. -/
theorem resolve_field_alike (hsource : source.Offers Holds key (.object fields)) (hs : Holds s)
    (hkey : Plain key) (hname : key ≠ payloadName) (hfield : Plain field)
    (hfirst : Closed first.toList) (haround : first ≠ "" ∨ last ≠ "") :
    let payload := Property.ofJson (.object fields)
    let front := (replaced payload source first).run s
    let back := (replaced payload source last).run front.2
    let result (head : String) :=
      (resolve payload source (.text (first ++ fieldToken head field ++ last))).run s
    (∀ value, Fields.get? field fields = some value →
      result key = result payloadName ∧
        result payloadName =
          (.text (front.1 ++ (Property.ofJson value).display ++ back.1), back.2)) ∧
    (Fields.get? field fields = none → ∀ head ∈ [payloadName, key],
      result head = (.text (front.1 ++ fieldToken head field ++ back.1), back.2)) := by
  intro payload front back result
  -- asking for the data object does not change what follows
  have hresult (head : String) (hhead : head ∈ [payloadName, key]) :
      result head = (.text (front.1 ++
        ((Fields.get? field fields).map fun value => (Property.ofJson value).display).getD
          (fieldToken head field) ++ back.1), back.2) := by
    have hplain : Plain head := by
      rcases List.mem_pair.mp hhead with rfl | rfl
      · exact plain_payloadName
      · exact hkey
    have hword : (fieldText payload source (head.toList ++ '.' :: field.toList)).run front.2 =
        ((Fields.get? field fields).map fun value => (Property.ofJson value).display, front.2) := by
      rcases List.mem_pair.mp hhead with rfl | rfl
      · exact congrArg (·.run front.2) (fieldText_payload source fields hfield)
      · exact run_fieldText_offered payload hsource (holds_replaced hsource.keeps first hs) hkey
          hname hfield
    simp only [result, resolve_fieldToken hplain hfield hfirst haround, run_bind]
    rw [hword]
    rfl
  constructor
  · intro value hvalue
    have hpayload := hresult payloadName (by simp)
    have hobject := hresult key (by simp)
    simp only [hvalue, Option.map_some, Option.getD_some] at hpayload hobject
    exact ⟨hobject.trans hpayload.symm, hpayload⟩
  · intro hnone head hhead
    have hhead := hresult head hhead
    simpa only [hnone, Option.map_none, Option.getD_none] using hhead

/-- A field that is an object, shown by a data object that a feature has built. -/
theorem resolve_field_alike_built :
    let fields : Json.Object :=
      [("deep", .object [("a", .array [.null, .boolean true, .text "\x7bd\x7d"])])]
    let object : DataObject := .ofValue "d" (.object fields)
    let scope : Scope :=
      { manifest := .ofObject "shop" [], registration := 0, payload := .null }
    let a : Inventory :=
      { objects := .ofList [("d", object)], registry := .ofCatalogue .trial }
    let result (head field : String) :=
      (resolve (.ofJson (.object fields)) scope.dataObject
        (.text ("\x7d \x7bd\x7d " ++ fieldToken head field ++ " \x7be.x\x7d\x7b"))).run a
    Source.Offers scope.dataObject (fun a => a.objects.get? "d" = some object) "d"
        (.object fields) ∧
      a.objects.get? "d" = some object ∧ Plain "d" ∧ "d" ≠ payloadName ∧
      Closed "\x7d \x7bd\x7d ".toList ∧
      result "d" "deep" = result payloadName "deep" ∧
      (result payloadName "deep").1.text? =
        some "\x7d \x7bd\x7d \x7b\"a\":[null,true,\"\x7bd\x7d\"]\x7d \x7be.x\x7d\x7b" ∧
      (result "d" "none").1.text? = some "\x7d \x7bd\x7d \x7bd.none\x7d \x7be.x\x7d\x7b" := by
  intro fields object scope a result
  have hsource := scope.offers_dataObject "d" "d" (.object fields)
  have hbuilt : a.objects.get? "d" = some object := rfl
  have hkey : Plain "d" := ⟨by decide, by decide, by decide⟩
  have hname : "d" ≠ payloadName := by decide
  have hclosed : Closed "\x7d \x7bd\x7d ".toList :=
    closed_append "\x7d \x7bd".toList [' '] (by decide)
  have hfield : Plain "deep" := ⟨by decide, by decide, by decide⟩
  have hsame : result "d" "deep" = result payloadName "deep" :=
    ((resolve_field_alike hsource hbuilt hkey hname hfield hclosed (.inl (by decide))).1 _ rfl).1
  exact ⟨hsource, hbuilt, hkey, hname, hclosed, hsame, by decide +kernel, by decide +kernel⟩

end Expression

end FeatureFlow
