import FeatureFlow.Proofs.Tokens.Cuts
import Mathlib.Tactic.Tauto

/-!
# What tokens ask for

Each token of a text asks the source for one key at most (`Cut.questions`), and nothing else
is asked. What becomes of the text follows from the payload and the answers (`resolveText_eq`).
-/

namespace FeatureFlow

namespace Expression

-- ---------------------------------------------------------------------------
-- What a token stands for
-- ---------------------------------------------------------------------------

/-- What a text stands for that is one token: the payload, one of its fields, or the data
object that the source has answered with. -/
inductive Whole (payload : Property) (answer : Option LiveObject) : List Char → Property → Prop
  | payload : Whole payload answer payloadName.toList payload
  | field (hfield : '.' ∉ field.toList) (hvalue : payload.get? field = some value) :
      Whole payload answer (payloadName.toList ++ '.' :: field.toList) value
  | object (hkey : key ≠ "") (hdot : '.' ∉ key.toList) (hname : key ≠ payloadName)
      (hlive : answer = some live) : Whole payload answer key.toList (.node live.reference)

/-- What a token with a field is filled in with: the display text of the field of the payload
or of the data object that the source has answered with. -/
inductive Filled (payload : Property) (answer : Option LiveObject) : List Char → String → Prop
  | payload (hfield : field ≠ "") (hdot : '.' ∉ field.toList)
      (hvalue : payload.get? field = some value) :
      Filled payload answer (payloadName.toList ++ '.' :: field.toList) value.display
  | object (hhead : head ≠ "") (hheadDot : '.' ∉ head.toList) (hname : head ≠ payloadName)
      (hfield : field ≠ "") (hdot : '.' ∉ field.toList) (hlive : answer = some live)
      (htext : live.object.fieldText? field = some text) :
      Filled payload answer (head.toList ++ '.' :: field.toList) text

def answering (answer : Option LiveObject) : Source Id :=
  fun _ => pure answer

variable {payload value : Property} {answer : Option LiveObject} {body : List Char}
  {key head field text : String}

theorem parts_eq_one : parts body = [key] ↔ body = key.toList ∧ '.' ∉ key.toList := by
  constructor
  · intro h
    obtain ⟨piece, hpieces, rfl⟩ := List.map_eq_singleton_iff.mp h
    have hpiece : piece ∈ Text.splitAt '.' body := by simp [hpieces]
    exact ⟨by simpa using Text.eq_of_splitAt hpieces,
      by simpa using Text.not_mem_of_mem_splitAt hpiece⟩
  · rintro ⟨rfl, hdot⟩
    simp [parts, Text.splitAt_of_not_mem hdot]

theorem parts_eq_two :
    parts body = [head, field] ↔
      body = head.toList ++ '.' :: field.toList ∧ '.' ∉ head.toList ∧ '.' ∉ field.toList := by
  constructor
  · intro h
    obtain ⟨first, others, hpieces, rfl, hothers⟩ := List.map_eq_cons_iff.mp h
    obtain ⟨second, rfl, rfl⟩ := List.map_eq_singleton_iff.mp hothers
    have hfirst : first ∈ Text.splitAt '.' body := by simp [hpieces]
    have hsecond : second ∈ Text.splitAt '.' body := by simp [hpieces]
    exact ⟨by simpa using Text.eq_of_splitAt hpieces,
      by simpa using Text.not_mem_of_mem_splitAt hfirst,
      by simpa using Text.not_mem_of_mem_splitAt hsecond⟩
  · rintro ⟨rfl, hhead, hfield⟩
    simp [parts, Text.splitAt_append, Text.splitAt_of_not_mem hhead,
      Text.splitAt_of_not_mem hfield]

theorem parts_key (h : '.' ∉ key.toList) : parts key.toList = [key] :=
  parts_eq_one.mpr ⟨rfl, h⟩

theorem parts_field (hhead : '.' ∉ head.toList) (hfield : '.' ∉ field.toList) :
    parts (head.toList ++ '.' :: field.toList) = [head, field] :=
  parts_eq_two.mpr ⟨rfl, hhead, hfield⟩

theorem not_mem_payloadName : '.' ∉ payloadName.toList := by decide

def wholeOf (payload : Property) (answer : Option LiveObject) (body : List Char) :
    Option Property :=
  (wholeValue payload (answering answer) body).run

def fieldOf (payload : Property) (answer : Option LiveObject) (body : List Char) : Option String :=
  (fieldText payload (answering answer) body).run

theorem wholeOf_eq_some : wholeOf payload answer body = some value ↔
    Whole payload answer body value := by
  constructor
  · intro h
    unfold wholeOf wholeValue at h
    split at h
    · rename_i key hparts
      obtain ⟨rfl, hdot⟩ := parts_eq_one.mp hparts
      split at h
      · rename_i hname
        subst hname
        obtain rfl := Option.some.inj h
        exact .payload
      · rename_i hname
        split at h
        · cases h
        · rename_i hkey
          obtain ⟨live, hlive, rfl⟩ := Option.map_eq_some_iff.mp h
          exact .object hkey hdot hname hlive
    · rename_i head field hparts
      obtain ⟨rfl, -, hfield⟩ := parts_eq_two.mp hparts
      split at h
      · rename_i hname
        subst hname
        exact .field hfield h
      · cases h
    · cases h
  · intro h
    cases h with
    | payload => simp [wholeOf, wholeValue, parts_key not_mem_payloadName]
    | field hfield hvalue =>
      simp [wholeOf, wholeValue, parts_field not_mem_payloadName hfield, hvalue]
    | object hkey hdot hname hlive =>
      simp [wholeOf, wholeValue, parts_key hdot, hname, hkey, answering, hlive]

theorem fieldOf_eq_some : fieldOf payload answer body = some text ↔
    Filled payload answer body text := by
  constructor
  · intro h
    unfold fieldOf fieldText at h
    split at h
    · rename_i head field hparts
      obtain ⟨rfl, hhead, hdot⟩ := parts_eq_two.mp hparts
      split at h
      · cases h
      · rename_i hnames
        obtain ⟨hne, hfield⟩ := not_or.mp hnames
        split at h
        · rename_i hname
          subst hname
          obtain ⟨value, hvalue, rfl⟩ := Option.map_eq_some_iff.mp h
          exact .payload hfield hdot hvalue
        · rename_i hname
          obtain ⟨live, hlive, htext⟩ := Option.bind_eq_some_iff.mp h
          exact .object hne hhead hname hfield hdot hlive htext
    · cases h
  · intro h
    cases h with
    | payload hfield hdot hvalue =>
      have hname : payloadName ≠ "" := by decide
      simp [fieldOf, fieldText, parts_field not_mem_payloadName hdot, hfield, hname, hvalue]
    | object hhead hheadDot hname hfield hdot hlive htext =>
      simp [fieldOf, fieldText, parts_field hheadDot hdot, hhead, hname, hfield, answering, hlive,
        htext]

-- ---------------------------------------------------------------------------
-- What a token asks
-- ---------------------------------------------------------------------------

/-- The key that a token asks the source for. A token without a field asks only where it is
the whole text. -/
def key? (alone : Bool) (body : List Char) : Option String :=
  match parts body with
  | [key] => if alone = true ∧ key ≠ "" ∧ key ≠ payloadName then some key else none
  | [head, field] => if head ≠ "" ∧ field ≠ "" ∧ head ≠ payloadName then some head else none
  | _ => none

def ask [Monad m] (source : Source m) : Option String → m (Option LiveObject)
  | none => pure none
  | some key => source key

def Cut.questions (c : Cut) : List (Option String) :=
  c.bodies.map (key? c.alone?.isSome)

def Cut.result (payload : Property) (c : Cut) (found : List (Option LiveObject)) :
    Option Property :=
  let words := List.zipWith (fun body answer => fieldOf payload answer body) c.bodies found
  match c.alone?.bind (wholeOf payload found.head?.join) with
  | some value => some value
  | none => if words.any Option.isSome then some (.text (String.ofList (c.fill words))) else none

section

variable [Monad m] [LawfulMonad m]

theorem fieldText_eq (payload : Property) (source : Source m) (body : List Char) :
    fieldText payload source body =
      (fieldOf payload · body) <$> ask source (key? false body) := by
  unfold fieldOf fieldText
  split
  · rename_i head field hparts
    by_cases hempty : head = "" ∨ field = ""
    · have hkey : key? false body = none := by
        simp only [key?, hparts]
        exact if_neg (by tauto)
      simp [hkey, ask, hempty]
    · by_cases hname : head = payloadName
      · subst hname
        have hkey : key? false body = none := by
          simp only [key?, hparts]
          exact if_neg (by tauto)
        simp [hkey, ask, hempty]
      · have hkey : key? false body = some head := by
          simp only [key?, hparts]
          exact if_pos (by tauto)
        simp [hkey, ask, answering, hempty, hname]
  · rename_i hother
    have hkey : key? false body = none := by
      unfold key?
      split <;> simp_all
    simp [hkey, ask]

theorem wholeValue_of_one (payload : Property) (source : Source m) (h : parts body = [key]) :
    wholeValue payload source body =
      (wholeOf payload · body) <$> ask source (key? true body) := by
  unfold wholeOf
  by_cases hname : key = payloadName
  · simp [wholeValue, key?, h, hname, ask]
  · by_cases hempty : key = ""
    · have hpayload : "" ≠ payloadName := by decide
      simp [wholeValue, key?, h, hempty, hpayload, ask]
    · simp [wholeValue, key?, h, hname, hempty, ask, answering]

omit [LawfulMonad m] in
theorem wholeValue_of_ne_one (payload : Property) (source : Source m)
    (answer : Option LiveObject) (h : ∀ key, parts body ≠ [key]) :
    wholeValue payload source body = pure (wholeOf payload answer body) := by
  unfold wholeOf wholeValue
  split <;> simp_all

omit [Monad m] [LawfulMonad m] in
theorem key?_of_ne_one (h : ∀ key, parts body ≠ [key]) (alone : Bool) :
    key? alone body = key? false body := by
  unfold key?
  split <;> simp_all

omit [Monad m] [LawfulMonad m] in
theorem key?_of_whole (h : Whole payload answer body value) (hother : ∀ key, parts body ≠ [key]) :
    key? false body = none := by
  cases h with
  | payload => exact absurd (parts_key not_mem_payloadName) (hother payloadName)
  | field hfield hvalue => simp [key?, parts_field not_mem_payloadName hfield]
  | object _ hdot => exact absurd (parts_key hdot) (hother _)

theorem mapM_map_zipWith (f : α → m β) (g : α → β → γ) (items : List α) :
    items.mapM (fun item => g item <$> f item) =
      (fun found => List.zipWith g items found) <$> items.mapM f := by
  induction items with
  | nil => simp
  | cons item rest ih =>
    rw [List.mapM_cons, ih, List.mapM_cons]
    simp only [map_eq_pure_bind, bind_assoc, pure_bind]
    rfl

theorem resolveText_alone (payload : Property) (source : Source m) {text : String}
    (halone : (Cut.ofChars text.toList).alone? = some body) :
    resolveText payload source text = (do
      match ← wholeValue payload source body with
      | some value => pure (some value)
      | none => Option.map .text <$> fieldText payload source body) := by
  simp only [resolveText, wholeToken?_eq_alone?, replaceTokens_eq, halone]
  obtain ⟨hcut, -⟩ := Cut.alone?_eq_some.mp halone
  rw [hcut]
  refine bind_congr fun whole => ?_
  cases whole with
  | some value => rfl
  | none =>
    simp only [Cut.bodies, List.map_cons, List.map_nil, List.mapM_cons, List.mapM_nil,
      map_eq_pure_bind, bind_assoc, pure_bind]
    refine bind_congr fun word => ?_
    cases word with
    | none => rfl
    | some text => simp [Cut.fill]

omit [Monad m] [LawfulMonad m] in
theorem result_alone {c : Cut} (halone : c.alone? = some body) (answer : Option LiveObject) :
    c.result payload [answer] =
      match wholeOf payload answer body with
      | some value => some value
      | none => (fieldOf payload answer body).map .text := by
  obtain ⟨rfl, -⟩ := Cut.alone?_eq_some.mp halone
  simp only [Cut.result, halone, Option.bind_some, Cut.bodies, List.head?_cons, Option.join_some]
  cases wholeOf payload answer body with
  | some value => rfl
  | none =>
    cases hword : fieldOf payload answer body with
    | none => simp [hword]
    | some text => simp [hword, Cut.fill]

theorem resolveText_of_not_alone (payload : Property) (source : Source m) {text : String}
    (halone : (Cut.ofChars text.toList).alone? = none) :
    resolveText payload source text =
      (Cut.ofChars text.toList).result payload <$>
        (Cut.ofChars text.toList).questions.mapM (ask source) := by
  simp only [resolveText, wholeToken?_eq_alone?, replaceTokens_eq, halone]
  generalize Cut.ofChars text.toList = c at halone
  have hwords : c.bodies.mapM (fieldText payload source) =
      (fun found => List.zipWith (fun body answer => fieldOf payload answer body) c.bodies found)
        <$> c.questions.mapM (ask source) := by
    rw [Cut.questions, halone, List.mapM_map, ← mapM_map_zipWith]
    exact congrArg c.bodies.mapM (funext (fieldText_eq payload source))
  simp only [hwords, Cut.result, halone, map_eq_pure_bind, bind_assoc, pure_bind]
  rfl

/-- A token that is the whole text asks once, though it is looked at twice. -/
theorem wholeValue_or_fieldText (payload : Property) (source : Source m) (body : List Char) :
    (do
      match ← wholeValue payload source body with
      | some value => pure (some value)
      | none => Option.map .text <$> fieldText payload source body) =
      (fun answer => match wholeOf payload answer body with
        | some value => some value
        | none => (fieldOf payload answer body).map .text) <$> ask source (key? true body) := by
  -- a single name has no field to fill in, and any other token is not asked for as a whole
  by_cases hone : ∃ key, parts body = [key]
  · obtain ⟨key, hparts⟩ := hone
    have hfield : fieldText payload source body = pure none := by simp [fieldText, hparts]
    have hnone (answer : Option LiveObject) : fieldOf payload answer body = none := by
      simp [fieldOf, fieldText, hparts]
    rw [wholeValue_of_one payload source hparts, hfield]
    simp only [map_eq_pure_bind, bind_assoc, pure_bind, hnone]
    refine bind_congr fun answer => ?_
    cases wholeOf payload answer body <;> rfl
  · have hother : ∀ key, parts body ≠ [key] := not_exists.mp hone
    have hwhole (answer : Option LiveObject) :
        wholeOf payload answer body = wholeOf payload none body :=
      wholeValue_of_ne_one payload (answering answer) none hother
    rw [wholeValue_of_ne_one payload source none hother, key?_of_ne_one hother, pure_bind]
    simp only [hwhole]
    cases hvalue : wholeOf payload none body with
    | none =>
      rw [fieldText_eq payload source body]
      simp only [map_eq_pure_bind, bind_assoc, pure_bind]
    | some value =>
      have hkey : key? false body = none := key?_of_whole (wholeOf_eq_some.mp hvalue) hother
      simp only [hkey, ask, map_pure]

theorem resolveText_eq (payload : Property) (source : Source m) (text : String) :
    resolveText payload source text =
      (Cut.ofChars text.toList).result payload <$>
        (Cut.ofChars text.toList).questions.mapM (ask source) := by
  cases halone : (Cut.ofChars text.toList).alone? with
  | none => exact resolveText_of_not_alone payload source halone
  | some body =>
    have hquestions : (Cut.ofChars text.toList).questions = [key? true body] := by
      rw [Cut.questions, halone, (Cut.alone?_eq_some.mp halone).1]
      rfl
    rw [resolveText_alone payload source halone, wholeValue_or_fieldText, hquestions]
    simp only [List.mapM_cons, List.mapM_nil, map_eq_pure_bind, bind_assoc, pure_bind,
      result_alone halone]

end

end Expression

end FeatureFlow
