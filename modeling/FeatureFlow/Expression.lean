import FeatureFlow.DataObject
import FeatureFlow.Text

/-!
# Tokens in text properties

`{payload}`, `{payload.field}`, `{key}` and `{key.field}` stand for the payload,
one of its fields, a data object and one of its fields. A text that is one
token may become a value of any kind; inside a longer text only the tokens with
a field are replaced, by their display text. A token that stands for nothing
stays as it is, and replaced text is not looked at again.

Data objects come from a source that may build them as they are asked for, so
resolution is written over any monad.
-/

namespace FeatureFlow

abbrev Source (m : Type → Type) := String → m (Option LiveObject)

def Source.empty [Monad m] : Source m :=
  fun _ => pure none

namespace Expression

-- ---------------------------------------------------------------------------
-- Tokens
-- ---------------------------------------------------------------------------

def isBrace (c : Char) : Bool :=
  c == '\x7b' || c == '\x7d'

/-- The body of a text that is exactly one token, without braces of its own. -/
def wholeToken? (cs : List Char) : Option (List Char) := do
  let rest ← Text.after? ['\x7b'] cs
  let body ← Text.before? ['\x7d'] rest
  if body.any isBrace then none else some body

/-- The text before the next token, its body, and the text after it. A token
ends at the first closing brace, so its body may hold further opening ones. -/
def nextToken? (cs : List Char) : Option (List Char × List Char × List Char) := do
  let (before, tail) ← Text.cut? '\x7b' cs
  let (body, after) ← Text.cut? '\x7d' tail
  return (before, body, after)

theorem cut?_length {separator : Char} {cs before after : List Char}
    (h : Text.cut? separator cs = some (before, after)) : after.length < cs.length := by
  induction cs generalizing before with
  | nil => simp [Text.cut?] at h
  | cons c rest ih =>
    unfold Text.cut? at h
    split at h
    · simp only [Option.some.injEq, Prod.mk.injEq] at h
      simp [h.2]
    · simp only [Option.map_eq_some_iff, Prod.mk.injEq] at h
      obtain ⟨⟨b, a⟩, hcut, _, rfl⟩ := h
      have hlt := ih hcut
      exact Nat.lt_succ_of_lt hlt

theorem nextToken?_length {cs before body after : List Char}
    (h : nextToken? cs = some (before, body, after)) : after.length < cs.length := by
  simp only [nextToken?, Option.bind_eq_bind, Option.bind_eq_some_iff] at h
  obtain ⟨⟨b, tail⟩, hopen, ⟨c, a⟩, hclose, heq⟩ := h
  simp only [pure, Option.some.injEq, Prod.mk.injEq] at heq
  rw [← heq.2.2]
  exact Nat.lt_trans (cut?_length hclose) (cut?_length hopen)

def payloadName : String := "payload"

def parts (body : List Char) : List String :=
  (Text.splitAt '.' body).map String.ofList

-- ---------------------------------------------------------------------------
-- What a token stands for
-- ---------------------------------------------------------------------------

/-- What a text that is one token stands for as a whole. -/
def wholeValue [Monad m] (payload : Property) (source : Source m) (body : List Char) :
    m (Option Property) :=
  match parts body with
  | [key] =>
    if key = payloadName then pure (some payload)
    else if key = "" then pure none
    else (·.map (.node ·.reference)) <$> source key
  | [head, field] => pure (if head = payloadName then payload.get? field else none)
  | _ => pure none

def fieldText [Monad m] (payload : Property) (source : Source m) (body : List Char) :
    m (Option String) :=
  match parts body with
  | [head, field] =>
    if head = "" ∨ field = "" then pure none
    else if head = payloadName then pure ((payload.get? field).map Property.display)
    else (·.bind (·.object.fieldText? field)) <$> source head
  | _ => pure none

-- ---------------------------------------------------------------------------
-- Resolving
-- ---------------------------------------------------------------------------

/-- Replaces the tokens that `fill` has a text for; the flag says whether there
was one. -/
def replaceTokens [Monad m] (fill : List Char → m (Option String)) (cs : List Char) :
    m (Bool × List Char) :=
  match _h : nextToken? cs with
  | none => pure (false, cs)
  | some (before, body, after) => do
    let filled ← fill body
    let (changed, tail) ← replaceTokens fill after
    match filled with
    | some text => return (true, before ++ text.toList ++ tail)
    | none => return (changed, before ++ '\x7b' :: body ++ '\x7d' :: tail)
termination_by cs.length
decreasing_by exact nextToken?_length _h

/-- What a text becomes, none where nothing in it changes. -/
def resolveText [Monad m] (payload : Property) (source : Source m) (text : String) :
    m (Option Property) := do
  let cs := text.toList
  let whole ← match wholeToken? cs with
    | some body => wholeValue payload source body
    | none => pure none
  match whole with
  | some value => return some value
  | none =>
    let (changed, out) ← replaceTokens (fieldText payload source) cs
    return if changed then some (.text (String.ofList out)) else none

def resolveLeaf [Monad m] (payload : Property) (source : Source m) : Property → m Property
  | .text value => (·.getD (.text value)) <$> resolveText payload source value
  | other => pure other

def resolveProperty [Monad m] (payload : Property) (source : Source m) : Property → m Property
  | .list items => .list <$> items.mapM (resolveLeaf payload source)
  | other => resolveLeaf payload source other

/-- Resolves the properties of a map, or a tree that is no map as one property.
Maps and lists further inside stay as they are. -/
def resolve [Monad m] (payload : Property) (source : Source m) : Property → m Property
  | .map fields =>
    .map <$> fields.mapM fun (key, value) => (key, ·) <$> resolveProperty payload source value
  | other => resolveProperty payload source other

end Expression

end FeatureFlow
