import FeatureFlow.Proofs.Json.Written
import FeatureFlow.Proofs.Manifest.Written
import FeatureFlow.Proofs.Tokens.Positions

/-!
# Property trees and JSON

Taking a tree to JSON and back keeps it position by position, but for the references, which become
the texts that show them (`root_at?_ofJson_toJson`). So the tree that comes back is the same one
just where it held no reference (`conversion_outcome`).

The JSON may also be written as text and read again. The same tree comes of it where the reader
takes the nesting and the numbers of the text (`ofJson_parse?_compact`), and there are numbers that
drift (`conversion_drifts`).
-/

namespace FeatureFlow.Property

-- ---------------------------------------------------------------------------
-- Trees by their positions
-- ---------------------------------------------------------------------------

/-- What stands at the root of a tree, without what is below it. -/
inductive Root where
  | text (value : String)
  | number (value : Number)
  | boolean (value : Bool)
  | list (length : Nat)
  | map (keys : List String)
  | node (reference : Reference)
  | null
deriving DecidableEq

def root : Property → Root
  | text value => .text value
  | number value => .number value
  | boolean value => .boolean value
  | list items => .list items.length
  | map fields => .map (Fields.keys fields)
  | node reference => .node reference
  | null => .null

variable {p q child : Property} {step : Step} {path : List Step} {r : Reference}

theorem sizeOf_child? (h : p.child? step = some child) : sizeOf child < sizeOf p := by
  cases p with
  | list items =>
    cases step with
    | field index => cases h
    | entry index =>
      have hlt := List.sizeOf_lt_of_mem (List.mem_of_getElem? h)
      rw [list.sizeOf_spec]
      omega
  | map fields =>
    cases step with
    | field index =>
      obtain ⟨⟨key, value⟩, hindex, rfl⟩ := Option.map_eq_some_iff.mp h
      have hlt := List.sizeOf_lt_of_mem (List.mem_of_getElem? hindex)
      rw [Prod.mk.sizeOf_spec] at hlt
      rw [map.sizeOf_spec]
      dsimp only
      omega
    | entry index => cases h
  | _ => cases h

/-- What holds of a tree once it holds of its children holds of every tree. -/
theorem child?_induction {motive : Property → Prop}
    (tree : ∀ p, (∀ step child, p.child? step = some child → motive child) → motive p)
    (p : Property) : motive p :=
  tree p fun _ child h =>
    have := sizeOf_child? h
    child?_induction tree child
termination_by p

theorem ext_child? (hroot : p.root = q.root) (hchild : ∀ step, p.child? step = q.child? step) :
    p = q := by
  cases p with
  | list items =>
    cases q with
    | list others => exact congrArg list (List.ext_getElem? fun index => hchild (.entry index))
    | _ => cases hroot
  | map fields =>
    cases q with
    | map others =>
      have hkeys : fields.map (·.1) = others.map (·.1) := Root.map.inj hroot
      have hvalues : fields.map (·.2) = others.map (·.2) := by
        refine List.ext_getElem? fun index => ?_
        rw [List.getElem?_map, List.getElem?_map]
        exact hchild (.field index)
      rw [← List.zip_unzip fields, ← List.zip_unzip others, List.unzip_fst, List.unzip_snd,
        List.unzip_fst, List.unzip_snd, hkeys, hvalues]
    | _ => cases hroot
  | _ =>
    cases q <;> cases hroot
    rfl

-- ---------------------------------------------------------------------------
-- There and back
-- ---------------------------------------------------------------------------

/-- A reference is shown by its key in braces. -/
def Root.shown : Root → Root
  | node r => text r.placeholder
  | other => other

theorem toItems_eq_map (items : List Property) : toItems items = items.map toJson := by
  induction items with
  | nil => rfl
  | cons item rest ih => rw [toItems, ih, List.map_cons]

theorem ofItems_eq_map (items : List Json) : ofItems items = items.map ofJson := by
  induction items with
  | nil => rfl
  | cons item rest ih => rw [ofItems, ih, List.map_cons]

theorem toFields_eq_map (fields : List (String × Property)) :
    toFields fields = fields.map fun (key, value) => (key, value.toJson) := by
  induction fields with
  | nil => rfl
  | cons head rest ih => rw [toFields, ih, List.map_cons]

theorem ofFields_eq_map (fields : List (String × Json)) :
    ofFields fields = fields.map fun (key, value) => (key, ofJson value) := by
  induction fields with
  | nil => rfl
  | cons head rest ih => rw [ofFields, ih, List.map_cons]

theorem root_ofJson_toJson (p : Property) : (ofJson p.toJson).root = p.root.shown := by
  cases p with
  | list items => simp [toJson, ofJson, root, Root.shown, toItems_eq_map, ofItems_eq_map]
  | map fields =>
    simp [toJson, ofJson, root, Root.shown, toFields_eq_map, ofFields_eq_map, Fields.keys,
      Function.comp_def]
  | _ => rfl

theorem child?_ofJson_toJson (p : Property) (step : Step) :
    (ofJson p.toJson).child? step = (p.child? step).map fun child => ofJson child.toJson := by
  cases p with
  | list items =>
    cases step <;> simp [toJson, ofJson, child?, toItems_eq_map, ofItems_eq_map, Function.comp_def]
  | map fields =>
    cases step <;>
      simp [toJson, ofJson, child?, toFields_eq_map, ofFields_eq_map, Function.comp_def]
  | _ => rfl

/-- At every position stands what stood there, a reference as its text. -/
theorem root_at?_ofJson_toJson (p : Property) (path : List Step) :
    ((ofJson p.toJson).at? path).map root = (p.at? path).map fun q => q.root.shown := by
  induction path generalizing p with
  | nil => exact congrArg some (root_ofJson_toJson p)
  | cons step rest ih =>
    rw [at?_cons, at?_cons, child?_ofJson_toJson]
    cases p.child? step with
    | none => rfl
    | some child => exact ih child

-- ---------------------------------------------------------------------------
-- Trees that come back the same
-- ---------------------------------------------------------------------------

def HasReference (p : Property) : Prop :=
  ∃ path r, p.at? path = some (.node r)

theorem HasReference.of_child? (h : child.HasReference) (hchild : p.child? step = some child) :
    p.HasReference := by
  obtain ⟨path, r, hnode⟩ := h
  refine ⟨step :: path, r, ?_⟩
  rw [at?_cons, hchild]
  exact hnode

theorem not_hasReference_ofJson_toJson (p : Property) : ¬(ofJson p.toJson).HasReference := by
  rintro ⟨path, r, hnode⟩
  have hroot := root_at?_ofJson_toJson p path
  rw [hnode] at hroot
  obtain ⟨q, -, hshown⟩ := Option.map_eq_some_iff.mp hroot.symm
  cases q <;> cases hshown

theorem ofJson_toJson_of_not_hasReference (p : Property) (h : ¬p.HasReference) :
    ofJson p.toJson = p := by
  induction p using child?_induction with
  | tree p ih =>
    refine ext_child? ?root fun step => ?child
    case root =>
      rw [root_ofJson_toJson]
      cases p with
      | node r => exact absurd ⟨[], r, rfl⟩ h
      | _ => rfl
    case child =>
      rw [child?_ofJson_toJson]
      cases hchild : p.child? step with
      | none => rfl
      | some child => exact congrArg some (ih step child hchild fun hr => h (hr.of_child? hchild))

theorem ofJson_toJson_eq_iff (p : Property) : ofJson p.toJson = p ↔ ¬p.HasReference := by
  refine ⟨fun h => ?_, ofJson_toJson_of_not_hasReference p⟩
  rw [← h]
  exact not_hasReference_ofJson_toJson p

-- ---------------------------------------------------------------------------
-- Equal trees
-- ---------------------------------------------------------------------------

theorem sameValue_number_self (n : Number) : n.sameValue n = true := by
  cases n <;> simp [Number.sameValue, Double.sameValue]

mutual
theorem sameValue_self : (p : Property) → p.sameValue p = true
  | null => rfl
  | boolean _ | text _ | node _ => beq_self_eq_true _
  | number n => sameValue_number_self n
  | list items => sameItems_self items
  | map fields => sameFields_self fields
theorem sameItems_self : (items : List Property) → sameItems items items = true
  | [] => rfl
  | item :: rest => by rw [sameItems, sameValue_self item, sameItems_self rest]; rfl
theorem sameFields_self : (fields : List (String × Property)) → sameFields fields fields = true
  | [] => rfl
  | (key, value) :: rest => by
    rw [sameFields, beq_self_eq_true, sameValue_self value, sameFields_self rest]
    rfl
end

theorem getElem?_of_sameItems {items others : List Property} {index : Nat}
    (h : sameItems items others = true) (hchild : items[index]? = some child) :
    ∃ other, others[index]? = some other ∧ child.sameValue other = true := by
  induction items generalizing others index with
  | nil => cases hchild
  | cons item rest ih =>
    cases others with
    | nil => cases h
    | cons other more =>
      obtain ⟨hsame, hrest⟩ := Bool.and_eq_true_iff.mp h
      cases index with
      | zero =>
        obtain rfl := Option.some.inj hchild
        exact ⟨other, rfl, hsame⟩
      | succ index =>
        have hlater := ih hrest hchild
        exact hlater

theorem getElem?_of_sameFields {fields others : List (String × Property)} {index : Nat}
    {field : String × Property} (h : sameFields fields others = true)
    (hfield : fields[index]? = some field) :
    ∃ other, others[index]? = some other ∧ field.2.sameValue other.2 = true := by
  induction fields generalizing others index with
  | nil => cases hfield
  | cons head rest ih =>
    cases others with
    | nil => cases h
    | cons other more =>
      obtain ⟨hhead, hrest⟩ := Bool.and_eq_true_iff.mp h
      cases index with
      | zero =>
        obtain rfl := Option.some.inj hfield
        exact ⟨other, rfl, (Bool.and_eq_true_iff.mp hhead).2⟩
      | succ index =>
        have hlater := ih hrest hfield
        exact hlater

theorem child?_of_sameValue (h : p.sameValue q = true) (hchild : p.child? step = some child) :
    ∃ other, q.child? step = some other ∧ child.sameValue other = true := by
  cases p with
  | list items =>
    cases q with
    | list others =>
      cases step with
      | field index => cases hchild
      | entry index => exact getElem?_of_sameItems h hchild
    | _ => cases h
  | map fields =>
    cases q with
    | map others =>
      cases step with
      | field index =>
        obtain ⟨field, hfield, rfl⟩ := Option.map_eq_some_iff.mp hchild
        obtain ⟨other, hother, hsame⟩ := getElem?_of_sameFields h hfield
        exact ⟨other.2, Option.map_eq_some_iff.mpr ⟨other, hother, rfl⟩, hsame⟩
      | entry index => cases hchild
    | _ => cases h
  | _ => cases hchild

theorem at?_of_sameValue (h : p.sameValue q = true) (hnode : p.at? path = some (.node r)) :
    q.at? path = some (.node r) := by
  induction path generalizing p q with
  | nil =>
    obtain rfl := Option.some.inj hnode
    cases q with
    | node other => exact congrArg (some ∘ node) (eq_of_beq h).symm
    | _ => cases h
  | cons step rest ih =>
    rw [at?_cons] at hnode ⊢
    obtain ⟨child, hchild, hrest⟩ := Option.bind_eq_some_iff.mp hnode
    obtain ⟨other, hother, hsame⟩ := child?_of_sameValue h hchild
    rw [hother]
    exact ih hsame hrest

theorem sameValue_ofJson_toJson_iff (p : Property) :
    p.sameValue (ofJson p.toJson) = true ↔ ¬p.HasReference := by
  constructor
  · rintro h ⟨path, r, hnode⟩
    exact not_hasReference_ofJson_toJson p ⟨path, r, at?_of_sameValue h hnode⟩
  · intro h
    rw [ofJson_toJson_of_not_hasReference p h]
    exact sameValue_self p

-- ---------------------------------------------------------------------------
-- What comes back
-- ---------------------------------------------------------------------------

/-- JSON that becomes a tree is the same JSON again. A tree that becomes JSON is the same tree again
but for its references, which come back as the texts that show them, so it is equal to what it was
exactly if it has none. The same tree is decoded from the JSON. -/
theorem conversion_outcome :
    (∀ j : Json, (ofJson j).toJson = j) ∧
      ∀ p : Property,
        (∀ path, ((ofJson p.toJson).at? path).map root = (p.at? path).map fun q => q.root.shown) ∧
        (ofJson p.toJson = p ↔ ¬p.HasReference) ∧
        (p.sameValue (ofJson p.toJson) = true ↔ ¬p.HasReference) ∧
        (Decode.any p.toJson).map ofJson = .ok (ofJson p.toJson) :=
  ⟨toJson_ofJson, fun p =>
    ⟨root_at?_ofJson_toJson p, ofJson_toJson_eq_iff p, sameValue_ofJson_toJson_iff p, rfl⟩⟩

-- ---------------------------------------------------------------------------
-- Through the text
-- ---------------------------------------------------------------------------

/-- With numbers that are read back, as integers are, a tree comes back from the text of its JSON
as it does from the JSON, unless it is nested too deep to be read. -/
theorem ofJson_parse?_compact (h : p.toJson.Regular) :
    (Json.parse? p.toJson.compact).map ofJson =
      if p.toJson.nesting ≤ Json.Reader.depthLimit then some (ofJson p.toJson) else none := by
  rw [Json.parse?_compact h]
  split <;> rfl

theorem ofJson_parse?_compact_nested :
    let r : Reference := { feature := "shop", registration := 0, key := "cart" }
    let half : Number := .double ⟨0x3FE0000000000000⟩
    let p := map [("items", list [node r, number (.integer (-3)), number half]),
      ("name", text "say \"hi\"\n")]
    p.toJson.Regular ∧ p.toJson.nesting ≤ Json.Reader.depthLimit ∧
      (Json.parse? p.toJson.compact).map ofJson =
        some (map [("items", list [text "\x7bcart\x7d", number (.integer (-3)), number half]),
          ("name", text "say \"hi\"\n")]) := by
  intro r half p
  have hinteger : (Number.integer (-3)).ReadsBack :=
    Number.readsBack_integer (by decide) (by decide)
  have hhalf : half.ReadsBack := by
    unfold Number.ReadsBack
    decide +kernel
  have hregular : p.toJson.Regular := by
    refine ⟨?rising, ⟨trivial, hinteger, hhalf, trivial⟩, trivial, trivial⟩
    case rising =>
      refine .cons ?_ (.cons nofun .nil)
      rintro _ (_ | ⟨_, ⟨⟩⟩)
      decide
  have hdepth : p.toJson.nesting ≤ Json.Reader.depthLimit := by decide
  exact ⟨hregular, hdepth, (ofJson_parse?_compact hregular).trans (if_pos hdepth)⟩

/-- A double whose digits are too many for the reader comes back from its text as another one. -/
theorem conversion_drifts :
    let p := number (.double ⟨0x3F53A92A30553262⟩)
    let q := number (.double ⟨0x3F53A92A30553261⟩)
    Json.parse? "0.00120000000000000012" = some p.toJson ∧
      p.toJson.compact = "0.0012000000000000001" ∧
      (Json.parse? p.toJson.compact).map ofJson = some q ∧
      (ofJson p.toJson).sameValue q = false := by
  intro p q
  have hfirst : Json.Token.ofText? "0.00120000000000000012" =
      some [.number (.double ⟨0x3F53A92A30553262⟩)] := by decide +kernel
  have hagain : Json.Token.ofText? "0.0012000000000000001" =
      some [.number (.double ⟨0x3F53A92A30553261⟩)] := by decide +kernel
  have hwritten : p.toJson.compact = "0.0012000000000000001" := by decide +kernel
  refine ⟨?_, hwritten, ?_, by decide⟩
  · rw [Json.parse?, hfirst]
    rfl
  · rw [hwritten, Json.parse?, hagain]
    rfl

end FeatureFlow.Property
