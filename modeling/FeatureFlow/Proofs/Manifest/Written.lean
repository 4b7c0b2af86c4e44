import FeatureFlow.Manifest.Definition
import FeatureFlow.Proofs.Decoding

/-!
# Definitions that are read back

A definition is written with the fields that it needs. Where its properties are JSON, as
those of every definition that was read, it is what its written form decodes to
(`ComponentDefinition.decode_toJson` and its siblings).
-/

namespace FeatureFlow

-- ---------------------------------------------------------------------------
-- Properties that are JSON
-- ---------------------------------------------------------------------------

namespace Property

mutual
theorem toJson_ofJson : (j : Json) → toJson (ofJson j) = j
  | .null | .boolean _ | .number _ | .text _ => rfl
  | .array items => congrArg Json.array (toItems_ofItems items)
  | .object fields => congrArg Json.object (toFields_ofFields fields)
theorem toItems_ofItems : (items : List Json) → toItems (ofItems items) = items
  | [] => rfl
  | item :: rest => congr (congrArg List.cons (toJson_ofJson item)) (toItems_ofItems rest)
theorem toFields_ofFields : (fields : List (String × Json)) → toFields (ofFields fields) = fields
  | [] => rfl
  | (key, value) :: rest =>
    congr (congrArg (fun v => List.cons (key, v)) (toJson_ofJson value)) (toFields_ofFields rest)
end

/-- The tree holds no references. -/
def IsJson (p : Property) : Prop :=
  ∃ j, ofJson j = p

theorem IsJson.ofJson_toJson (h : IsJson p) : ofJson p.toJson = p := by
  obtain ⟨j, rfl⟩ := h
  rw [toJson_ofJson]

theorem ofFields_insert (key : String) (value : Json) (fields : List (String × Json)) :
    ofFields (Fields.insert key value fields) =
      Fields.insert key (ofJson value) (ofFields fields) := by
  induction fields with
  | nil => rfl
  | cons head rest ih =>
    obtain ⟨k, v⟩ := head
    by_cases hlt : key < k
    · simp [Fields.insert, ofFields, hlt]
    · by_cases heq : k = key <;> simp [Fields.insert, ofFields, hlt, heq, ih]

theorem IsJson.insert? (h : IsJson p) (hinsert : p.insert? key (.text value) = some q) :
    IsJson q := by
  obtain ⟨j, rfl⟩ := h
  cases j with
  | null =>
    obtain rfl := Option.some.inj hinsert
    exact ⟨.object [(key, .text value)], rfl⟩
  | object fields =>
    obtain rfl := Option.some.inj hinsert
    exact ⟨.object (Fields.insert key (.text value) fields),
      congrArg map (ofFields_insert key (.text value) fields)⟩
  | _ => cases hinsert

theorem insert?_of_insert? {p q : Property} (h : p.insert? key value = some q) :
    q.insert? key value = some q := by
  cases p with
  | null =>
    obtain rfl := Option.some.inj h
    simp [insert?, Fields.insert]
  | map fields =>
    obtain rfl := Option.some.inj h
    exact congrArg (some ∘ map) (Fields.insert_insert key value fields)
  | _ => cases h

end Property

-- ---------------------------------------------------------------------------
-- Nodes
-- ---------------------------------------------------------------------------

namespace NodeDefinition

open Decode (Rule met_of_required met_of_defaulted)
open Fallible (bind_ok)

variable {d : NodeDefinition} {fields : Json.Object}

theorem met_of_ofFields (h : ofFields fields = .ok d) : ∀ r ∈ rules, Rule.Met fields r := by
  obtain ⟨key, hkey, h⟩ := bind_ok.mp h
  obtain ⟨typeName, htype, h⟩ := bind_ok.mp h
  obtain ⟨properties, hproperties, h⟩ := bind_ok.mp h
  obtain ⟨owner, howner, -⟩ := bind_ok.mp h
  intro r hr
  simp only [rules, List.mem_cons, List.not_mem_nil, or_false] at hr
  rcases hr with rfl | rfl | rfl | rfl
  · exact met_of_required hkey .required
  · exact met_of_defaulted htype
  · exact met_of_defaulted hproperties
  · exact met_of_defaulted howner

theorem isJson_of_ofFields (h : ofFields fields = .ok d) : d.properties.IsJson := by
  obtain ⟨key, -, h⟩ := bind_ok.mp h
  obtain ⟨typeName, -, h⟩ := bind_ok.mp h
  obtain ⟨properties, -, h⟩ := bind_ok.mp h
  obtain ⟨owner, -, h⟩ := bind_ok.mp h
  obtain rfl := Except.ok.inj h
  exact ⟨properties, rfl⟩

structure WrittenIn (d : NodeDefinition) (fields : Json.Object) : Prop where
  key : Fields.get? "keyName" fields = some (.text d.key)
  typeName : Fields.get? "typeName" fields = some (.text d.typeName)
  properties : Fields.get? "props" fields =
    if d.properties.isNull then none else some d.properties.toJson
  owner : Fields.get? "owner" fields = d.owner.map .text

theorem WrittenIn.ofFields_eq (h : d.WrittenIn fields) (hjson : d.properties.IsJson) :
    ofFields fields = .ok d := by
  have hproperties : Decode.defaulted fields "props" .null Decode.any = .ok d.properties.toJson := by
    rw [Decode.defaulted, h.properties]
    cases hnull : d.properties <;> simp [Property.isNull, Decode.any, Property.toJson]
  have howner : Decode.defaulted fields "owner" none (Decode.optional Decode.text) =
      .ok d.owner := by
    rw [Decode.defaulted, h.owner]
    cases d.owner <;> rfl
  simp only [ofFields, Decode.required, h.key, Decode.defaulted, h.typeName] at hproperties howner ⊢
  simp only [Decode.text, hproperties, howner, bind, Except.bind, pure, Except.pure,
    hjson.ofJson_toJson]

theorem get?_present (key name : String) (write : α → Json) (value : Option α) :
    Fields.get? key (present name write value) = if name = key then value.map write else none := by
  cases value <;> simp [present, Fields.get?]

theorem reverse_present (name : String) (write : α → Json) (value : Option α) :
    (present name write value).reverse = present name write value := by
  cases value <;> rfl

theorem reverse_toFields (d : NodeDefinition) :
    d.toFields.reverse = present "owner" .text d.owner ++
      (present "props" id (if d.properties.isNull then none else some d.properties.toJson) ++
        [("typeName", .text d.typeName), ("keyName", .text d.key)]) := by
  unfold toFields
  rw [List.reverse_append, List.reverse_append, reverse_present]
  cases d.properties.isNull <;> rfl

theorem writtenIn_ofList (d : NodeDefinition) (more : List (String × Json))
    (hmore : ∀ r ∈ rules, Fields.get? r.name more.reverse = none) :
    d.WrittenIn (Fields.ofList (d.toFields ++ more)) := by
  have hlookup (name : String) (h : Fields.get? name more.reverse = none) :
      Fields.get? name (Fields.ofList (d.toFields ++ more)) =
        Fields.get? name d.toFields.reverse := by
    rw [Fields.get?_ofList_append, h, Option.none_or]
  simp only [rules, List.forall_mem_cons] at hmore
  obtain ⟨hkey, htype, hproperties, howner, -⟩ := hmore
  refine ⟨(hlookup _ hkey).trans ?_, (hlookup _ htype).trans ?_,
    (hlookup _ hproperties).trans ?_, (hlookup _ howner).trans ?_⟩
  all_goals simp [reverse_toFields, Fields.get?_append, get?_present, Fields.get?, Decode.rule]

theorem extended_record {own : List Rule} (hown : ∀ r ∈ own, Rule.Met fields r)
    (hnode : ofFields fields = .ok d) (hrising : fields.Rising) (kind : String) :
    Decode.extended kind own rules (.object fields) = .ok fields := by
  simp only [Decode.extended, Decode.checkFields_of_met hrising hown,
    Decode.checkFields_of_met hrising (met_of_ofFields hnode)]
  rfl

end NodeDefinition

-- ---------------------------------------------------------------------------
-- Entries
-- ---------------------------------------------------------------------------

open Decode (met_of_defaulted)
open Fallible (bind_ok)
open NodeDefinition (get?_present reverse_present reverse_toFields)

theorem defaulted_present {fields : Json.Object} {value : Option String}
    (h : Fields.get? name fields = value.map .text) :
    Decode.defaulted fields name none (Decode.optional Decode.text) = .ok value := by
  rw [Decode.defaulted, h]
  cases value <;> rfl

theorem ComponentDefinition.isJson_of_decode (h : decode value = .ok d) :
    d.node.properties.IsJson := by
  obtain ⟨fields, -, h⟩ := bind_ok.mp h
  obtain ⟨node, hnode, h⟩ := bind_ok.mp h
  obtain ⟨provider, -, h⟩ := bind_ok.mp h
  obtain ⟨outputs, -, h⟩ := bind_ok.mp h
  obtain ⟨visible, -, h⟩ := bind_ok.mp h
  obtain rfl := Except.ok.inj h
  exact NodeDefinition.isJson_of_ofFields hnode

theorem ComponentDefinition.decode_toJson {d : ComponentDefinition} (h : d.node.properties.IsJson) :
    decode d.toJson = .ok d := by
  let own := NodeDefinition.present "providerKey" .text d.provider ++
    [("outputs", .ofTable .texts d.outputs), ("devPanelVisible", .boolean d.devPanelVisible)]
  let fields := Fields.ofList (d.node.toFields ++ own)
  have hjson : d.toJson = .object fields := by
    simp [toJson, fields, own, Json.record]
  have hnode : NodeDefinition.ofFields fields = .ok d.node := by
    refine (d.node.writtenIn_ofList own ?_).ofFields_eq h
    simp [own, NodeDefinition.rules, Decode.rule, reverse_present, get?_present, Fields.get?]
  have hlookup (name : String) : Fields.get? name fields =
      (Fields.get? name own.reverse).or (Fields.get? name d.node.toFields.reverse) :=
    Fields.get?_ofList_append name d.node.toFields own
  have hprovider : Decode.defaulted fields "providerKey" none (Decode.optional Decode.text) =
      .ok d.provider := by
    refine defaulted_present ((hlookup _).trans ?_)
    simp [own, Fields.get?_append, reverse_toFields, reverse_present, get?_present, Fields.get?]
  have houtputs : Decode.defaulted fields "outputs" ∅ decodeOutputs = .ok d.outputs := by
    have hvalue : Fields.get? "outputs" fields = some (.ofTable .texts d.outputs) := by
      simp [hlookup, own, reverse_present, Fields.get?]
    rw [Decode.defaulted, hvalue]
    exact Decode.table_ofTable _ Decode.list_texts d.outputs
  have hvisible : Decode.defaulted fields "devPanelVisible" false Decode.boolean =
      .ok d.devPanelVisible := by
    have hvalue : Fields.get? "devPanelVisible" fields = some (.boolean d.devPanelVisible) := by
      simp [hlookup, own, reverse_present, Fields.get?]
    rw [Decode.defaulted, hvalue]
    rfl
  have hfields : Decode.extended "struct ComponentDefinition" rules NodeDefinition.rules d.toJson =
      .ok fields := by
    rw [hjson]
    refine NodeDefinition.extended_record ?_ hnode (Fields.rising_ofList _) _
    simp only [rules, List.forall_mem_cons]
    exact ⟨met_of_defaulted hprovider, met_of_defaulted houtputs, met_of_defaulted hvisible,
      List.forall_mem_nil _⟩
  simp only [decode, hfields, hnode, hprovider, houtputs, hvisible, bind, Except.bind, pure,
    Except.pure]

theorem DataObjectDefinition.isJson_of_decode (h : decode value = .ok d) :
    d.node.properties.IsJson := by
  obtain ⟨fields, -, h⟩ := bind_ok.mp h
  obtain ⟨node, hnode, h⟩ := bind_ok.mp h
  obtain ⟨provider, -, h⟩ := bind_ok.mp h
  obtain rfl := Except.ok.inj h
  exact NodeDefinition.isJson_of_ofFields hnode

theorem DataObjectDefinition.decode_toJson {d : DataObjectDefinition}
    (h : d.node.properties.IsJson) : decode d.toJson = .ok d := by
  let own := NodeDefinition.present "providerKey" Json.text d.provider
  let fields := Fields.ofList (d.node.toFields ++ own)
  have hnode : NodeDefinition.ofFields fields = .ok d.node := by
    refine (d.node.writtenIn_ofList own ?_).ofFields_eq h
    simp [own, NodeDefinition.rules, Decode.rule, reverse_present, get?_present]
  have hprovider : Decode.defaulted fields "providerKey" none (Decode.optional Decode.text) =
      .ok d.provider := by
    refine defaulted_present ?_
    simp [fields, own, Fields.get?_ofList_append, Fields.get?_append, reverse_toFields,
      reverse_present, get?_present, Fields.get?]
  have hfields : Decode.extended "struct DataObjectDefinition" rules NodeDefinition.rules d.toJson =
      .ok fields := by
    refine NodeDefinition.extended_record ?_ hnode (Fields.rising_ofList _) _
    simp only [rules, List.forall_mem_cons]
    exact ⟨met_of_defaulted hprovider, List.forall_mem_nil _⟩
  simp only [decode, hfields, hnode, hprovider, bind, Except.bind, pure, Except.pure]

theorem ProviderDefinition.isJson_of_decode (h : decode value = .ok d) :
    d.node.properties.IsJson := by
  obtain ⟨fields, -, h⟩ := bind_ok.mp h
  obtain ⟨node, hnode, h⟩ := bind_ok.mp h
  obtain rfl := Except.ok.inj h
  exact NodeDefinition.isJson_of_ofFields hnode

theorem ProviderDefinition.decode_toJson {d : ProviderDefinition} (h : d.node.properties.IsJson) :
    decode d.toJson = .ok d := by
  let fields := Fields.ofList (d.node.toFields ++ [])
  have hjson : d.toJson = .object fields := by
    simp [toJson, NodeDefinition.toJson, fields, Json.record]
  have hnode : NodeDefinition.ofFields fields = .ok d.node :=
    (d.node.writtenIn_ofList [] fun _ _ => rfl).ofFields_eq h
  have hfields : Decode.extended "struct ProviderDefinition" [] NodeDefinition.rules d.toJson =
      .ok fields := by
    rw [hjson]
    exact NodeDefinition.extended_record (List.forall_mem_nil _) hnode (Fields.rising_ofList _) _
  simp only [decode, hfields, hnode, bind, Except.bind, pure, Except.pure]

end FeatureFlow
