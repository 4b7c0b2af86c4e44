import FeatureFlow.Orchestrator
import FeatureFlow.Proofs.Decoding

/-!
# Events in messages

An event is read back from the message that it is put into, and the message from its JSON.
A payload arrives as plain JSON and always as a map (`Property.received`), so handling the
message of an event performs its component with that payload.
-/

namespace FeatureFlow

open Decode (Rule met_of_required met_of_defaulted)

theorem Fields.rising_of_keys {fields : Fields α} (h : fields.keys.Pairwise (· < ·)) :
    fields.Rising :=
  List.pairwise_map.mp h

theorem Decode.record_of_met {kind : String} {rules : List Rule} {fields : Json.Object}
    (hrising : fields.Rising) (h : ∀ r ∈ rules, Rule.Met fields r) :
    record kind rules (.object fields) = .ok fields := by
  rw [record, checkFields_of_met hrising h]
  rfl

-- ---------------------------------------------------------------------------
-- Payloads
-- ---------------------------------------------------------------------------

namespace Property

/-- A payload in a message: the fields of a map, none for null, and any other value under
the one field `value`. -/
def sentFields : Property → Json.Object
  | .map fields => toFields fields
  | .null => []
  | other => [("value", other.toJson)]

def received : Property → Property
  | .map fields => ofJson (map fields).toJson
  | .null => map []
  | other => map [("value", ofJson other.toJson)]

theorem ofJson_sentFields (payload : Property) :
    ofJson (.object payload.sentFields) = payload.received := by
  cases payload <;> rfl

end Property

-- ---------------------------------------------------------------------------
-- Messages
-- ---------------------------------------------------------------------------

theorem ServerMessage.decode_toJson (m : ServerMessage) : decode m.toJson = .ok m := by
  let fields : Json.Object := [("name", .text m.name), ("properties", .object m.properties)]
  have hname : Decode.required fields "name" Decode.text = .ok m.name := rfl
  have hproperties : Decode.defaulted fields "properties" [] Decode.object =
      .ok m.properties := rfl
  have hfields : Decode.record "struct ServerMessage" rules m.toJson = .ok fields := by
    refine Decode.record_of_met ?_ ?_
    · exact Fields.rising_of_keys (by decide : ["name", "properties"].Pairwise (· < ·))
    · simp only [rules, List.forall_mem_cons]
      exact ⟨met_of_required hname .required, met_of_defaulted hproperties,
        List.forall_mem_nil _⟩
  simp only [decode, hfields, hname, hproperties, bind, Except.bind, pure, Except.pure]

namespace PerformComponentEvent

theorem wrap_eq_sentFields (payload : Property) : wrap payload = payload.sentFields := by
  cases payload <;> rfl

theorem payloadValue_outbound (feature key : String) (payload : Property) (log : Bool) :
    (outbound feature key payload log).payloadValue = payload.received := by
  rw [payloadValue, outbound, wrap_eq_sentFields, Property.ofJson_sentFields]

theorem decode_toJson (e : PerformComponentEvent) : decode e.toJson = .ok e := by
  have hfeature : Decode.required e.toObject "featurename" Decode.text = .ok e.feature := rfl
  have hcomponent : Decode.required e.toObject "component_keyname" Decode.text =
      .ok e.component := rfl
  have hpayload : Decode.defaulted e.toObject "payload_data" [] Decode.object =
      .ok e.payload := rfl
  have hflow : Decode.defaulted e.toObject "sample_flow" false Decode.boolean =
      .ok e.sampleFlow := rfl
  have hfields : Decode.record "struct PerformComponentEvent" rules e.toJson =
      .ok e.toObject := by
    refine Decode.record_of_met ?_ ?_
    · have hkeys : ["component_keyname", "featurename", "payload_data",
          "sample_flow"].Pairwise (· < ·) := by
        decide
      exact Fields.rising_of_keys hkeys
    · simp only [rules, List.forall_mem_cons]
      exact ⟨met_of_required hfeature .required, met_of_required hcomponent .required,
        met_of_defaulted hpayload, met_of_defaulted hflow, List.forall_mem_nil _⟩
  simp only [decode, hfields, hfeature, hcomponent, hpayload, hflow, bind, Except.bind, pure,
    Except.pure]

theorem parse_toMessage (e : PerformComponentEvent) : e.toMessage.parse decode = .ok e := by
  rw [ServerMessage.parse, show Json.object e.toMessage.properties = e.toJson from rfl,
    decode_toJson]

end PerformComponentEvent

-- ---------------------------------------------------------------------------
-- Handling
-- ---------------------------------------------------------------------------

namespace Orchestrator

open PerformComponentEvent (outbound)

theorem onPerformComponent_toMessage (o : Orchestrator) (e : PerformComponentEvent) :
    o.onPerformComponent e.toMessage =
      (o.performStep e.feature e.payloadValue e.component e.sampleFlow).map (·.1) := by
  simp only [onPerformComponent, PerformComponentEvent.parse_toMessage]

/-- Every event survives its message and the message its JSON. Handling the message of an
event that was made from a payload is performing the component with the payload received. -/
theorem onPerformComponent_outbound :
    (∀ e : PerformComponentEvent, e.toMessage.parse PerformComponentEvent.decode = .ok e ∧
        ServerMessage.decode e.toMessage.toJson = .ok e.toMessage) ∧
      ∀ (o : Orchestrator) (feature key : String) (payload : Property) (log : Bool),
        o.onPerformComponent (outbound feature key payload log).toMessage =
          (o.performStep feature payload.received key log).map (·.1) := by
  constructor
  · intro e
    exact ⟨e.parse_toMessage, ServerMessage.decode_toJson e.toMessage⟩
  · intro o feature key payload log
    rw [onPerformComponent_toMessage, PerformComponentEvent.payloadValue_outbound]
    rfl

end Orchestrator

end FeatureFlow
