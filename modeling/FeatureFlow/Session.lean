import FeatureFlow.Decode

/-!
# Sync sessions

A session follows every enabled feature from the cache or the fetch to the
report. A feature that fails counts as processed, so it does not hold up the
report, and its failure adds nothing to the ready map.
-/

namespace FeatureFlow

inductive SyncPhase where
  | idle
  | resolving
  /-- The ready list is sent or about to be, and the server has not answered. -/
  | pendingSync
  | synced
deriving DecidableEq

namespace SyncPhase

def name : SyncPhase → String
  | idle => "idle"
  | resolving => "resolving"
  | pendingSync => "pending_sync"
  | synced => "synced"

def decode (value : Json) : Decoded SyncPhase :=
  Decode.named ([idle, resolving, pendingSync, synced].map fun phase => (phase.name, phase)) value

def toJson (phase : SyncPhase) : Json :=
  .text phase.name

end SyncPhase

inductive FeatureState where
  | fetching (version : String)
  | cached (version : String)
  /-- Late where it came after the report. -/
  | fetched (version : String) (late : Bool)
  | failed (version reason : String)
deriving DecidableEq

namespace FeatureState

open Decode (rule)

def isReady : FeatureState → Bool
  | cached _ | fetched _ _ => true
  | fetching _ | failed _ _ => false

def version : FeatureState → String
  | fetching version | cached version | fetched version _ | failed version _ => version

def variants : List (String × String × List Decode.Rule) :=
  let version := rule "version" .required Decode.text
  [("fetching", "Fetching", [version]), ("cached", "Cached", [version]),
    ("fetched", "Fetched", [version, rule "late" .required Decode.boolean]),
    ("failed", "Failed", [version, rule "reason" .required Decode.text])]

def tagged : Json → Decoded (String × String × List Decode.Rule)
  | .text name =>
    match variants.find? (·.1 == name) with
    | some found => .ok found
    | none => .error (.unknownVariant name (variants.map (·.1)))
  | other => Decode.mismatch other "variant identifier"

def ofFields (name : String) (fields : Json.Object) : Decoded FeatureState := do
  let version ← Decode.required fields "version" Decode.text
  match name with
  | "cached" => return cached version
  | "fetched" => return fetched version (← Decode.required fields "late" Decode.boolean)
  | "failed" => return failed version (← Decode.required fields "reason" Decode.text)
  | _ => return fetching version

/-- The state is named by the field `state`, or by the first item of a list. -/
def decode : Json → Decoded FeatureState
  | .object fields =>
    match Fields.get? "state" fields with
    | none => .error (.missingField "state")
    | some tag => do
      let (name, _, rules) ← tagged tag
      let own := Fields.erase "state" fields
      Decode.checkFields rules own
      ofFields name own
  | .array [] => .error (.missingField "state")
  | .array (tag :: items) => do
    let (name, shape, rules) ← tagged tag
    let elements := Decode.elements rules.length
    let (named, rest) ←
      Decode.nameItems ("struct variant FeatureState::" ++ shape ++ " with " ++ elements)
        0 rules items
    if rest.isEmpty then ofFields name (Fields.ofList named)
    else .error (.wrongLength items.length (elements ++ " in sequence"))
  | other => Decode.mismatch other "internally tagged enum FeatureState"

def toJson : FeatureState → Json
  | fetching version => .record [("state", .text "fetching"), ("version", .text version)]
  | cached version => .record [("state", .text "cached"), ("version", .text version)]
  | fetched version late =>
    .record [("state", .text "fetched"), ("version", .text version), ("late", .boolean late)]
  | failed version reason =>
    .record [("state", .text "failed"), ("version", .text version), ("reason", .text reason)]

end FeatureState

structure HeldManifest where
  version : String
  body : String
deriving DecidableEq

structure Session where
  /-- How many features the session waits for. -/
  expected : Nat
  processed : Nat
  /-- Whether the ready list has been taken. -/
  reported : Bool
  /-- The version of every ready feature. -/
  ready : Table String
  manifests : Table HeldManifest
  states : Table FeatureState

namespace Session

def ofExpected (expected : Nat) : Session :=
  { expected, processed := 0, reported := false, ready := ∅, manifests := ∅, states := ∅ }

def markFetching (s : Session) (feature version : String) : Session :=
  { s with states := s.states.insert feature (.fetching version) }

def markReady (s : Session) (feature version body : String) (state : FeatureState) : Session :=
  { s with
    processed := s.processed + 1
    ready := s.ready.insert feature version
    manifests := s.manifests.insert feature { version, body }
    states := s.states.insert feature state }

def markCached (s : Session) (feature version body : String) : Session :=
  s.markReady feature version body (.cached version)

/-- The manifest was fetched. After the report it is kept, but flagged as late. -/
def markFetched (s : Session) (feature version body : String) : Session :=
  s.markReady feature version body (.fetched version s.reported)

def markFailed (s : Session) (feature version reason : String) : Session :=
  { s with
    processed := s.processed + 1
    states := s.states.insert feature (.failed version reason) }

def markReported (s : Session) : Session :=
  { s with reported := true }

def isComplete (s : Session) : Bool :=
  s.expected == 0 || s.expected ≤ s.processed

def manifest? (s : Session) (feature : String) : Option HeldManifest :=
  s.manifests.get? feature

def state? (s : Session) (feature : String) : Option FeatureState :=
  s.states.get? feature

end Session

end FeatureFlow
