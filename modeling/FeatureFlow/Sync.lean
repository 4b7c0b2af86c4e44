import FeatureFlow.Elements
import FeatureFlow.Fetch
import FeatureFlow.Outcome
import FeatureFlow.Orchestrator
import FeatureFlow.Session
import FeatureFlow.Toggle

/-!
# Synchronising features

A setup starts a session for the enabled features: what the cache holds is ready
at once, the rest is fetched. When the barrier resolves, the ready list goes to
the server, and the server's push activates features from the manifests of the
current session. Fetches and barriers of sessions that were replaced go on, but
only the current session can be finished.
-/

namespace FeatureFlow

structure Sync where
  files : Files
  cache : Cache
  orchestrator : Orchestrator
  elements : Elements
  /-- Every session begun so far, in order. -/
  sessions : List Session
  /-- The number of the running session. -/
  current : Option Nat
  phase : SyncPhase

namespace Sync

def start (files : Files) (cache : Cache) (orchestrator : Orchestrator) (elements : Elements) :
    Sync :=
  { files, cache, orchestrator, elements, sessions := [], current := none, phase := .idle }

-- ---------------------------------------------------------------------------
-- Sessions
-- ---------------------------------------------------------------------------

def session? (s : Sync) (number : Nat) : Option Session :=
  s.sessions[number]?

def currentSession? (s : Sync) : Option Session :=
  s.current.bind s.session?

def updateSession (s : Sync) (number : Nat) (f : Session → Session) : Sync :=
  { s with sessions := s.sessions.modify number f }

/-- Ends a session, unless a newer one has replaced it. -/
def finish (s : Sync) (number : Nat) : Sync :=
  if s.current = some number then { s with current := none, phase := .synced } else s

-- ---------------------------------------------------------------------------
-- Setting up
-- ---------------------------------------------------------------------------

structure Wanted where
  feature : String
  version : String
deriving DecidableEq

def resolve (number : Nat) (s : Sync) (t : Toggle) : Sync × Option Wanted :=
  let (body, files) := s.cache.read s.files t.name t.version
  let s := { s with files }
  match body with
  | some body => (s.updateSession number (·.markCached t.name t.version body), none)
  | none =>
    (s.updateSession number (·.markFetching t.name t.version), some ⟨t.name, t.version⟩)

def resolveAll (number : Nat) : Sync → List Toggle → Sync × List Wanted
  | s, [] => (s, [])
  | s, t :: rest =>
    let (s, wanted) := s.resolve number t
    let (s, others) := resolveAll number s rest
    (s, wanted.toList ++ others)

/-- What a setup leaves to be done in the background. -/
structure Started where
  session : Nat
  wanted : List Wanted
  /-- Whether there is a barrier to wait for. -/
  barrier : Bool

def enabled (toggles : List Toggle) : List Toggle :=
  toggles.filter (·.inExperiment)

/-- Starts a session for the enabled features. Without any it is finished at once. -/
def setup (s : Sync) (toggles : List Toggle) : Sync × Started :=
  let wantedToggles := enabled toggles
  -- the newest session is the current one, whatever the older ones still do
  let number := s.sessions.length
  let s := { s with
    sessions := s.sessions ++ [.ofExpected wantedToggles.length]
    current := some number
    phase := .resolving }
  if wantedToggles.isEmpty then (s.finish number, ⟨number, [], false⟩)
  else
    let (s, wanted) := resolveAll number s wantedToggles
    ({ s with phase := .pendingSync }, ⟨number, wanted, true⟩)

-- ---------------------------------------------------------------------------
-- Fetches and the report
-- ---------------------------------------------------------------------------

def cleanUp (s : Sync) (w : Wanted) : Sync :=
  { s with files := (s.cache.removeStale s.files w.feature w.version).2 }

/-- Stores a body in the cache, where that is possible. -/
def store (s : Sync) (w : Wanted) (body : String) : Sync :=
  { s with files := (s.cache.write s.files w.feature w.version body).2 }

def fetched (s : Sync) (number : Nat) (w : Wanted) (result : Except FetchError String) : Sync :=
  match result with
  | .ok body =>
    (s.store w body).updateSession number (·.markFetched w.feature w.version body)
  | .error e => s.updateSession number (·.markFailed w.feature w.version e.message)

def isComplete (s : Sync) (number : Nat) : Bool :=
  match s.session? number with
  | some session => session.isComplete
  | none => true

/-- Sends the ready list of a session. With an empty one there is nothing to
wait for. -/
def report (s : Sync) (number : Nat) : Outcome Sync Unit :=
  match s.session? number with
  | none => .quiet s ()
  | some session =>
    let reported := s.updateSession number (·.markReported)
    let after := if session.ready.entries.isEmpty then reported.finish number else reported
    { Outcome.quiet after () with
      sent := (s.orchestrator.link.send (.readyList session.ready)).sent }

-- ---------------------------------------------------------------------------
-- The push of the server
-- ---------------------------------------------------------------------------

def activate (session : Option Session) (o : Orchestrator) (feature : String) :
    Option Orchestrator :=
  match session.bind (·.manifest? feature) with
  | none => none
  | some held =>
    match Manifest.parse feature held.body with
    | .ok manifest => some (o.register manifest)
    | .error _ => none

def activateAll (session : Option Session) : Orchestrator → List String →
    Orchestrator × List String
  | o, [] => (o, [])
  | o, feature :: rest =>
    match activate session o feature with
    | none => activateAll session o rest
    | some o =>
      let (o, names) := activateAll session o rest
      (o, feature :: names)

def push (s : Sync) (features : List String) : Sync × List String :=
  let (orchestrator, activated) := activateAll s.currentSession? s.orchestrator features
  let s := { s with orchestrator, elements := s.elements.wake activated }
  match s.current with
  | some number => (s.finish number, activated)
  | none => ({ s with phase := .synced }, activated)

def onSyncMessage (s : Sync) (m : ServerMessage) : Sync × List String :=
  match m.parse ActiveFeaturesPush.decode with
  | .ok p => s.push p.features
  | .error _ => (s, [])

-- ---------------------------------------------------------------------------
-- Messages
-- ---------------------------------------------------------------------------

def orchestrating (s : Sync) (f : Orchestrator → Outcome Orchestrator α) : Outcome Sync α :=
  (f s.orchestrator).lift fun orchestrator => { s with orchestrator }

/-- Takes any message of the server. Unknown ones are ignored. -/
def onMessage (s : Sync) (m : ServerMessage) : Outcome Sync Unit :=
  if m.name = ServerMessage.syncFeatures then .quiet (s.onSyncMessage m).1 ()
  else if m.name = ServerMessage.performComponent then
    (s.orchestrating (·.onPerformComponent m)).map fun _ => ()
  else if m.name = ServerMessage.dataUpdated then
    (s.orchestrating (·.onDataUpdated m)).map fun _ => ()
  else .quiet s ()

def closeLink (s : Sync) : Sync :=
  { s with orchestrator := { s.orchestrator with
      link := if s.orchestrator.link = .connected then .closed else s.orchestrator.link } }

end Sync

end FeatureFlow
