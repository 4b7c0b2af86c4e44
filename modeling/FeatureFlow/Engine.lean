import FeatureFlow.Engine.Schedule
import FeatureFlow.Registry.Standard

/-!
# The engine

One context that holds the synchronisation, its background work and the channel
from the server. It keeps the barrier of the last start at hand: a new start and
a shutdown cancel it, and whoever waits for the report takes it.
-/

namespace FeatureFlow

inductive Inbound where
  | none
  | heard
  /-- The channel is there, and nobody listens any more. -/
  | unheard
deriving DecidableEq

structure Engine where
  schedule : Schedule
  settings : Settings
  experiments : List Toggle
  /-- The job of the barrier that is kept at hand. -/
  barrier : Option Nat
  inbound : Inbound

inductive BootstrapError where
  | noHost
  | badHost (reason : FetchError)
  | noCacheDirectory (directory : String) (reason : FileError)
deriving DecidableEq

def BootstrapError.message : BootstrapError → String
  | noHost => "no manifest host configured, set " ++ Settings.baseUrlKey
  | badHost reason => reason.message
  | noCacheDirectory directory _ => "could not create cache dir " ++ directory

structure EngineParts where
  settings : Settings
  catalogue : Catalogue
  link : Link
  experiments : List Toggle
  elements : Elements
  files : Files
  /-- Where manifests come from, else the host of the settings. -/
  fetcher : Option Fetcher

namespace Engine

-- ---------------------------------------------------------------------------
-- Setting up
-- ---------------------------------------------------------------------------

def hostFetcher (settings : Settings) : Except BootstrapError Fetcher :=
  match settings.baseUrl with
  | none => .error .noHost
  | some base =>
    match Fetch.ofHost base with
    | .ok fetcher => .ok fetcher
    | .error e => .error (.badHost e)

def bootstrap (parts : EngineParts) : Except BootstrapError Engine := do
  let fetcher ← match parts.fetcher with
    | some fetcher => pure fetcher
    | none => hostFetcher parts.settings
  let directory := parts.settings.cacheDirectory
  let files ← match parts.files.makeDirectories directory with
    | (.ok (), files) => pure files
    | (.error e, _) => throw (.noCacheDirectory directory e)
  let orchestrator : Orchestrator :=
    { features := ∅, registry := .ofCatalogue parts.catalogue, link := parts.link,
      maxSteps := parts.settings.maxSteps }
  let sync := Sync.start files { directory } orchestrator parts.elements
  return { schedule := .ofSync sync fetcher parts.settings.timing, settings := parts.settings,
           experiments := parts.experiments, barrier := none, inbound := .none }

def sync (e : Engine) : Sync :=
  e.schedule.sync

def phase (e : Engine) : SyncPhase :=
  e.sync.phase

def settle (e : Engine) : Engine :=
  { e with schedule := e.schedule.settle }

-- ---------------------------------------------------------------------------
-- The barrier
-- ---------------------------------------------------------------------------

def cancelBarrier (s : Schedule) : Option Nat → Schedule
  | none => s
  | some number => s.cancel number

/-- Starts a session for the features of the experiments. The answer says
whether there is something to wait for. -/
def startSync (e : Engine) : Engine × Bool :=
  -- the former barrier is cancelled after the new session has begun
  let (schedule, barrier) := e.schedule.setup e.experiments
  ({ e with schedule := cancelBarrier schedule e.barrier, barrier }, barrier.isSome)

def setup (e : Engine) (toggles : List Toggle) : Engine × Bool :=
  let (schedule, barrier) := e.schedule.setup toggles
  ({ e with schedule }, barrier.isSome)

/-- Takes the barrier out of the hand of the engine, which no longer cancels it. -/
def takeBarrier (e : Engine) : Engine × Option Nat :=
  ({ e with barrier := none }, e.barrier)

/-- Waits until a barrier has reported. Its waits never add up to more than the
ceiling. -/
def awaitBarrier (e : Engine) (number : Nat) : Engine :=
  let deadline := e.schedule.now + e.schedule.timing.ceiling
  { e with schedule := e.schedule.pass (fun s => !s.isPending number) deadline }

def readyReported (e : Engine) : Engine :=
  match e.takeBarrier with
  | (e, none) => e
  | (e, some number) => e.awaitBarrier number

-- ---------------------------------------------------------------------------
-- Time
-- ---------------------------------------------------------------------------

def sleep (e : Engine) (milliseconds : Nat) : Engine :=
  let deadline := e.schedule.now + milliseconds
  let schedule := e.schedule.pass (fun _ => false) deadline
  { e with schedule := { schedule with now := deadline } }

def isSynced (s : Schedule) : Bool :=
  s.sync.phase == .synced

/-- Waits until the features are synced, at most for a while. What happens at
the last moment itself comes too late. -/
def waitSynced (e : Engine) (milliseconds : Nat) : Engine × Bool :=
  let deadline := e.schedule.now + milliseconds
  let early :=
    if milliseconds = 0 then e.schedule else e.schedule.pass isSynced (deadline - 1)
  if isSynced early then ({ e with schedule := early }, true)
  else ({ e with schedule := early.moveTo deadline }, false)

-- ---------------------------------------------------------------------------
-- Messages and commands
-- ---------------------------------------------------------------------------

def doing (e : Engine) (f : Sync → Outcome Sync α) : Engine × α :=
  let (schedule, answer) := e.schedule.doing f
  ({ e with schedule }, answer)

def handleIncoming (e : Engine) (m : ServerMessage) : Engine :=
  (e.doing (·.onMessage m)).1

def syncMessage (e : Engine) (m : ServerMessage) : Engine × List String :=
  e.doing fun s => let (s, activated) := s.onSyncMessage m; .quiet s activated

def push (e : Engine) (features : List String) : Engine × List String :=
  e.doing fun s => let (s, activated) := s.push features; .quiet s activated

def trigger (e : Engine) (key : String) : Engine × Nat :=
  e.doing fun s => (s.orchestrating (·.performTrigger key)).map List.length

def park (e : Engine) (action feature : String) : Engine :=
  (e.doing fun s => .quiet { s with elements := s.elements.park action feature } ()).1

def closeLink (e : Engine) : Engine :=
  (e.doing fun s => .quiet s.closeLink ()).1

def listen (e : Engine) : Engine :=
  { e with inbound := .heard }

/-- Sends a message on the channel. The answer says whether somebody listens,
and is none without a channel. -/
def send (e : Engine) (m : ServerMessage) : Engine × Option Bool :=
  match e.inbound with
  | .none => (e, none)
  | .heard => (e.handleIncoming m, some true)
  | .unheard => (e, some false)

def closeInbound (e : Engine) : Engine :=
  { e with inbound := .none }

def shutdown (e : Engine) : Engine :=
  { e with
    schedule := cancelBarrier e.schedule e.barrier
    barrier := none
    inbound := if e.inbound = .heard then .unheard else e.inbound }

end Engine

end FeatureFlow
