import FeatureFlow.CommandLine.Effect

/-!
# Synchronising against a loopback server

The server at the other end activates whatever the client reports ready, so a
run shows which of the features can be fetched and what their components send.
-/

namespace FeatureFlow.CommandLine

/-- The server at the other end activates whatever it is told to be ready, and
shows every other message. -/
def serve (e : Engine) (m : ServerMessage) : Engine × List String :=
  match ServerMessage.ready? m with
  | some features => ((e.send (.activeFeatures features)).1, [])
  | none => (e, [sentLine m])

def serveAll : Engine → List ServerMessage → Engine × List String
  | e, [] => (e, [])
  | e, m :: rest =>
    let (e, shown) := serve e m
    let (e, others) := serveAll e rest
    (e, shown ++ others)

def parts (settings : Settings) (files : Files) (toggles : List Toggle)
    (directory : Option String) : EngineParts :=
  { settings, files, catalogue := .builtIn, link := .connected, experiments := toggles
    elements := .empty, fetcher := directory.map Fetch.ofDirectory }

def activeLine (e : Engine) : String :=
  let features := e.sync.orchestrator.activeFeatures
  "active features: " ++ if features.isEmpty then "none" else Text.join ", " features

def triggerLine (trigger : String) (count : Nat) : String :=
  "trigger `" ++ trigger ++ "` started " ++ toString count ++ " component(s)"

def triggered (e : Engine) (trigger : String) : List String :=
  let (after, count) := e.trigger trigger
  triggerLine trigger count ::
    (serveAll after (after.schedule.sent.drop e.schedule.sent.length)).2

/-- Waits for the server. Without any time to wait, its answer comes too late. -/
def awaited (e : Engine) (wait : Nat) : (Engine × List String) × Bool :=
  let (served, shown) := serveAll e e.schedule.sent
  let (synced, inTime) := (if wait = 0 then e else served).waitSynced (1000 * wait)
  ((synced, shown), inTime)

def sync (settings : Settings) (files : Files) (toggles : List Toggle)
    (directory trigger : Option String) (wait : Nat) : Effect :=
  match Engine.bootstrap (parts settings files toggles directory) with
  | .error reason => .failing files (.engine reason)
  | .ok engine =>
    let (started, waits) := engine.listen.startSync
    let reported := (if waits then started.readyReported else started).settle
    let ((synced, shown), inTime) := awaited reported wait
    if inTime then
      .printing synced.sync.files
        (shown ++ activeLine synced :: (trigger.map (triggered synced)).getD [])
    else { printed := shown, failure := some .noAnswer, files := synced.sync.files }

end FeatureFlow.CommandLine
