import FeatureFlow.Cascade.Written
import FeatureFlow.Orchestrator
import FeatureFlow.Url

/-!
# Settings

Settings come from a source of named texts. The first of them that cannot be
read is the answer, in the order of address, timeout, tick and budget.
-/

namespace FeatureFlow

/-- What a clock counts in. -/
structure ClockUnit where
  perMillisecond : Nat
  perMillisecond_pos : 0 < perMillisecond

def ClockUnit.milliseconds : ClockUnit :=
  { perMillisecond := 1, perMillisecond_pos := Nat.one_pos }

/-- How often the readiness barrier polls and how long it waits. -/
structure BarrierTiming where
  tick : Nat
  ceiling : Nat
  tick_pos : 0 < tick
deriving DecidableEq

/-- A tick of zero would never add up to the ceiling, so no tick is shorter than a
millisecond. -/
def BarrierTiming.of (unit : ClockUnit) (tick ceiling : Nat) : BarrierTiming :=
  { tick := max tick unit.perMillisecond, ceiling
    tick_pos := Nat.lt_of_lt_of_le unit.perMillisecond_pos (Nat.le_max_right ..) }

structure Settings where
  /-- The host of the manifests. -/
  baseUrl : Option Url
  cacheDirectory : String
  syncTimeout : Nat
  tick : Nat
  maxSteps : Nat
  logLevel : String
  logDirectory : String
  collector : Option String

namespace Settings

open Decode (rule)

def baseUrlKey : String := "PROTON_BASE_URL"
def cacheDirectoryKey : String := "PROTON_CACHE_DIR"
def syncTimeoutKey : String := "PROTON_SYNC_TIMEOUT_MS"
def tickKey : String := "PROTON_TICK_MS"
def maxStepsKey : String := "PROTON_MAX_CASCADE_STEPS"
def logLevelKey : String := "PROTON_LOG_LEVEL"
def logDirectoryKey : String := "PROTON_LOG_DIR"
def collectorKey : String := "PROTON_OTEL_ENDPOINT"

def keys : List String :=
  [baseUrlKey, cacheDirectoryKey, syncTimeoutKey, tickKey, maxStepsKey, logLevelKey,
    logDirectoryKey, collectorKey]

def default : Settings :=
  { baseUrl := none, cacheDirectory := "./proton-cache", syncTimeout := 3000, tick := 16,
    maxSteps := Orchestrator.defaultMaxSteps, logLevel := "info", logDirectory := "logs",
    collector := none }

def timing (s : Settings) : BarrierTiming :=
  .of .milliseconds s.tick s.syncTimeout

def rules : List Decode.Rule :=
  [rule "base_url" .nullable (Decode.optional Url.decode), rule "cache_dir" .required Decode.path,
    rule "sync_timeout_ms" .required (Decode.natural "u64"),
    rule "tick_ms" .required (Decode.natural "u64"),
    rule "max_cascade_steps" .required (Decode.natural "usize"),
    rule "log_level" .required Decode.text, rule "log_dir" .required Decode.path,
    rule "otel_endpoint" .nullable (Decode.optional Decode.text)]

def decode (value : Json) : Decoded Settings := do
  let fields ← Decode.record "struct ProtonSettings" rules value
  return { baseUrl := ← Decode.defaulted fields "base_url" none (Decode.optional Url.decode)
           cacheDirectory := ← Decode.required fields "cache_dir" Decode.path
           syncTimeout := ← Decode.required fields "sync_timeout_ms" (Decode.natural "u64")
           tick := ← Decode.required fields "tick_ms" (Decode.natural "u64")
           maxSteps := ← Decode.required fields "max_cascade_steps" (Decode.natural "usize")
           logLevel := ← Decode.required fields "log_level" Decode.text
           logDirectory := ← Decode.required fields "log_dir" Decode.path
           collector :=
             ← Decode.defaulted fields "otel_endpoint" none (Decode.optional Decode.text) }

def toJson (s : Settings) : Json :=
  .record [("base_url", .ofOption Url.toJson s.baseUrl), ("cache_dir", .text s.cacheDirectory),
    ("sync_timeout_ms", .nat s.syncTimeout), ("tick_ms", .nat s.tick),
    ("max_cascade_steps", .nat s.maxSteps), ("log_level", .text s.logLevel),
    ("log_dir", .text s.logDirectory), ("otel_endpoint", .ofOption .text s.collector)]

end Settings

-- ---------------------------------------------------------------------------
-- Settings from texts
-- ---------------------------------------------------------------------------

inductive NumberError where
  | empty
  | invalidDigit
  | tooLarge
deriving DecidableEq

def NumberError.message : NumberError → String
  | empty => "cannot parse integer from empty string"
  | invalidDigit => "invalid digit found in string"
  | tooLarge => "number too large to fit in target type"

inductive SettingsError where
  | badAddress (key value : String) (reason : UrlError)
  | badNumber (key value : String) (reason : NumberError)
  | readOnly
deriving DecidableEq

namespace SettingsError

def invalid (key value reason : String) : String :=
  "setting " ++ key ++ "=`" ++ value ++ "` is invalid: " ++ reason

def message : SettingsError → String
  | badAddress key value reason => invalid key value reason.message
  | badNumber key value reason => invalid key value reason.message
  | readOnly => "settings source is read-only"

end SettingsError

namespace Settings

def numberLimit : Nat := Nat.pow 2 64 - 1

/-- Reads digits from the left; the first one that does not belong or no longer
fits is the answer. -/
def digitsValue (value : Nat) : List Char → Except NumberError Nat
  | [] => .ok value
  | c :: rest =>
    if '0' ≤ c ∧ c ≤ '9' then
      let next := value * 10 + (c.toNat - '0'.toNat)
      if numberLimit < next then .error .tooLarge else digitsValue next rest
    else .error .invalidDigit

/-- A number without a sign, or behind a plus. -/
def parseNumber : List Char → Except NumberError Nat
  | [] => .error .empty
  | ['+'] => .error .invalidDigit
  | '+' :: rest => digitsValue 0 rest
  | cs => digitsValue 0 cs

def number (lookup : String → Option String) (key : String) (missing : Nat) :
    Except SettingsError Nat :=
  match lookup key with
  | none => .ok missing
  | some value =>
    match parseNumber (Text.trim value.toList) with
    | .ok n => .ok n
    | .error reason => .error (.badNumber key value reason)

def address (lookup : String → Option String) (key : String) : Except SettingsError (Option Url) :=
  match lookup key with
  | none => .ok none
  | some value =>
    match Url.parse value with
    | .ok url => .ok (some url)
    | .error reason => .error (.badAddress key value reason)

def ofLookup (lookup : String → Option String) : Except SettingsError Settings := do
  let baseUrl ← address lookup baseUrlKey
  let syncTimeout ← number lookup syncTimeoutKey default.syncTimeout
  let tick ← number lookup tickKey default.tick
  let maxSteps ← number lookup maxStepsKey default.maxSteps
  return { baseUrl, syncTimeout, tick, maxSteps
           cacheDirectory := (lookup cacheDirectoryKey).getD default.cacheDirectory
           logLevel := (lookup logLevelKey).getD default.logLevel
           logDirectory := (lookup logDirectoryKey).getD default.logDirectory
           collector := (lookup collectorKey).filter (· ≠ "") }

end Settings

end FeatureFlow
