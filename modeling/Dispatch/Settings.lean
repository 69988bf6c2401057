/-
Settings from the environment.

Each setting has a variable of its own and a value for when the variable is not set.  A
variable whose value is not UTF-8 counts as not set.  The variables are looked at one after
the other, and the first one that makes no sense is reported by name.

Two settings must not be zero: the room for events and the time between sweeps.  The search
radius must be finite and not negative.
-/
import Dispatch.Decimal.Reading
import Dispatch.Service.Basic
import Dispatch.Text.Utf8

namespace Dispatch

open Dispatch.Decimal

/-- The environment: the value of each variable that is set. -/
abbrev Environment : Type := String → Option (List UInt8)

/-- The form of log lines. -/
inductive LogFormat where
  | compact
  | json
  deriving DecidableEq, Repr

/-- The name of a form. -/
def LogFormat.name : LogFormat → String
  | compact => "compact"
  | json => "json"

/-- What is wrong with a variable. -/
inductive SettingFault where
  | unreadable (key : String) (fault : NumberFault)
  /-- zero where there has to be something -/
  | zero (key : String)
  | badRadius (km : Float)
  | unknownFormat (value : String)

/-- What is wrong, in words. -/
def SettingFault.message : SettingFault → String
  | unreadable key fault => s!"invalid {key}: {fault.message}"
  | zero key => s!"invalid {key}: must be > 0"
  | badRadius km => s!"invalid DEFAULT_SEARCH_RADIUS_KM: {positional km}"
  | unknownFormat value => s!"invalid LOG_FORMAT: {value}, expected compact/json"

/-- What is wrong, as an error of the service. -/
def SettingFault.toError (f : SettingFault) : ServiceError := .stated .internal f.message

/-- How a service is set up. -/
structure Settings where
  httpPort : Nat
  logLevel : String
  logFormat : LogFormat
  /-- for how many events the queue and the feed have room -/
  eventBuffer : Nat
  /-- how long a ride is bound unless the request says so, in seconds -/
  rideSeconds : Nat
  /-- how far a search reaches unless the request says so, in kilometres -/
  searchRadius : Float
  /-- for how long a location is fresh, in seconds; zero for ever -/
  staleSeconds : Nat
  /-- the time between sweeps, in seconds -/
  sweepSeconds : Nat
  databaseUrl : Option String

namespace Settings

/-- The largest number of 16 bits. -/
def max16 : Nat := 2 ^ 16 - 1

/-- The largest number of 64 bits. -/
def max64 : Nat := 2 ^ 64 - 1

/-- The value of a variable, if it is set to a text. -/
def text? (env : Environment) (key : String) : Option String :=
  (env key).bind Text.utf8?

/-- The number that a variable is set to. -/
def numberOr {α : Type} (read : String → Except NumberFault α) (env : Environment)
    (key : String) (unset : α) : Except SettingFault α :=
  match text? env key with
  | some s => (read s).mapError (.unreadable key)
  | none => .ok unset

/-- The whole number that a variable is set to. -/
def wholeOr (most : Nat) (env : Environment) (key : String) (unset : Nat) :
    Except SettingFault Nat := numberOr (readWhole most) env key unset

/-- The whole number, not zero, that a variable is set to. -/
def positiveOr (most : Nat) (env : Environment) (key : String) (unset : Nat) :
    Except SettingFault Nat := do
  let n ← wholeOr most env key unset
  if n = 0 then .error (.zero key) else .ok n

/-- The form of log lines that is chosen. -/
def formatIn (env : Environment) : Except SettingFault LogFormat :=
  match text? env "LOG_FORMAT" with
  | none => .ok .compact
  | some s =>
    if s = "json" then .ok .json
    else if s = "compact" then .ok .compact
    else .error (.unknownFormat s)

/-- The search radius that is chosen. -/
def radiusIn (env : Environment) : Except SettingFault Float := do
  let km ← numberOr readFloat env "DEFAULT_SEARCH_RADIUS_KM" 5.0
  if !km.isFinite || km < 0 then .error (.badRadius km) else .ok km

/-- Reads the settings. -/
def ofEnvironment (env : Environment) : Except SettingFault Settings := do
  let logFormat ← formatIn env
  let searchRadius ← radiusIn env
  let sweepSeconds ← positiveOr max64 env "AVAILABILITY_SWEEP_INTERVAL_SECS" 60
  let eventBuffer ← positiveOr max64 env "EVENT_BUFFER_SIZE" 1024
  let httpPort ← wholeOr max16 env "HTTP_PORT" 3000
  let rideSeconds ← wholeOr max64 env "ACTIVE_RIDE_TTL_SECS" 86400
  let staleSeconds ← wholeOr max64 env "AVAILABILITY_STALE_SECS" 0
  return {
    httpPort, logFormat, eventBuffer, rideSeconds, searchRadius, staleSeconds, sweepSeconds
    logLevel := (text? env "LOG_LEVEL").getD "info"
    databaseUrl := (text? env "DATABASE_URL").filter fun url => !url.isEmpty }

/-- What is chosen for the service itself. -/
def options (s : Settings) : Options where
  eventBuffer := s.eventBuffer
  rideLifetime := { seconds := s.rideSeconds }
  searchRadius := s.searchRadius

end Settings
end Dispatch
