/-
Availability as the service offers it, and the sweep.

Whoever becomes available or unavailable through the service changes the size of his pool,
and the count of it is looked up again as soon as the change is made.  When the change or
the look-up fails, the count stays as it was.

A sweep removes from each pool those who were last seen too long ago and looks the size of
the pool up again, whether or not the removal failed.  How long ago is too long is a length
of time; taken from the present it may lead out of the calendar, and then the sweep stops.
-/
import Dispatch.Availability.Pool
import Dispatch.Service.Basic

namespace Dispatch

open Dispatch.Time

/-- A point in time that would lie outside the calendar. -/
inductive Overflow where
  | afterAddition
  | afterSubtraction
  deriving DecidableEq, Repr

/-- What is said of a point in time outside the calendar. -/
def Overflow.message : Overflow → String
  | afterAddition => "`DateTime + TimeDelta` overflowed"
  | afterSubtraction => "`DateTime - TimeDelta` overflowed"

namespace Service

/-- Reads the clock. -/
def clock : ServiceProgram Instant := Program.ask ServiceCall.clock

/-- Looks up how many actors are available in a pool, and takes the number down. -/
def refreshPoolSize (pool : Role) : ServiceProgram Unit :=
  (onAvailability (Availability.poolSize pool)).bind fun
    | .ok n => .call (.count (.poolSize pool n)) .done
    | .error _ => .done ()

/-- Makes an actor available as of now. -/
def addAvailable (pool : Role) (id : ActorId) (l : Location) :
    ServiceProgram (Except ServiceError Unit) :=
  clock.bind fun now => onAvailability (Availability.add now pool id l)

/-- Goes on with the size of a pool if a change of the pool has been made. -/
def thenRefresh (pool : Role) (change : ServiceProgram (Except ServiceError Unit)) :
    ServiceProgram (Except ServiceError Unit) :=
  change.bind fun
    | .error e => .done (.error e)
    | .ok _ => (refreshPoolSize pool).bind fun _ => .done (.ok ())

/-- Removes the actors of a pool that were last seen longer ago than `age`. -/
def prune (age : Span) (pool : Role) :
    ServiceProgram (Except Overflow (Except ServiceError (List ActorId))) :=
  clock.bind fun now =>
    match now.sub? age with
    | none => .done (.error .afterSubtraction)
    | some cutoff => (onAvailability (Availability.prune cutoff pool)).bind fun r => .done (.ok r)

/-- Sweeps some pools in turn. -/
def sweepPools (age : Span) : List Role → ServiceProgram (Except Overflow Unit)
  | [] => .done (.ok ())
  | pool :: rest => (prune age pool).bind fun
    | .error o => .done (.error o)
    | .ok _ => (refreshPoolSize pool).bind fun _ => sweepPools age rest

/-- Sweeps both pools. -/
def sweep (age : Span) : ServiceProgram (Except Overflow Unit) := sweepPools age Role.all

/-- A sweeper that has just been started, with so many seconds between its sweeps: it sweeps at
once, and it goes on running unless that fails.  With no time in between it does not start. -/
def startSweeper (age : Span) (seconds : Nat) : ServiceProgram Bool :=
  if seconds = 0 then .done false
  else (sweep age).bind fun
    | .ok _ => .done true
    | .error _ => .done false

end Service
end Dispatch
