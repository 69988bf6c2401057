/-
Who is on which ride.

A ride is bound to its driver and to its passenger, each under a key of his own that names
his role, so that a driver and a passenger of one name do not meet.  Binding writes the
driver's side first and stops at the first failure.  Unbinding tries both sides whatever
happens and reports which of them is clear.
-/
import Dispatch.Rides.Cache
import Dispatch.Text.Blank

namespace Dispatch

/-- A program that uses the ride cache. -/
abbrev RideProgram (α : Type) : Type := Program RideCall.Reply α

/-- Which sides an unbinding has cleared. -/
structure Unbinding where
  driverCleared : Bool
  passengerCleared : Bool
  deriving DecidableEq

namespace Unbinding

/-- Whether both sides are clear. -/
def isComplete (u : Unbinding) : Bool := u.driverCleared && u.passengerCleared

/-- An unbinding as JSON. -/
def toJson (u : Unbinding) : Json :=
  .object [("driver_cleared", .bool u.driverCleared),
    ("passenger_cleared", .bool u.passengerCleared)]

end Unbinding

/-- An actor and the ride that he is on, if he is. -/
structure ActiveRide where
  actorId : ActorId
  rideId : Option RideId
  deriving DecidableEq

namespace ActiveRide

/-- An actor's ride as JSON. -/
def toJson (r : ActiveRide) : Json :=
  .object [("actor_id", .string r.actorId), ("ride_id", Json.ofOption Json.string r.rideId)]

/-- Reads an actor's ride. -/
def ofDoc : Json.Reader ActiveRide := fun d => do
  let ride := Json.Doc.asOption Json.Doc.asString
  let fs ← d.fields [.of "actor_id" Json.Doc.asString, .of "ride_id" ride .optional]
  return {
    actorId := ← Json.Doc.asString (fs.get "actor_id")
    rideId := ← ride (fs.get "ride_id") }

end ActiveRide

namespace Rides

/-- The key of an actor's binding. -/
def bindingKey (role : Role) (id : ActorId) : String := s!"active_ride:{role.name}:{id}"

/-- Makes a call, and goes on unless it fails. -/
def attempt {α : Type} (c : RideCall) (next : c.Result → RideProgram (Except ServiceError α)) :
    RideProgram (Except ServiceError α) :=
  .call c fun
    | .error e => .done (.error (.cache e))
    | .ok r => next r

/-- Binds a ride to its driver and its passenger. -/
def bind (driver passenger : ActorId) (ride : RideId) (ttl : Lifetime) :
    RideProgram (Except ServiceError Unit) :=
  if Text.isBlank ride then .done (.error (.refused .emptyRide))
  else
    attempt (.set (bindingKey .driver driver) ride ttl) fun _ =>
    attempt (.set (bindingKey .passenger passenger) ride ttl) fun _ =>
    .done (.ok ())

/-- Removes one side of a binding; whether it is clear now. -/
def clear (role : Role) (id : ActorId) : RideProgram Bool :=
  .call (.delete (bindingKey role id)) fun
    | .ok _ => .done true
    | .error _ => .done false

/-- Removes both sides of a binding. -/
def unbind (driver passenger : ActorId) : RideProgram Unbinding := do
  let driverCleared ← clear .driver driver
  let passengerCleared ← clear .passenger passenger
  return { driverCleared, passengerCleared }

/-- The ride that an actor is on. -/
def lookup (role : Role) (id : ActorId) : RideProgram (Except ServiceError (Option RideId)) :=
  attempt (.get (bindingKey role id)) fun ride => .done (.ok ride)

end Rides
end Dispatch
