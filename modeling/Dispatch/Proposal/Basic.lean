/-
Proposals, and what becomes of an accepted one.

A draft says who is to ride with whom, and where they are.  Entered into the match table
it becomes a proposal with an identifier, a status, two confirmations and the times of its
creation and its last change.  When both sides have confirmed, an event carries what others
need to know about it.
-/
import Dispatch.Location
import Dispatch.Proposal.Status
import Dispatch.Uuid

namespace Dispatch

open Dispatch.Time

/-- The identifier of a driver or a passenger; both come from one name space. -/
abbrev ActorId : Type := String

/-- The identifier of a ride. -/
abbrev RideId : Type := String

/-- The identifier of a proposal. -/
abbrev MatchId : Type := Uuid

/-- A driver and a passenger. -/
abbrev Pair : Type := ActorId × ActorId

/-- A proposal before it is entered. -/
structure Draft where
  driverId : ActorId
  passengerId : ActorId
  driverLocation : Location
  passengerLocation : Location
  targetLocation : Option Location := none

/-- A driver and a passenger who may ride together. -/
structure Proposal where
  id : MatchId
  driverId : ActorId
  passengerId : ActorId
  driverLocation : Location
  passengerLocation : Location
  targetLocation : Option Location
  status : Status
  driverConfirmed : Bool
  passengerConfirmed : Bool
  createdAt : Instant
  updatedAt : Instant

/-- What is announced of an accepted proposal. -/
structure Accepted where
  matchId : MatchId
  driverId : ActorId
  passengerId : ActorId
  driverLocation : Location
  passengerLocation : Location
  targetLocation : Option Location
  acceptedAt : Instant

namespace Draft

/-- Who is to ride with whom. -/
def pair (d : Draft) : Pair := (d.driverId, d.passengerId)

/-- Whether all coordinates are finite. -/
def isFinite (d : Draft) : Bool :=
  d.driverLocation.isFinite && d.passengerLocation.isFinite
    && d.targetLocation.all Location.isFinite

/-- The proposal that a draft becomes: pending, and confirmed by nobody. -/
def toProposal (d : Draft) (id : MatchId) (now : Instant) : Proposal where
  id := id
  driverId := d.driverId
  passengerId := d.passengerId
  driverLocation := d.driverLocation
  passengerLocation := d.passengerLocation
  targetLocation := d.targetLocation
  status := .pending
  driverConfirmed := false
  passengerConfirmed := false
  createdAt := now
  updatedAt := now

end Draft

namespace Proposal

/-- Who rides with whom. -/
def pair (p : Proposal) : Pair := (p.driverId, p.passengerId)

/-- The actor in the given role. -/
def party (p : Proposal) : Role → ActorId
  | .driver => p.driverId
  | .passenger => p.passengerId

/-- Whether the actor in the given role has confirmed. -/
def hasConfirmed (p : Proposal) : Role → Bool
  | .driver => p.driverConfirmed
  | .passenger => p.passengerConfirmed

/-- The confirmations, the driver's first, after the given role has confirmed too. -/
def flagsAfter (p : Proposal) : Role → Bool × Bool
  | .driver => (true, p.passengerConfirmed)
  | .passenger => (p.driverConfirmed, true)

/-- Whether the proposal can still change. -/
def isOpen (p : Proposal) : Bool := !p.status.isTerminal

/-- The event of its acceptance. -/
def accepted (p : Proposal) : Accepted where
  matchId := p.id
  driverId := p.driverId
  passengerId := p.passengerId
  driverLocation := p.driverLocation
  passengerLocation := p.passengerLocation
  targetLocation := p.targetLocation
  acceptedAt := p.updatedAt

@[simp] theorem id_toProposal (d : Draft) (id : MatchId) (now : Instant) :
    (d.toProposal id now).id = id := rfl

@[simp] theorem pair_toProposal (d : Draft) (id : MatchId) (now : Instant) :
    (d.toProposal id now).pair = d.pair := rfl

end Proposal
end Dispatch
