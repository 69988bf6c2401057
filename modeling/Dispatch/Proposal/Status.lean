/-
Roles, and where a proposal stands.

Two actors take part in a proposal, a driver and a passenger.  It is pending until one of
them confirms, accepted when both have, and it may be rejected while it is open.  Accepted
and rejected are final.  What the confirmations alone say about the status is
`Status.ofFlags`; it never says rejected.
-/
import Dispatch.Json.Decode

namespace Dispatch

/-- The part that an actor takes. -/
inductive Role where
  | driver
  | passenger
  deriving DecidableEq, Repr

namespace Role

/-- Both roles, the driver's first. -/
def all : List Role := [driver, passenger]

/-- The role of somebody who is or is not the driver. -/
def ofIsDriver (isDriver : Bool) : Role := if isDriver then driver else passenger

/-- The name of a role. -/
def name : Role → String
  | driver => "driver"
  | passenger => "passenger"

/-- The role with the given name. -/
def ofName? (s : String) : Option Role := all.find? fun r => r.name == s

/-- Reads a role. -/
def ofDoc : Json.Reader Role := Json.Doc.asName ofName?

theorem ofName?_name (r : Role) : ofName? r.name = some r := by cases r <;> decide

end Role

/-- Where a proposal stands. -/
inductive Status where
  | pending
  | driverConfirmed
  | passengerConfirmed
  | accepted
  | rejected
  deriving DecidableEq, Repr

namespace Status

/-- All states of a proposal. -/
def all : List Status := [pending, driverConfirmed, passengerConfirmed, accepted, rejected]

/-- The states in which a proposal can still change. -/
def openStates : List Status := [pending, driverConfirmed, passengerConfirmed]

/-- What the two confirmations say about the status. -/
def ofFlags (driverConfirmed passengerConfirmed : Bool) : Status :=
  match driverConfirmed, passengerConfirmed with
  | false, false => pending
  | true, false => .driverConfirmed
  | false, true => .passengerConfirmed
  | true, true => accepted

/-- Whether the status is final. -/
def isTerminal : Status → Bool
  | accepted | rejected => true
  | _ => false

/-- The name of a status. -/
def name : Status → String
  | pending => "PENDING"
  | driverConfirmed => "DRIVER_CONFIRMED"
  | passengerConfirmed => "PASSENGER_CONFIRMED"
  | accepted => "ACCEPTED"
  | rejected => "REJECTED"

/-- The status with the given name. -/
def ofName? (s : String) : Option Status := all.find? fun t => t.name == s

/-- What is said about a text that names no status. -/
def unknownMessage (s : String) : String := s!"unknown match status: {s}"

/-- Reads a status. -/
def ofDoc : Json.Reader Status := Json.Doc.asName ofName?

theorem ofName?_name (t : Status) : ofName? t.name = some t := by cases t <;> decide

/-- The open states are exactly the ones that are not final. -/
theorem mem_openStates_iff (t : Status) : t ∈ openStates ↔ t.isTerminal = false := by
  cases t <;> decide

theorem ofFlags_ne_rejected (d p : Bool) : ofFlags d p ≠ rejected := by
  cases d <;> cases p <;> decide

end Status
end Dispatch
