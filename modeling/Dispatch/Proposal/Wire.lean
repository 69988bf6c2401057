/-
Proposals as JSON.

Drafts, proposals and acceptance events are written with their fields in the order in which
they are declared, in snake case; a missing target is `null`.  Each is read back from an
object, or from an array of its fields in that order.
-/
import Dispatch.Proposal.Basic

namespace Dispatch

open Dispatch.Json (Reader)
open Dispatch.Json.Doc (asString asBool asOption asParsed)
open Dispatch.Time

/-- Reads the identifier of a proposal. -/
def readMatchId : Reader MatchId := asParsed Uuid.ofText?

/-- A location, or `null` where there is none. -/
def targetJson (l : Option Location) : Json := Json.ofOption Location.toJson l

namespace Draft

/-- A draft as JSON. -/
def toJson (d : Draft) : Json :=
  .object [("driver_id", .string d.driverId), ("passenger_id", .string d.passengerId),
    ("driver_location", d.driverLocation.toJson),
    ("passenger_location", d.passengerLocation.toJson),
    ("target_location", targetJson d.targetLocation)]

/-- The fields of a draft. -/
def schema : List Json.Doc.Field :=
  [.of "driver_id" asString, .of "passenger_id" asString,
    .of "driver_location" Location.ofDoc, .of "passenger_location" Location.ofDoc,
    .of "target_location" (asOption Location.ofDoc) .optional]

/-- Reads a draft. -/
def ofDoc : Reader Draft := fun d => do
  let fs ← d.fields schema
  return {
    driverId := ← asString (fs.get "driver_id")
    passengerId := ← asString (fs.get "passenger_id")
    driverLocation := ← Location.ofDoc (fs.get "driver_location")
    passengerLocation := ← Location.ofDoc (fs.get "passenger_location")
    targetLocation := ← asOption Location.ofDoc (fs.get "target_location") }

end Draft

namespace Proposal

/-- A proposal as JSON. -/
def toJson (p : Proposal) : Json :=
  .object [("id", .string p.id.text), ("driver_id", .string p.driverId),
    ("passenger_id", .string p.passengerId), ("driver_location", p.driverLocation.toJson),
    ("passenger_location", p.passengerLocation.toJson),
    ("target_location", targetJson p.targetLocation), ("status", .string p.status.name),
    ("driver_confirmed", .bool p.driverConfirmed),
    ("passenger_confirmed", .bool p.passengerConfirmed),
    ("created_at", .string p.createdAt.text), ("updated_at", .string p.updatedAt.text)]

/-- The fields of a proposal. -/
def schema : List Json.Doc.Field :=
  [.of "id" readMatchId, .of "driver_id" asString, .of "passenger_id" asString,
    .of "driver_location" Location.ofDoc, .of "passenger_location" Location.ofDoc,
    .of "target_location" (asOption Location.ofDoc) .optional,
    .of "status" Status.ofDoc, .of "driver_confirmed" asBool,
    .of "passenger_confirmed" asBool, .of "created_at" Location.readInstant,
    .of "updated_at" Location.readInstant]

/-- Reads a proposal. -/
def ofDoc : Reader Proposal := fun d => do
  let fs ← d.fields schema
  return {
    id := ← readMatchId (fs.get "id")
    driverId := ← asString (fs.get "driver_id")
    passengerId := ← asString (fs.get "passenger_id")
    driverLocation := ← Location.ofDoc (fs.get "driver_location")
    passengerLocation := ← Location.ofDoc (fs.get "passenger_location")
    targetLocation := ← asOption Location.ofDoc (fs.get "target_location")
    status := ← Status.ofDoc (fs.get "status")
    driverConfirmed := ← asBool (fs.get "driver_confirmed")
    passengerConfirmed := ← asBool (fs.get "passenger_confirmed")
    createdAt := ← Location.readInstant (fs.get "created_at")
    updatedAt := ← Location.readInstant (fs.get "updated_at") }

end Proposal

namespace Accepted

/-- An acceptance event as JSON. -/
def toJson (a : Accepted) : Json :=
  .object [("match_id", .string a.matchId.text), ("driver_id", .string a.driverId),
    ("passenger_id", .string a.passengerId), ("driver_location", a.driverLocation.toJson),
    ("passenger_location", a.passengerLocation.toJson),
    ("target_location", targetJson a.targetLocation),
    ("accepted_at", .string a.acceptedAt.text)]

/-- The fields of an acceptance event. -/
def schema : List Json.Doc.Field :=
  [.of "match_id" readMatchId, .of "driver_id" asString, .of "passenger_id" asString,
    .of "driver_location" Location.ofDoc, .of "passenger_location" Location.ofDoc,
    .of "target_location" (asOption Location.ofDoc) .optional,
    .of "accepted_at" Location.readInstant]

/-- Reads an acceptance event. -/
def ofDoc : Reader Accepted := fun d => do
  let fs ← d.fields schema
  return {
    matchId := ← readMatchId (fs.get "match_id")
    driverId := ← asString (fs.get "driver_id")
    passengerId := ← asString (fs.get "passenger_id")
    driverLocation := ← Location.ofDoc (fs.get "driver_location")
    passengerLocation := ← Location.ofDoc (fs.get "passenger_location")
    targetLocation := ← asOption Location.ofDoc (fs.get "target_location")
    acceptedAt := ← Location.readInstant (fs.get "accepted_at") }

end Accepted
end Dispatch
