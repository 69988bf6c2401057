/-
Answering requests.

A request is understood before anything is done: first the identifier in its path, then its
query or its body.  What cannot be understood is rejected, and the service does not change.
A body must be declared as JSON, must not be too long, and must hold the record asked for;
what follows the first value in it is ignored.

A confirmation that completes an acceptance leaves it to the background to publish it, so that
nobody has to wait for a place in the queue and no client who goes away can prevent it.
-/
import Dispatch.Decimal.Reading
import Dispatch.Http.Response
import Dispatch.Http.Route
import Dispatch.Proposal.Wire
import Dispatch.Rides.Binding
import Dispatch.Service.Upkeep

namespace Dispatch.Http

open Dispatch.Json.Doc (asString asBool asNatural asOption)

/-! ### What requests carry -/

/-- How long a body can be, in bytes. -/
def bodyLimit : Nat := 2 * 1024 * 1024

/-- The status code for a body that is not the record asked for. -/
def faultStatus : Json.Fault → Nat
  | .malformed => 400
  | .mismatched => 422

/-- The record in the body of a request, or the status code of the rejection. -/
def Request.record {α : Type} (r : Request) (reader : Json.Reader α) : Except Nat α :=
  if ((r.header? "content-type").map isJsonType).getD false = false then .error 415
  else if bodyLimit < r.body.utf8ByteSize then .error 413
  else (Json.readFirst reader r.body.toList).mapError faultStatus

/-- A confirmation: by whom, and in which role. -/
structure Confirming where
  userId : ActorId
  isDriver : Bool

/-- Reads a confirmation. -/
def Confirming.ofDoc : Json.Reader Confirming := fun d => do
  let fs ← d.fields [.of "user_id" asString, .of "is_driver" asBool]
  return {
    userId := ← asString (fs.get "user_id")
    isDriver := ← asBool (fs.get "is_driver") }

/-- A ride to be bound to its driver and its passenger. -/
structure Binding where
  driverId : ActorId
  passengerId : ActorId
  rideId : RideId
  /-- for how long, in seconds -/
  seconds : Option Nat

/-- Reads a ride to be bound. -/
def Binding.ofDoc : Json.Reader Binding := fun d => do
  let fs ← d.fields
    [.of "driver_id" asString, .of "passenger_id" asString, .of "ride_id" asString,
      .of "ttl_secs" (asOption asNatural) .optional]
  return {
    driverId := ← asString (fs.get "driver_id")
    passengerId := ← asString (fs.get "passenger_id")
    rideId := ← asString (fs.get "ride_id")
    seconds := ← asOption asNatural (fs.get "ttl_secs") }

/-- Reads a driver and a passenger. -/
def pairOfDoc : Json.Reader Pair := fun d => do
  let fs ← d.fields [.of "driver_id" asString, .of "passenger_id" asString]
  return (← asString (fs.get "driver_id"), ← asString (fs.get "passenger_id"))

/-- A search: where, and how far. -/
structure Search where
  center : Location
  /-- in kilometres -/
  radius : Option Float

/-- Reads a number of a query. -/
def floatOf? (s : String) : Option Float := (Decimal.readFloat s).toOption

/-- Reads a search. -/
def Search.ofQuery? (q : Query) : Option Search := do
  let lat ← q.required? "lat" floatOf?
  let lng ← q.required? "lng" floatOf?
  let radius ← q.optional? "radius_km" floatOf?
  return { center := { lat, lng }, radius }

/-! ### What is done about them -/

/-- Goes on with an identifier. -/
def withText (id : Segment) (f : String → ServiceProgram Response) : ServiceProgram Response :=
  match unescapeText? id with
  | some s => f s
  | none => .done (.rejected 400)

/-- Goes on with the identifier of a match. -/
def withMatchId (id : Segment) (f : MatchId → ServiceProgram Response) :
    ServiceProgram Response :=
  withText id fun s =>
    match Uuid.ofText? s with
    | some id => f id
    | none => .done (.rejected 400)

/-- Goes on with the record in the body. -/
def withRecord {α : Type} (r : Request) (reader : Json.Reader α)
    (f : α → ServiceProgram Response) : ServiceProgram Response :=
  match r.record reader with
  | .ok a => f a
  | .error status => .done (.rejected status)

/-- The answer to a search. -/
def nearbyJson (radius : Float) (found : List Nearby) : Json :=
  .object [("radius_km", .real radius), ("actors", .array (found.map Nearby.toJson))]

/-- Searches a pool. -/
def search (o : Options) (pool : Role) (s : Search) : ServiceProgram Response :=
  let radius := s.radius.getD o.searchRadius
  (Service.onAvailability (Availability.nearby pool s.center radius)).bind fun result =>
    .done (.ofResult (nearbyJson radius) result)

/-- Confirms a proposal, and leaves its publication to the background if that accepts it. -/
def confirm (id : MatchId) (c : Confirming) : ServiceProgram Response :=
  (Service.onMatches (Matching.confirm id c.userId (.ofIsDriver c.isDriver))).bind fun
    | .ok p =>
      if p.status = .accepted then
        .call (.publishLater p) fun _ => .done (.ok p.toJson)
      else .done (.ok p.toJson)
    | .error e => .done (.ofError e)

/-- Binds a ride. -/
def bindRide (o : Options) (b : Binding) : ServiceProgram Response :=
  if b.seconds = some 0 then .done (.ofError (.refused .noTimeToLive))
  else
    let ttl : Lifetime := match b.seconds with
      | some n => { seconds := n }
      | none => o.rideLifetime
    (Service.onRides (Rides.bind b.driverId b.passengerId b.rideId ttl)).bind fun result =>
      .done (.ofDone result)

/-- Looks up an actor's ride. -/
def showRide (role : Role) (id : ActorId) : ServiceProgram Response :=
  (Service.onRides (Rides.lookup role id)).bind fun result =>
    .done (.ofResult (fun ride => ActiveRide.toJson ⟨id, ride⟩) result)

/-- How the service is, with the sizes of both pools. -/
def showHealth : ServiceProgram Response :=
  (Service.onAvailability (Availability.poolSize .driver)).bind fun
    | .error e => .done (.ofError e)
    | .ok drivers => (Service.onAvailability (Availability.poolSize .passenger)).bind fun
      | .error e => .done (.ofError e)
      | .ok passengers => .done (.ok (.object [("status", .string "ok"),
          ("available_drivers", .whole drivers), ("available_passengers", .whole passengers)]))

/-- The status code for a request to follow the feed: 101 if its headers ask for it properly and
the connection can be handed over. -/
def followStatus (r : Request) (canUpgrade : Bool) : Nat :=
  let connection := ((r.header? "connection").getD "").map Char.toLower
  if r.method ≠ "GET" then 405
  else if (connection.splitOn "upgrade").length < 2 then 400
  else if !r.headerIs "upgrade" "websocket" then 400
  else if r.header? "sec-websocket-version" ≠ some "13" then 400
  else if (r.header? "sec-websocket-key").isNone then 400
  else if canUpgrade then 101
  else 426

/-- What is done about a request that has come to its route with a method that it takes. -/
def handle (o : Options) (r : Request) : Route → ServiceProgram Response
  | .availability pool id => withText id fun id =>
    if r.method = "PUT" then
      withRecord r Location.ofDoc fun l =>
        (Service.thenRefresh pool (Service.addAvailable pool id l)).bind fun result =>
          .done (.ofDone result)
    else
      (Service.thenRefresh pool (Service.onAvailability (Availability.remove pool id))).bind
        fun result => .done (.ofDone result)
  | .location pool id => withText id fun id =>
    (Service.onAvailability (Availability.lastKnown pool id)).bind fun result =>
      .done (.ofResult Location.toJson result)
  | .nearby pool =>
    match Search.ofQuery? (.ofChars r.query) with
    | some s => search o pool s
    | none => .done (.rejected 400)
  | .matchList => withRecord r Draft.ofDoc fun d =>
    (Service.onMatches (Matching.propose d)).bind fun result =>
      .done (.ofResult Proposal.toJson result)
  | .oneMatch id => withMatchId id fun id =>
    (Service.onMatches (Matching.get id)).bind fun result =>
      .done (.ofResult Proposal.toJson result)
  | .confirmation id => withMatchId id fun id => withRecord r Confirming.ofDoc (confirm id)
  | .actorMatches id => withText id fun id =>
    match (Query.ofChars r.query).required? "role" Role.ofName? with
    | some role => (Service.onMatches (Matching.list id role)).bind fun result =>
      .done (.ofResult (fun ps => .array (ps.map Proposal.toJson)) result)
    | none => .done (.rejected 400)
  | .activeRides =>
    if r.method = "PUT" then withRecord r Binding.ofDoc (bindRide o)
    else withRecord r pairOfDoc fun p =>
      (Service.onRides (Rides.unbind p.1 p.2)).bind fun u => .done (.ok u.toJson)
  | .activeRide role id => withText id (showRide role)
  | .health => showHealth
  | .metrics => .call .counts fun m => .done { status := 200, content := .metrics m }
  | .feed => .done (.rejected (followStatus r false))

/-- The response to a request from elsewhere that only asks what would be allowed. -/
def permission (route : Option Route) : Response :=
  { status := 200, headers := permissionHeaders ++ route.toList.map fun t => ("allow", t.allowed) }

/-- The answer to a request, before the headers that every answer has. -/
def dispatch (o : Options) (r : Request) : ServiceProgram Response :=
  match Route.ofPath? r.path with
  | none => .done .notFound
  | some route =>
    if r.method ∈ route.methods then handle o r route
    else .done { status := 405, headers := [("allow", route.allowed)] }

/-- The answer to a request. -/
def respond (o : Options) (r : Request) : ServiceProgram Response :=
  if r.method = "OPTIONS" then
    let p := permission (Route.ofPath? r.path)
    .done (p.adding p.content.headers)
  else
    (dispatch o r).bind fun answer =>
      let full := answer.adding (sharingHeaders ++ answer.content.headers)
      .done (if r.method = "HEAD" then { full with content := .none } else full)

/-- Whether a request over a connection that can be handed over makes a client of the feed. -/
def follows (r : Request) : Bool :=
  Route.ofPath? r.path == some .feed && followStatus r true == 101

end Dispatch.Http
