/-
What can go wrong, and how it is said.

Errors are causes: a rule of the service was broken (`Refusal`), the match table failed
(`StoreError`), or a cache failed (`CacheError`).  A cause determines the kind of the error,
and the kind determines whether trying again may help, which status code an answer carries,
and what is put in front of the detail.
-/
import Dispatch.Decimal.Shortest
import Dispatch.Proposal.Basic

namespace Dispatch

/-- The kinds of error that a caller can tell apart. -/
inductive ErrorKind where
  | notFound
  | forbidden
  | invalidState
  | alreadyConfirmed
  | conflict
  | transient
  | badRequest
  | internal
  deriving DecidableEq, Repr

namespace ErrorKind

/-- The name of a kind. -/
def name : ErrorKind → String
  | notFound => "not_found"
  | forbidden => "forbidden"
  | invalidState => "invalid_state"
  | alreadyConfirmed => "already_confirmed"
  | conflict => "conflict"
  | transient => "transient"
  | badRequest => "bad_request"
  | internal => "internal"

/-- What an error's detail is introduced with. -/
def heading : ErrorKind → String
  | notFound => "not found: "
  | forbidden => "forbidden: "
  | invalidState => "invalid state: "
  | alreadyConfirmed => "already confirmed: "
  | conflict => "conflict: "
  | transient => "transient failure: "
  | badRequest => "bad request: "
  | internal => "internal error: "

/-- Whether the same request may succeed when it is made again. -/
def isRetryable : ErrorKind → Bool
  | conflict | transient => true
  | _ => false

/-- The status code of an answer. -/
def statusCode : ErrorKind → Nat
  | notFound => 404
  | forbidden => 403
  | invalidState | alreadyConfirmed | conflict => 409
  | transient => 503
  | badRequest => 400
  | internal => 500

/-- What a client is told before the detail. -/
def advice : ErrorKind → String
  | forbidden | invalidState | alreadyConfirmed => "this match can no longer be confirmed: "
  | conflict => "please retry: "
  | _ => ""

end ErrorKind

/-- A failure of the match table. -/
inductive StoreError where
  | notFound (id : MatchId)
  /-- somebody else was faster -/
  | conflict (reason : String)
  | unavailable (reason : String)
  /-- a row makes no sense -/
  | corrupt (reason : String)
  deriving DecidableEq

namespace StoreError

/-- The table cannot be reached. -/
def offline : StoreError := unavailable "match store offline"

/-- The pair has an open proposal already. -/
def pairTaken (p : Pair) : StoreError :=
  conflict s!"open match already exists for driver {p.1} and passenger {p.2}"

/-- The failure in words. -/
def message : StoreError → String
  | notFound id => s!"match {id} not found"
  | conflict reason => reason
  | unavailable reason => s!"store unavailable: {reason}"
  | corrupt reason => s!"corrupt match row: {reason}"

/-- The kind of the error that a failure amounts to. -/
def kind : StoreError → ErrorKind
  | notFound _ => .notFound
  | conflict _ => .conflict
  | unavailable _ => .transient
  | corrupt _ => .internal

/-- The failure as the detail of an error. -/
def detail : StoreError → String
  | notFound id => s!"match {id} not found"
  | conflict reason | unavailable reason | corrupt reason => reason

end StoreError

/-- The operations of the availability cache that can fail one by one. -/
inductive CacheOp where
  | geoAdd
  | geoRemove
  | geoRadius
  | setAdd
  | setRemove
  | setMembers
  | hashSet
  | hashGet
  | hashDelete
  | hashEntries
  deriving DecidableEq, Repr

namespace CacheOp

/-- All operations. -/
def all : List CacheOp :=
  [geoAdd, geoRemove, geoRadius, setAdd, setRemove, setMembers, hashSet, hashGet, hashDelete,
    hashEntries]

/-- The name of an operation. -/
def name : CacheOp → String
  | geoAdd => "GeoAdd"
  | geoRemove => "GeoRemove"
  | geoRadius => "GeoRadius"
  | setAdd => "SetAdd"
  | setRemove => "SetRemove"
  | setMembers => "SetMembers"
  | hashSet => "HashSet"
  | hashGet => "HashGet"
  | hashDelete => "HashDelete"
  | hashEntries => "HashEntries"

/-- The operation with the given name. -/
def ofName? (s : String) : Option CacheOp := all.find? fun o => o.name == s

end CacheOp

/-- A failure of a cache. -/
inductive CacheError where
  /-- the availability cache cannot be reached -/
  | availabilityOffline
  | operationFailed (op : CacheOp)
  /-- the ride cache cannot be reached -/
  | ridesOffline
  | writeFailed (key : String)
  | unavailable (reason : String)
  deriving DecidableEq

namespace CacheError

/-- What failed. -/
def reason : CacheError → String
  | availabilityOffline => "geo cache offline"
  | operationFailed op => s!"{op.name} failed"
  | ridesOffline => "ttl cache offline"
  | writeFailed key => s!"write to {key} failed"
  | unavailable reason => reason

/-- The failure in words. -/
def message (e : CacheError) : String := s!"cache unavailable: {e.reason}"

end CacheError

/-- A rule of the service that a request breaks. -/
inductive Refusal where
  /-- a draft without a driver or a passenger -/
  | missingParty
  | sameActor
  /-- a coordinate that is infinite or no number -/
  | placeNotFinite
  | notParty (user : ActorId) (role : Role) (id : MatchId)
  | alreadyClosed (id : MatchId) (status : Status)
  | alreadyConfirmed (role : Role) (user : ActorId) (id : MatchId)
  | modifiedConcurrently (id : MatchId)
  | notAccepted (id : MatchId) (status : Status)
  | emptyActor
  | centerNotFinite
  | badRadius (km : Float)
  | noLocation (pool : Role) (id : ActorId)
  | emptyRide
  /-- a binding that would end as it begins -/
  | noTimeToLive

namespace Refusal

/-- The kind of error that breaking the rule amounts to. -/
def kind : Refusal → ErrorKind
  | missingParty | sameActor | placeNotFinite | emptyActor | centerNotFinite | badRadius _
  | emptyRide | noTimeToLive => .badRequest
  | notParty .. => .forbidden
  | alreadyClosed .. | notAccepted .. => .invalidState
  | alreadyConfirmed .. => .alreadyConfirmed
  | modifiedConcurrently _ => .conflict
  | noLocation .. => .notFound

/-- The rule in words. -/
def detail : Refusal → String
  | missingParty => "driver_id and passenger_id are required"
  | sameActor => "driver and passenger must be different actors"
  | placeNotFinite => "location coordinates must be finite"
  | notParty user role id => s!"{user} is not the {role.name} of match {id}"
  | alreadyClosed id status => s!"match {id} is already {status.name}"
  | alreadyConfirmed role user id => s!"{role.name} {user} already confirmed match {id}"
  | modifiedConcurrently id => s!"match {id} was modified concurrently"
  | notAccepted id status => s!"match {id} is {status.name}, not ACCEPTED"
  | emptyActor => "actor id cannot be empty"
  | centerNotFinite => "search center must be finite"
  | badRadius km => s!"radius must be a non-negative number, got {Decimal.positional km}"
  | noLocation pool id => s!"no location for {pool.name} {id}"
  | emptyRide => "ride id cannot be empty"
  | noTimeToLive => "ttl_secs must be > 0"

end Refusal

/-- An error as the service reports it. -/
inductive ServiceError where
  | refused (r : Refusal)
  | store (e : StoreError)
  | cache (e : CacheError)
  /-- an error of the given kind, with its detail in words -/
  | stated (kind : ErrorKind) (detail : String)

namespace ServiceError

/-- The kind of an error. -/
def kind : ServiceError → ErrorKind
  | refused r => r.kind
  | store e => e.kind
  | cache _ => .transient
  | stated k _ => k

/-- The detail of an error in words. -/
def detail : ServiceError → String
  | refused r => r.detail
  | store e => e.detail
  | cache e => e.message
  | stated _ d => d

/-- The error in words. -/
def message (e : ServiceError) : String := e.kind.heading ++ e.detail

/-- Whether the same request may succeed when it is made again. -/
def isRetryable (e : ServiceError) : Bool := e.kind.isRetryable

/-- What a client is told. -/
def toJson (e : ServiceError) : Json :=
  .object [("error", .string (e.kind.advice ++ e.detail)), ("kind", .string e.kind.name),
    ("retryable", .bool e.isRetryable)]

end ServiceError
end Dispatch
