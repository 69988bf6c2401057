/-
The service as a whole.

Its state is what its parts hold: the match table, the two caches, the counts, the queue and
the feed of acceptance events, the clients, and the work that nobody waits for.  Every
request is a program of calls on these parts, and `perform` says how each call is taken.
Nothing else changes the state while a program runs, so two requests meet only between
their calls.

A call on the match table may meet an outcome that was laid down for it; a call on the table
itself does not.
-/
import Dispatch.Availability.Cache
import Dispatch.Matching
import Dispatch.Queue
import Dispatch.Rides.Cache
import Dispatch.Socket
import Dispatch.Store.Faults

namespace Dispatch

open Dispatch.Time

/-- What can be chosen when a service is set up. -/
structure Options where
  /-- for how many events the queue and the feed have room -/
  eventBuffer : Nat := 1024
  /-- how long a ride is bound unless the request says so -/
  rideLifetime : Lifetime := .day
  /-- how far a search reaches unless the request says so, in kilometres -/
  searchRadius : Float := 5.0

/-- A call on a part of the service. -/
inductive ServiceCall where
  | store (c : StoreCall)
  /-- a call on the match table itself -/
  | table (c : StoreCall)
  | availability (c : CacheCall)
  | rides (c : RideCall)
  | count (o : Observation)
  /-- reads the counts -/
  | counts
  /-- reads the clock -/
  | clock
  /-- puts an event into the feed -/
  | announce (e : Accepted)
  /-- draws a sender for the queue -/
  | sender
  | enqueue (t : Sender) (e : Accepted)
  /-- leaves it to the background to publish an accepted proposal -/
  | publishLater (p : Proposal)

/-- The reply to a call. -/
abbrev ServiceCall.Reply : ServiceCall → Type
  | store c => c.Reply
  | table c => c.Reply
  | availability c => c.Reply
  | rides c => c.Reply
  | count _ => Unit
  | counts => Metrics
  | clock => Instant
  | announce _ => Unit
  | sender => Sender
  | enqueue _ _ => Enqueued
  | publishLater _ => Unit

/-- A program of calls on the parts of the service. -/
abbrev ServiceProgram (α : Type) : Type := Program ServiceCall.Reply α

/-- The worker that looks after accepted proposals. -/
inductive Worker where
  | absent
  | idle
  | busy (rest : ServiceProgram Unit)
  | ended
  /-- waits for a place of a closed queue to be used, which never happens -/
  | stranded

/-- A client of the feed, by number. -/
abbrev ClientId : Type := Nat

/-- The service. -/
structure Service where
  now : Instant
  /-- how many identifiers have been drawn -/
  drawn : Nat := 0
  store : Store := {}
  faults : Faults := ∅
  availability : AvailabilityCache := {}
  rides : RideCache := {}
  metrics : Metrics := {}
  queue : Queue
  feed : Feed
  /-- publishing that nobody waits for, in the order in which it was begun -/
  publishing : List (ServiceProgram Unit) := []
  worker : Worker := .absent
  clients : Table ClientId Socket := ∅

namespace Service

/-- A new service. -/
def start (o : Options) (now : Instant) : Service where
  now := now
  queue := { capacity := o.eventBuffer }
  feed := Feed.ofSize o.eventBuffer

/-! ### Programs of the parts as programs of the service -/

/-- A program on the match table and the counts. -/
def onMatches {α : Type} (p : Program MatchCall.Reply α) : ServiceProgram α :=
  p.lift (fun | .store c => .store c | .count o => .count o) fun
    | .store _, r => r
    | .count _, r => r

/-- A program on the match table itself. -/
def onTable {α : Type} (p : Program StoreCall.Reply α) : ServiceProgram α :=
  p.lift .table fun _ r => r

/-- A program on the availability cache. -/
def onAvailability {α : Type} (p : Program CacheCall.Reply α) : ServiceProgram α :=
  p.lift .availability fun _ r => r

/-- A program on the ride cache. -/
def onRides {α : Type} (p : Program RideCall.Reply α) : ServiceProgram α :=
  p.lift .rides fun _ r => r

/-! ### Publishing -/

/-- Announces an accepted proposal and adds it to the queue; nothing for any other. -/
def publish (p : Proposal) : ServiceProgram Unit :=
  if p.status = .accepted then
    .call (.announce p.accepted) fun _ =>
    .call .sender fun t =>
    .call (.enqueue t p.accepted) fun _ =>
    .done ()
  else .done ()

/-! ### How calls are taken -/

/-- What a call on the match table finds outside. -/
def moment (s : Service) : Moment := { now := s.now, freshId := Uuid.fresh s.drawn }

/-- The service after a call on the match table; entering a row uses an identifier up. -/
def afterTable (s : Service) (c : StoreCall) (store : Store) : Service :=
  match c with
  | .insert _ _ => { s with store, drawn := s.drawn + 1 }
  | _ => { s with store }

/-- How a call on the match table itself is taken. -/
def performTable (c : StoreCall) (s : Service) : Turn Service c.Reply :=
  (Store.perform s.moment c s.store).mapState (s.afterTable c)

/-- How the service takes a call. -/
def perform : Handler ServiceCall.Reply Service
  | .store c, s =>
    let (outcome, faults) := s.faults.outcome c s.store
    let s := { s with faults }
    match outcome.reply? c with
    | some r => .answer r s
    | none => s.performTable c
  | .table c, s => s.performTable c
  | .availability c, s =>
    (AvailabilityCache.perform Location.distance c s.availability).mapState fun availability =>
      { s with availability }
  | .rides c, s => (RideCache.perform s.now c s.rides).mapState fun rides => { s with rides }
  | .count o, s => .answer () { s with metrics := s.metrics.record o }
  | .counts, s => .answer s.metrics s
  | .clock, s => .answer s.now s
  | .announce e, s => .answer () { s with feed := s.feed.announce e }
  | .sender, s => let (t, queue) := s.queue.draw; .answer t { s with queue }
  | .enqueue t e, s =>
    match s.queue.add t e with
    | (some r, queue) => .answer r { s with queue }
    | (none, queue) => .wait { s with queue }
  | .publishLater p, s => .answer () { s with publishing := s.publishing ++ [publish p] }

/-- What remains when the caller stops waiting for a call.  A transaction of the service's own
is dropped with its caller; one on the table itself stays, without the lock. -/
def giveUpCall (c : ServiceCall) (s : Service) : Service :=
  match c with
  | .store (.lock t _) | .store (.update t _ _ _ _) => { s with store := s.store.endTransaction t }
  | .store c | .table c => { s with store := Store.giveUp c s.store }
  | .enqueue t _ => { s with queue := s.queue.leave t }
  | _ => s

/-- What remains when a program is abandoned. -/
def abandon {α : Type} (p : ServiceProgram α) (s : Service) : Service :=
  match p with
  | .done _ => s
  | .call c _ => giveUpCall c s

end Service
end Dispatch
