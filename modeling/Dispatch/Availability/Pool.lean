/-
Who is available, and where.

For each pool three entries belong to an available actor: a position, a flag and a last
known location, which carries the time at which it was received, whatever time the actor
gave.  They are written one after the other, and removed with the flag first; when writing
fails halfway the entries are removed again, and every removal is tried even if another one
failed.

A search returns those who have both a position in range and a flag, nearest first, and by
identifier where two are equally near.  An actor whose location is older than a cutoff, or
carries no time, is stale and can be removed with all the others of his kind.
-/
import Dispatch.Availability.Cache
import Dispatch.Text.Blank

namespace Dispatch

open Dispatch.Time

/-- A program that uses the availability cache. -/
abbrev CacheProgram (α : Type) : Type := Program CacheCall.Reply α

/-- An actor found by a search. -/
structure Nearby where
  id : ActorId
  /-- in kilometres -/
  distance : Float

namespace Nearby

/-- Nearer, or equally near with an identifier that is not larger. -/
def le (a b : Nearby) : Bool :=
  if a.distance < b.distance then true
  else if b.distance < a.distance then false
  else decide (a.id ≤ b.id)

/-- An actor found, as JSON. -/
def toJson (n : Nearby) : Json :=
  .object [("id", .string n.id), ("distance_km", .real n.distance)]

end Nearby

namespace Availability

/-- The key of a pool's positions. -/
def positionsKey (pool : Role) : String := s!"geo:{pool.name}"

/-- The key of a pool's flags. -/
def flagsKey (pool : Role) : String := s!"available:{pool.name}"

/-- The key of a pool's last known locations. -/
def locationsKey (pool : Role) : String := s!"location:{pool.name}"

/-- Makes a call, and goes on unless it fails. -/
def attempt {α : Type} (c : CacheCall)
    (next : c.Result → CacheProgram (Except ServiceError α)) :
    CacheProgram (Except ServiceError α) :=
  .call c fun
    | .error e => .done (.error (.cache e))
    | .ok r => next r

/-- Sets an actor's flag and last known location. -/
def mark (pool : Role) (id : ActorId) (l : Location) : CacheProgram (Except CacheError Unit) :=
  .call (.setAdd (flagsKey pool) id) fun
    | .error e => .done (.error e)
    | .ok _ => .call (.hashSet (locationsKey pool) id l) .done

/-- The first of several failures. -/
def firstError {α : Type} : Except CacheError α → Option CacheError → Option CacheError
  | .error e, _ => some e
  | .ok _, later => later

/-- Removes an actor's three entries, the flag first; the first failure, if there is one. -/
def removeEntries (pool : Role) (id : ActorId) : CacheProgram (Option CacheError) :=
  .call (.setRemove (flagsKey pool) id) fun flag =>
  .call (.geoRemove (positionsKey pool) id) fun position =>
  .call (.hashDelete (locationsKey pool) id) fun location =>
  .done (firstError flag (firstError position (firstError location none)))

/-- Makes an actor available at a place, as of now. -/
def add (now : Instant) (pool : Role) (id : ActorId) (l : Location) :
    CacheProgram (Except ServiceError Unit) :=
  if Text.isBlank id then .done (.error (.refused .emptyActor))
  else if !l.isFinite then .done (.error (.refused .placeNotFinite))
  else
    let l := l.observedAt now
    attempt (.geoAdd (positionsKey pool) id l) fun _ => do
      match ← mark pool id l with
      | .ok _ => return .ok ()
      | .error e =>
        let _ ← removeEntries pool id
        return .error (.cache e)

/-- Makes an actor unavailable. -/
def remove (pool : Role) (id : ActorId) : CacheProgram (Except ServiceError Unit) := do
  match ← removeEntries pool id with
  | some e => return .error (.cache e)
  | none => return .ok ()

/-- The available actors within a distance, the nearest first. -/
def nearby (pool : Role) (center : Location) (km : Float) :
    CacheProgram (Except ServiceError (List Nearby)) :=
  if !center.isFinite then .done (.error (.refused .centerNotFinite))
  else if !km.isFinite || km < 0 then .done (.error (.refused (.badRadius km)))
  else
    attempt (.geoRadius (positionsKey pool) center km) fun (hits : List (ActorId × Float)) =>
    attempt (.setMembers (flagsKey pool)) fun (available : List ActorId) =>
      let found := (hits.filter fun h => available.contains h.1).map fun h => ⟨h.1, h.2⟩
      .done (.ok (found.mergeSort Nearby.le))

/-- The last known location of an actor. -/
def lastKnown (pool : Role) (id : ActorId) : CacheProgram (Except ServiceError Location) :=
  attempt (.hashGet (locationsKey pool) id) fun
    | some l => .done (.ok l)
    | none => .done (.error (.refused (.noLocation pool id)))

/-- How many actors are available in a pool. -/
def poolSize (pool : Role) : CacheProgram (Except ServiceError Nat) :=
  attempt (.setMembers (flagsKey pool)) fun (members : List ActorId) =>
    .done (.ok members.length)

/-- Whether a location is too old. -/
def isStale (cutoff : Instant) (l : Location) : Bool :=
  match l.timestamp with
  | some seen => decide (seen < cutoff)
  | none => true

/-- Removes actors in turn; those that are entirely gone. -/
def removeAll (pool : Role) : List ActorId → CacheProgram (List ActorId)
  | [] => return []
  | id :: rest => do
    match ← removeEntries pool id with
    | none => return id :: (← removeAll pool rest)
    | some _ => removeAll pool rest

/-- Removes the actors that were last seen before the cutoff; those that are entirely gone. -/
def prune (cutoff : Instant) (pool : Role) : CacheProgram (Except ServiceError (List ActorId)) :=
  attempt (.hashEntries (locationsKey pool)) fun (entries : List (ActorId × Location)) => do
    let stale := entries.filter fun e => isStale cutoff e.2
    return .ok (← removeAll pool (stale.map Prod.fst))

end Availability
end Dispatch
