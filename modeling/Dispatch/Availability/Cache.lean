/-
The availability cache.

Three kinds of collection live here under keys: positions, which can be searched by
distance; sets of members; and tables of members with a location.  Every operation can be
made to fail on its own, without effect, and the whole cache can be unreachable.  The
distance by which positions are searched is a parameter.
-/
import Dispatch.Error
import Dispatch.Program
import Dispatch.Table

namespace Dispatch

/-- The availability cache. -/
structure AvailabilityCache where
  /-- positions by key and member -/
  positions : Table String (Table ActorId Location) := ∅
  /-- sets by key -/
  sets : Table String (Table ActorId Unit) := ∅
  /-- locations by key and member -/
  locations : Table String (Table ActorId Location) := ∅
  /-- whether the cache cannot be reached -/
  offline : Bool := false
  /-- the operations that fail -/
  failing : List CacheOp := []

/-- A call on the availability cache. -/
inductive CacheCall where
  | geoAdd (key : String) (member : ActorId) (l : Location)
  | geoRemove (key : String) (member : ActorId)
  | geoRadius (key : String) (center : Location) (km : Float)
  | setAdd (key : String) (member : ActorId)
  | setRemove (key : String) (member : ActorId)
  | setMembers (key : String)
  | hashSet (key : String) (member : ActorId) (l : Location)
  | hashGet (key : String) (member : ActorId)
  | hashDelete (key : String) (member : ActorId)
  | hashEntries (key : String)

namespace CacheCall

/-- The operation that a call asks for. -/
def op : CacheCall → CacheOp
  | geoAdd .. => .geoAdd
  | geoRemove .. => .geoRemove
  | geoRadius .. => .geoRadius
  | setAdd .. => .setAdd
  | setRemove .. => .setRemove
  | setMembers .. => .setMembers
  | hashSet .. => .hashSet
  | hashGet .. => .hashGet
  | hashDelete .. => .hashDelete
  | hashEntries .. => .hashEntries

/-- What a call returns when it does not fail. -/
def Result : CacheCall → Type
  | geoAdd .. => Unit
  | geoRemove .. => Bool
  | geoRadius .. => List (ActorId × Float)
  | setAdd .. => Bool
  | setRemove .. => Bool
  | setMembers .. => List ActorId
  | hashSet .. => Unit
  | hashGet .. => Option Location
  | hashDelete .. => Bool
  | hashEntries .. => List (ActorId × Location)

/-- The reply to a call. -/
abbrev Reply (c : CacheCall) : Type := Except CacheError c.Result

end CacheCall

namespace AvailabilityCache

/-- The positions under a key. -/
def positionsAt (c : AvailabilityCache) (key : String) : Table ActorId Location :=
  (c.positions.find? key).getD ∅

/-- The set under a key. -/
def setAt (c : AvailabilityCache) (key : String) : Table ActorId Unit :=
  (c.sets.find? key).getD ∅

/-- The locations under a key. -/
def locationsAt (c : AvailabilityCache) (key : String) : Table ActorId Location :=
  (c.locations.find? key).getD ∅

/-- Replaces the positions under a key. -/
def setPositions (c : AvailabilityCache) (key : String) (t : Table ActorId Location) :
    AvailabilityCache := { c with positions := c.positions.insert key t }

/-- Replaces the set under a key. -/
def setSet (c : AvailabilityCache) (key : String) (t : Table ActorId Unit) :
    AvailabilityCache := { c with sets := c.sets.insert key t }

/-- Replaces the locations under a key. -/
def setLocations (c : AvailabilityCache) (key : String) (t : Table ActorId Location) :
    AvailabilityCache := { c with locations := c.locations.insert key t }

/-- The members within a distance of a place. -/
def within (distance : Location → Location → Float) (t : Table ActorId Location)
    (center : Location) (km : Float) : List (ActorId × Float) :=
  (t.entries.map fun e => (e.1, distance center e.2)).filter fun e => decide (e.2 ≤ km)

/-- What a call does when it does not fail. -/
def apply (distance : Location → Location → Float) :
    (call : CacheCall) → AvailabilityCache → call.Result × AvailabilityCache
  | .geoAdd key m l, c => ((), c.setPositions key ((c.positionsAt key).insert m l))
  | .geoRemove key m, c =>
    let t := c.positionsAt key
    (t.contains m, c.setPositions key (t.erase m))
  | .geoRadius key center km, c => (within distance (c.positionsAt key) center km, c)
  | .setAdd key m, c =>
    let t := c.setAt key
    (!t.contains m, c.setSet key (t.insert m ()))
  | .setRemove key m, c =>
    let t := c.setAt key
    (t.contains m, c.setSet key (t.erase m))
  | .setMembers key, c => ((c.setAt key).keys, c)
  | .hashSet key m l, c => ((), c.setLocations key ((c.locationsAt key).insert m l))
  | .hashGet key m, c => ((c.locationsAt key).find? m, c)
  | .hashDelete key m, c =>
    let t := c.locationsAt key
    (t.contains m, c.setLocations key (t.erase m))
  | .hashEntries key, c => ((c.locationsAt key).entries, c)

/-- Why a call fails, if it does. -/
def fault? (c : AvailabilityCache) (op : CacheOp) : Option CacheError :=
  if c.offline then some .availabilityOffline
  else if op ∈ c.failing then some (.operationFailed op)
  else none

/-- How the cache takes a call.  No call waits, and one that fails has no effect. -/
def perform (distance : Location → Location → Float) : Handler CacheCall.Reply AvailabilityCache :=
  fun call c =>
    match c.fault? call.op with
    | some e => .answer (.error e) c
    | none =>
      let (r, c) := c.apply distance call
      .answer (.ok r) c

/-- Makes an operation fail, or lets it work again. -/
def setFailing (c : AvailabilityCache) (op : CacheOp) (fails : Bool) : AvailabilityCache :=
  { c with failing := if fails then op :: c.failing else c.failing.filter (· ≠ op) }

end AvailabilityCache
end Dispatch
