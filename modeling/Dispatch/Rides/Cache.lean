/-
The ride cache.

A value is written with a time to live and is there until that time has passed.  An entry
that has expired is removed when somebody looks for it, not before.  A time to live that
leads past the end of the calendar, or is too long to be a length of time, never ends.

Writing and deleting can be made to fail for a single key, and the whole cache can be
unreachable.
-/
import Dispatch.Error
import Dispatch.Program
import Dispatch.Table

namespace Dispatch

open Dispatch.Time

/-- A length of time that is not negative. -/
structure Lifetime where
  seconds : Nat
  /-- nanoseconds beyond the whole seconds -/
  nanos : Nat := 0
  deriving DecidableEq, Repr

namespace Lifetime

/-- A day. -/
def day : Lifetime := ⟨24 * 60 * 60, 0⟩

/-- When a lifetime that begins now ends, unless it never does. -/
def endsAt? (d : Lifetime) (now : Instant) : Option Instant :=
  (Span.ofUnsigned? d.seconds d.nanos).bind now.add?

end Lifetime

/-- A value in the ride cache. -/
structure RideEntry where
  value : String
  /-- when it ceases to be there, if it does -/
  expiresAt : Option Instant
  deriving DecidableEq

namespace RideEntry

/-- Whether the value is still there. -/
def isLive (e : RideEntry) (now : Instant) : Bool :=
  match e.expiresAt with
  | some t => decide (now < t)
  | none => true

end RideEntry

/-- The ride cache. -/
structure RideCache where
  entries : Table String RideEntry := ∅
  /-- whether the cache cannot be reached -/
  offline : Bool := false
  /-- the keys that cannot be written -/
  failing : List String := []

/-- A call on the ride cache. -/
inductive RideCall where
  | set (key value : String) (ttl : Lifetime)
  | get (key : String)
  | delete (key : String)

namespace RideCall

/-- What a call returns when it does not fail. -/
def Result : RideCall → Type
  | set .. => Unit
  | get _ => Option String
  | delete _ => Bool

/-- The reply to a call. -/
abbrev Reply (c : RideCall) : Type := Except CacheError c.Result

end RideCall

namespace RideCache

/-- Why a key cannot be written, if it cannot. -/
def fault? (c : RideCache) (key : String) : Option CacheError :=
  if c.offline then some .ridesOffline
  else if key ∈ c.failing then some (.writeFailed key)
  else none

/-- Writes a value. -/
def set (c : RideCache) (now : Instant) (key value : String) (ttl : Lifetime) : RideCache :=
  { c with entries := c.entries.insert key ⟨value, ttl.endsAt? now⟩ }

/-- The value under a key; an expired entry is removed. -/
def get (c : RideCache) (now : Instant) (key : String) : Option String × RideCache :=
  match c.entries.find? key with
  | none => (none, c)
  | some e =>
    if e.isLive now then (some e.value, c)
    else (none, { c with entries := c.entries.erase key })

/-- Removes an entry; whether there was one. -/
def delete (c : RideCache) (key : String) : Bool × RideCache :=
  (c.entries.contains key, { c with entries := c.entries.erase key })

/-- How the cache takes a call.  No call waits, and one that fails has no effect. -/
def perform (now : Instant) : Handler RideCall.Reply RideCache
  | .set key value ttl, c =>
    match c.fault? key with
    | some e => .answer (.error e) c
    | none => .answer (.ok ()) (c.set now key value ttl)
  | .get key, c =>
    if c.offline then .answer (.error .ridesOffline) c
    else let (v, c) := c.get now key; .answer (.ok v) c
  | .delete key, c =>
    match c.fault? key with
    | some e => .answer (.error e) c
    | none => let (b, c) := c.delete key; .answer (.ok b) c

/-- Makes the writing of a key fail, or lets it work again. -/
def setFailing (c : RideCache) (key : String) (fails : Bool) : RideCache :=
  { c with failing := if fails then key :: c.failing else c.failing.filter (· ≠ key) }

end RideCache
end Dispatch
