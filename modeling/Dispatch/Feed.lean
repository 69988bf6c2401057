/-
A feed that many can follow.

Everything that is announced is appended to a log, and each reader keeps his own position
in it.  Only the last announcements are at hand, as many as the feed has room for.  A
reader who has fallen further behind is told how many he has missed and goes on with the
oldest that is left.

The room is the number asked for, rounded up to a power of two.
-/
import Dispatch.Proposal.Basic

namespace Dispatch

/-- A feed of events. -/
structure Feed where
  /-- how many of the last announcements are at hand -/
  room : Nat
  /-- all announcements, the first one first -/
  log : List Accepted := []

/-- What a reader finds next. -/
inductive Receipt where
  | event (e : Accepted)
  /-- so many announcements are no longer at hand -/
  | missed (n : Nat)

/-- The event that a reader receives, if it is one. -/
def Receipt.event? : Receipt → Option Accepted
  | event e => some e
  | missed _ => none

namespace Feed

/-- The least power of two that is not below `n`, looking from `p` on. -/
def powerFrom : (steps p n : Nat) → Nat
  | 0, p, _ => p
  | steps + 1, p, n => if n ≤ p then p else powerFrom steps (2 * p) n

/-- A feed with room for at least so many announcements. -/
def ofSize (n : Nat) : Feed := { room := powerFrom n 1 n }

/-- The position of somebody who has read everything. -/
def tip (f : Feed) : Nat := f.log.length

/-- The position of the oldest announcement at hand. -/
def oldest (f : Feed) : Nat := f.tip - f.room

/-- Announces an event. -/
def announce (f : Feed) (e : Accepted) : Feed := { f with log := f.log ++ [e] }

/-- All that a reader at the given position has yet to receive. -/
def receipts (f : Feed) (position : Nat) : List Receipt :=
  if position < f.oldest then
    .missed (f.oldest - position) :: (f.log.drop f.oldest).map .event
  else (f.log.drop position).map .event

/-- The events that a reader at the given position can still receive. -/
def unread (f : Feed) (position : Nat) : List Accepted := f.log.drop (max position f.oldest)

/-- A reader receives the events that he can still receive, whether or not he has missed some. -/
theorem events_receipts (f : Feed) (position : Nat) :
    (f.receipts position).filterMap Receipt.event? = f.unread position := by
  have all (l : List Accepted) : (l.map Receipt.event).filterMap Receipt.event? = l := by
    rw [List.filterMap_map]
    exact List.filterMap_some
  unfold receipts unread
  split
  · rename_i h
    rw [List.filterMap_cons_none rfl, all, Nat.max_eq_right (Nat.le_of_lt h)]
  · rename_i h
    rw [all, Nat.max_eq_left (Nat.le_of_not_lt h)]

end Feed
end Dispatch
