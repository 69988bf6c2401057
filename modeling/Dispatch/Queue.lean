/-
A queue with a bounded number of places.

Whoever adds an event needs a place.  Those who find none stand in line, and a place that
becomes free is promised at once to the next in line, even before he notices: with `n` free
places the first `n` in line have one, and somebody who comes later does not.

Once the queue is closed nothing can be added; what is in it can still be taken.
-/
import Dispatch.Proposal.Basic

namespace Dispatch

/-- Somebody who wants to add an event. -/
abbrev Sender : Type := Nat

/-- A bounded queue of events, the oldest first. -/
structure Queue where
  capacity : Nat
  events : List Accepted := []
  /-- those who want to add an event and have not done so -/
  line : List Sender := []
  closed : Bool := false
  /-- the next unused sender -/
  next : Sender := 0

/-- What comes of trying to add an event. -/
inductive Enqueued where
  | added
  /-- the queue is closed -/
  | refused
  deriving DecidableEq, Repr

namespace Queue

/-- How many places are free. -/
def free (q : Queue) : Nat := q.capacity - q.events.length

/-- A new sender. -/
def draw (q : Queue) : Sender × Queue := (q.next, { q with next := q.next + 1 })

/-- Leaves the line. -/
def leave (q : Queue) (t : Sender) : Queue := { q with line := q.line.erase t }

/-- Joins the line, unless already in it. -/
def join (q : Queue) (t : Sender) : Queue :=
  if t ∈ q.line then q else { q with line := q.line ++ [t] }

/-- Whether a place is promised to somebody. -/
def hasPlace (q : Queue) (t : Sender) : Bool := decide (t ∈ q.line.take q.free)

/-- Adds an event, once there is a place for it; nothing if the sender has to wait. -/
def add (q : Queue) (t : Sender) (e : Accepted) : Option Enqueued × Queue :=
  if q.closed then (some .refused, q.leave t)
  else
    let q := q.join t
    if q.hasPlace t then (some .added, { q.leave t with events := q.events ++ [e] })
    else (none, q)

/-- Nobody adds an event beyond the capacity. -/
theorem length_add_le (q : Queue) (t : Sender) (e : Accepted)
    (h : q.events.length ≤ q.capacity) :
    (q.add t e).2.events.length ≤ q.capacity := by
  unfold add
  split
  · exact h
  · have he : (q.join t).events = q.events := by unfold join; split <;> rfl
    have hc : (q.join t).capacity = q.capacity := by unfold join; split <;> rfl
    dsimp only
    split
    · rename_i hp
      have hf : 0 < (q.join t).free := by
        rcases Nat.eq_zero_or_pos (q.join t).free with h0 | h0
        · simp [hasPlace, h0] at hp
        · exact h0
      rw [free, he, hc] at hf
      simp only [he, List.length_append, List.length_singleton]
      omega
    · rw [he]; exact h

/-- Takes the oldest event. -/
def take (q : Queue) : Option Accepted × Queue :=
  match q.events with
  | [] => (none, q)
  | e :: rest => (some e, { q with events := rest })

/-- Closes the queue.  Those who have no place are sent away. -/
def close (q : Queue) : Queue :=
  if q.closed then q else { q with closed := true, line := q.line.take q.free }

/-- Whether nothing is in the queue, nothing can come, and no place is still promised. -/
def isDrained (q : Queue) : Bool := q.closed && q.events.isEmpty && q.line.isEmpty

end Queue
end Dispatch
