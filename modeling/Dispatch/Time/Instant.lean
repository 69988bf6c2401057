/-
Points in time, and how far the clock can go.

An instant is a count of seconds from 1970-01-01T00:00:00Z and a count of
nanoseconds.  The second before midnight may be a leap second: it is then written
with the number of its predecessor and a nanosecond count of 10⁹ or more, so that
it still comes between its two neighbours.  Adding a length of time treats the leap
second as if the clock stood still in it, except for lengths below a second that
stay inside.

The calendar ends: there is no instant before year -262143 and none after year
262142.  `add?` and `sub?` say so by returning nothing.
-/
import Dispatch.Text.Digits
import Dispatch.Time.Calendar

namespace Dispatch.Time

/-- Nanoseconds in a second. -/
def nanosPerSecond : Nat := 1000000000

/-- A signed length of time. -/
structure Span where
  /-- its length in nanoseconds -/
  nanos : Int
  deriving DecidableEq, Repr

/-- A point in time. -/
structure Instant where
  /-- whole seconds since 1970-01-01T00:00:00Z, leap seconds not counted -/
  seconds : Int
  /-- nanoseconds within the second, 10⁹ and more in a leap second -/
  nanos : Nat
  deriving DecidableEq, Repr

namespace Span

/-- A whole number of seconds and a fraction in nanoseconds. -/
def ofParts (s : Int) (n : Nat) : Span := ⟨s * nanosPerSecond + n⟩

/-- The same length the other way. -/
def neg (d : Span) : Span := ⟨-d.nanos⟩

/-- The longest length: the largest number of milliseconds in 64 bits with sign. -/
def longest : Span := ⟨(2 ^ 63 - 1) * 1000000⟩

/-- A length given as an unsigned number of seconds and nanoseconds, if it is not too long. -/
def ofUnsigned? (s n : Nat) : Option Span :=
  let d := ofParts s n
  if d.nanos ≤ longest.nanos then some d else none

end Span

namespace Instant

/-- The beginning of the calendar. -/
def first : Instant := ⟨(Date.dayNumber ⟨-262143, 1, 1⟩) * 86400, 0⟩

/-- The last second of the calendar. -/
def lastSecond : Int := (Date.dayNumber ⟨262142, 12, 31⟩) * 86400 + 86399

/-- Whether a count of seconds falls within the calendar. -/
def InRange (seconds : Int) : Prop := first.seconds ≤ seconds ∧ seconds ≤ lastSecond

instance (s : Int) : Decidable (InRange s) := inferInstanceAs (Decidable (_ ∧ _))

/-- Earlier, by seconds and then by nanoseconds. -/
def lt (a b : Instant) : Prop :=
  a.seconds < b.seconds ∨ (a.seconds = b.seconds ∧ a.nanos < b.nanos)

instance : LT Instant := ⟨lt⟩
instance (a b : Instant) : Decidable (a < b) := inferInstanceAs (Decidable (_ ∨ _))

/-- Not later. -/
def le (a b : Instant) : Prop := ¬ b < a

instance : LE Instant := ⟨le⟩
instance (a b : Instant) : Decidable (a ≤ b) := inferInstanceAs (Decidable (¬ _))

/-- Whether the clock shows a leap second. -/
def isLeap (t : Instant) : Bool := decide (nanosPerSecond ≤ t.nanos)

/-- All nanoseconds since 1970-01-01T00:00:00Z, leap seconds not counted. -/
def toNanos (t : Instant) : Int := t.seconds * nanosPerSecond + t.nanos

/-- The instant with the given count, outside leap seconds. -/
def ofNanos (n : Int) : Instant := ⟨n / nanosPerSecond, (n % nanosPerSecond).toNat⟩

/--
The count from which a length is added on.  From within a leap second the addition
starts at the second before it or, when it goes back by a second or more, at the
second after it.
-/
def origin (t : Instant) (d : Span) : Int :=
  if t.isLeap then
    if d.nanos ≤ -(nanosPerSecond : Int) then t.toNanos else t.toNanos - nanosPerSecond
  else t.toNanos

/-- Whether adding the length stays within the same second, leap or not. -/
def staysInLeap (t : Instant) (d : Span) : Bool :=
  t.isLeap && decide (-(nanosPerSecond : Int) < d.nanos)
    && decide (t.nanos + d.nanos < 2 * nanosPerSecond)

/-- The instant reached by adding a length, if it is within the calendar. -/
def add? (t : Instant) (d : Span) : Option Instant :=
  let reached := if t.staysInLeap d then ⟨t.seconds, (t.nanos + d.nanos).toNat⟩
    else ofNanos (t.origin d + d.nanos)
  if InRange reached.seconds then some reached else none

/-- The instant reached by taking a length away, if it is within the calendar. -/
def sub? (t : Instant) (d : Span) : Option Instant := t.add? d.neg

/-- Outside leap seconds adding is plain arithmetic. -/
theorem add?_of_not_isLeap {t : Instant} (h : t.isLeap = false) (d : Span) :
    t.add? d =
      if InRange (ofNanos (t.toNanos + d.nanos)).seconds then some (ofNanos (t.toNanos + d.nanos))
      else none := by
  simp [add?, staysInLeap, origin, h]

end Instant
end Dispatch.Time
