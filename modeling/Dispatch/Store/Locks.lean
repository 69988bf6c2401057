/-
Row locks.

A lock is a line of people.  Whoever stands first holds it; whoever wants it joins at the
end, and leaving the line, from the front or from anywhere else, is all there is to
releasing a lock or to giving up waiting.  So locks are served in order of arrival, and a
lock that is let go belongs at once to the next in line, whether or not he has noticed.

A row finds its lock under its identifier.  The entry may be dropped while somebody still
stands in that line: those who come later then meet at a new lock.  That is why a waiting
party remembers the lock it waits at.
-/
import Dispatch.Table
import Dispatch.Uuid

namespace Dispatch

/-- Somebody who can hold a lock: a transaction, or a batch update. -/
abbrev Ticket : Type := Nat

/-- A lock, apart from the row that it is found under. -/
abbrev LockId : Type := Nat

/-- All row locks. -/
structure RowLocks where
  /-- the lock that is found under each row -/
  names : Table Uuid LockId := ∅
  /-- the line at each lock -/
  lines : Table LockId (List Ticket) := ∅
  /-- for whom waits: the row asked for, and the lock waited at -/
  waiting : Table Ticket (Uuid × LockId) := ∅
  /-- the next unused lock -/
  next : LockId := 0
  deriving DecidableEq

namespace RowLocks

/-- The line at a lock. -/
def line (s : RowLocks) (l : LockId) : List Ticket := (s.lines.find? l).getD []

/-- Whether somebody stands first at a lock. -/
def holds (s : RowLocks) (l : LockId) (t : Ticket) : Bool := (s.line l).head? == some t

/-- Whether somebody waits for the given row. -/
def waitsFor (s : RowLocks) (t : Ticket) (row : Uuid) : Bool :=
  match s.waiting.find? t with
  | some (row', _) => row' == row
  | none => false

/-- The lock found under a row; a new one if there is none. -/
def named (s : RowLocks) (row : Uuid) : LockId × RowLocks :=
  match s.names.find? row with
  | some l => (l, s)
  | none => (s.next, { s with names := s.names.insert row s.next, next := s.next + 1 })

/-- Stands at the end of the line, unless already in it. -/
def join (s : RowLocks) (l : LockId) (t : Ticket) : RowLocks :=
  if t ∈ s.line l then s else { s with lines := s.lines.insert l (s.line l ++ [t]) }

/-- Leaves the line. -/
def leave (s : RowLocks) (l : LockId) (t : Ticket) : RowLocks :=
  { s with lines := s.lines.insert l ((s.line l).erase t) }

/-- Forgets the lock that is found under a row. -/
def forget (s : RowLocks) (row : Uuid) : RowLocks := { s with names := s.names.erase row }

/-- Gives up waiting. -/
def giveUp (s : RowLocks) (t : Ticket) : RowLocks :=
  match s.waiting.find? t with
  | some (_, l) => { s.leave l t with waiting := s.waiting.erase t }
  | none => s

/-- The lock that somebody who asks for a row goes to: the one he waits at, or the row's. -/
def target (s : RowLocks) (t : Ticket) (row : Uuid) : LockId × RowLocks :=
  match s.waiting.find? t with
  | some (row', l) => if row' = row then (l, s) else s.named row
  | none => s.named row

/-- Asks for the lock of a row: the lock if it is now held, and the lines after asking. -/
def request (s : RowLocks) (t : Ticket) (row : Uuid) : Option LockId × RowLocks :=
  let (l, s) := s.target t row
  let s := s.join l t
  if s.holds l t then (some l, { s with waiting := s.waiting.erase t })
  else (none, { s with waiting := s.waiting.insert t (row, l) })

end RowLocks
end Dispatch
