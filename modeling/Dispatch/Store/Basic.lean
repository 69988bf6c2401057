/-
The match table.

A store holds the proposals by identifier and, for every driver and passenger, which of
their proposals is open.  Changes are made by transactions: what a transaction writes is
staged until it commits, and each row that it reads for writing or writes stays locked
until it ends.  A batch update locks one row after the other.

An open proposal occupies its pair.  The pair is claimed when the proposal is committed and
let go when a final status is written.
-/
import Dispatch.Error
import Dispatch.Store.Locks

namespace Dispatch

open Dispatch.Time

/-- A change that a transaction has yet to commit. -/
inductive Staged where
  | insert (row : Proposal)
  | update (row : Proposal)

namespace Staged

/-- The row as it will be. -/
def row : Staged → Proposal
  | insert r => r
  | update r => r

/-- The row, if it is a new one. -/
def inserted? : Staged → Option Proposal
  | insert r => some r
  | update _ => none

end Staged

/-- A transaction that has not ended. -/
structure Transaction where
  /-- its changes, the first one first -/
  staged : List Staged := []
  /-- the rows that it has locked, with their locks -/
  held : List (MatchId × LockId) := []

namespace Transaction

/-- Whether the transaction has locked a row. -/
def hasLocked (t : Transaction) (id : MatchId) : Bool := t.held.any fun h => h.1 == id

/-- The row as the transaction last staged it. -/
def stagedRow? (t : Transaction) (id : MatchId) : Option Proposal :=
  (t.staged.reverse.map Staged.row).find? fun r => r.id == id

end Transaction

/-- The match table. -/
structure Store where
  /-- the proposals, by identifier -/
  rows : Table MatchId Proposal := ∅
  /-- the open proposal of each pair -/
  openPairs : Table Pair MatchId := ∅
  locks : RowLocks := {}
  /-- the transactions that have not ended -/
  transactions : Table Ticket Transaction := ∅
  /-- the next unused ticket -/
  nextTicket : Ticket := 0
  /-- whether the table cannot be reached -/
  offline : Bool := false

namespace Store

/-- An operation that is only tried while the table can be reached. -/
def guarded {α : Type} (s : Store) (a : Except StoreError α) : Except StoreError α :=
  if s.offline then .error .offline else a

/-! ### Reading -/

/-- The row under an identifier. -/
def row? (s : Store) (id : MatchId) : Option Proposal := s.rows.find? id

/-- The open proposal of a pair, found through the pair. -/
def openProposal? (s : Store) (p : Pair) : Option Proposal :=
  match s.openPairs.find? p with
  | some id => (s.row? id).filter Proposal.isOpen
  | none => none

/-- The open proposals of a pair, found by looking at every row. -/
def openRows (s : Store) (p : Pair) : List Proposal :=
  s.rows.values.filter fun r => decide (r.pair = p) && r.isOpen

/-- The proposals in which an actor takes the given part, the newest first. -/
def rowsOf (s : Store) (actor : ActorId) (role : Role) : List Proposal :=
  (s.rows.values.filter fun r => r.party role == actor).mergeSort
    fun a b => decide (b.createdAt ≤ a.createdAt)

/-! ### Pairs -/

/-- Lets the pair of a closed row go, if the row occupies it. -/
def releasePair (s : Store) (r : Proposal) : Store :=
  if r.status.isTerminal ∧ s.openPairs.find? r.pair = some r.id then
    { s with openPairs := s.openPairs.erase r.pair }
  else s

/-- Enters a row, and occupies its pair. -/
def claimPair (s : Store) (r : Proposal) : Store :=
  { s with
    rows := s.rows.insert r.id r
    openPairs := s.openPairs.insert r.pair r.id }

/-- Takes a claim back. -/
def unclaimPair (s : Store) (r : Proposal) : Store :=
  { s with
    rows := s.rows.erase r.id
    openPairs := if s.openPairs.find? r.pair = some r.id then s.openPairs.erase r.pair
      else s.openPairs }

/-- Enters new rows in turn until one finds its pair taken; all claims are then taken back. -/
def claimAll : (claimed new : List Proposal) → Store → Except StoreError Unit × Store
  | _, [], s => (.ok (), s)
  | claimed, r :: rest, s =>
    if s.openPairs.contains r.pair then
      (.error (.pairTaken r.pair), claimed.foldl unclaimPair s)
    else claimAll (claimed ++ [r]) rest (s.claimPair r)

/-- Writes a row, and lets its pair go if it is closed. -/
def writeRow (s : Store) (r : Proposal) : Store :=
  let s := s.releasePair r
  { s with rows := s.rows.insert r.id r }

/-! ### Transactions -/

/-- A transaction; one that was never begun has staged nothing and locked nothing. -/
def transaction (s : Store) (t : Ticket) : Transaction := (s.transactions.find? t).getD {}

/-- Changes what is known of a transaction. -/
def setTransaction (s : Store) (t : Ticket) (x : Transaction) : Store :=
  { s with transactions := s.transactions.insert t x }

/-- The row as a transaction sees it: as it staged it, or as it is. -/
def current? (s : Store) (t : Ticket) (id : MatchId) : Option Proposal :=
  ((s.transaction t).stagedRow? id).or (s.row? id)

/-- Asks for the lock of a row on behalf of a transaction; whether the row is now locked. -/
def lockRow (s : Store) (t : Ticket) (id : MatchId) : Bool × Store :=
  let x := s.transaction t
  if x.hasLocked id then (true, s)
  else match s.locks.request t id with
    | (some l, locks) =>
      (true, { s with locks }.setTransaction t { x with held := x.held ++ [(id, l)] })
    | (none, locks) => (false, { s with locks })

/-- Lets the lock of one row go. -/
def unlockRow (s : Store) (t : Ticket) (id : MatchId) : Store :=
  let x := s.transaction t
  let freed := (x.held.filter fun h => h.1 == id).foldl (fun ls h => ls.leave h.2 t) s.locks
  { s with locks := freed }.setTransaction t
    { x with held := x.held.filter fun h => h.1 != id }

/-- Forgets the lock of a row that does not exist. -/
def forgetLockIfAbsent (s : Store) (id : MatchId) : Store :=
  if s.rows.contains id then s else { s with locks := s.locks.forget id }

/-- Ends a transaction: its locks are let go, and what it has not written is lost. -/
def endTransaction (s : Store) (t : Ticket) : Store :=
  let freed := (s.transaction t).held.foldl (fun ls h => ls.leave h.2 t) (s.locks.giveUp t)
  { s with locks := freed, transactions := s.transactions.erase t }

/-- Begins a transaction. -/
def beginTransaction (s : Store) : Ticket × Store :=
  (s.nextTicket,
    { s.setTransaction s.nextTicket {} with nextTicket := s.nextTicket + 1 })

/-- Stages a new row, unless its pair is taken. -/
def stageInsert (s : Store) (t : Ticket) (d : Draft) (id : MatchId) (now : Instant) :
    Except StoreError Proposal × Store :=
  let x := s.transaction t
  if (x.staged.filterMap Staged.inserted?).any (fun r => r.pair == d.pair)
      ∨ s.openPairs.contains d.pair then (.error (.pairTaken d.pair), s)
  else
    let r := d.toProposal id now
    (.ok r, s.setTransaction t { x with staged := x.staged ++ [.insert r] })

/-- Reads a row that is locked.  The lock of a row that does not exist is let go. -/
def readLocked (s : Store) (t : Ticket) (id : MatchId) : Except StoreError Proposal × Store :=
  match s.current? t id with
  | some r => (.ok r, s)
  | none => (.error (.notFound id), (s.unlockRow t id).forgetLockIfAbsent id)

/-- Stages new flags and a new status of a row that is locked and open; how many rows changed. -/
def stageUpdate (s : Store) (t : Ticket) (id : MatchId) (status : Status)
    (driverConfirmed passengerConfirmed : Bool) (now : Instant) : Nat × Store :=
  match s.current? t id with
  | none => (0, s)
  | some r =>
    if r.status.isTerminal then (0, s)
    else
      let x := s.transaction t
      let r := { r with status, driverConfirmed, passengerConfirmed, updatedAt := now }
      (1, s.setTransaction t { x with staged := x.staged ++ [.update r] })

/-- The first half of a commit: the new rows are entered and their pairs occupied. -/
def claimStaged (s : Store) (t : Ticket) : Except StoreError Unit × Store :=
  claimAll [] ((s.transaction t).staged.filterMap Staged.inserted?) s

/-- The second half of a commit: all staged rows are written in turn. -/
def writeStaged (s : Store) (t : Ticket) : Store :=
  ((s.transaction t).staged.map Staged.row).foldl writeRow s

/-- Commits a transaction.  It ends in any case. -/
def commit (s : Store) (t : Ticket) : Except StoreError Unit × Store :=
  if s.offline then (.error .offline, s.endTransaction t)
  else match s.claimStaged t with
    | (.error e, s) => (.error e, s.endTransaction t)
    | (.ok _, s) => (.ok (), (s.writeStaged t).endTransaction t)

/-! ### Batch updates -/

/-- Identifiers in ascending order, each once. -/
def sortedIds (ids : List MatchId) : List MatchId := (ids.mergeSort Uuid.le).eraseDups

/-- Draws a ticket for a batch update. -/
def openBatch (s : Store) : Ticket × Store :=
  (s.nextTicket, { s with nextTicket := s.nextTicket + 1 })

/-- Gives a row a new status if it has one of the given ones; whether it did. -/
def updateRow (s : Store) (id : MatchId) (status : Status) (allowed : List Status)
    (now : Instant) : Bool × Store :=
  match s.row? id with
  | none => (false, s.forgetLockIfAbsent id)
  | some r =>
    if r.status ∈ allowed then (true, s.writeRow { r with status, updatedAt := now })
    else (false, s)

end Store
end Dispatch
