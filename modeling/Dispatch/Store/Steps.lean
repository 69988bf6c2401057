/-
The calls on the match table.

Each call is one step that nothing can come between.  A call that asks for a lock which
somebody else holds waits: it has joined the line at the lock and changed nothing else, and
trying it again, once it is first in line, completes it.  Whether the table can be reached
is looked at when a call is made and not again when it has waited.

Time and identifiers come from outside: a `Moment` holds what a call finds there.
-/
import Dispatch.Program
import Dispatch.Store.Basic

namespace Dispatch

open Dispatch.Time

/-- What a call finds outside: the time, and an identifier that nobody has used. -/
structure Moment where
  now : Instant
  freshId : MatchId

/-- A call on the match table. -/
inductive StoreCall where
  | begin
  | find (driver passenger : ActorId)
  | get (id : MatchId)
  | list (actor : ActorId) (role : Role)
  | insert (tx : Ticket) (draft : Draft)
  /-- reads a row and keeps it locked -/
  | lock (tx : Ticket) (id : MatchId)
  | update (tx : Ticket) (id : MatchId) (status : Status)
      (driverConfirmed passengerConfirmed : Bool)
  | commit (tx : Ticket)
  /-- drops a transaction -/
  | rollback (tx : Ticket)
  /-- begins a batch update -/
  | openBatch
  /-- one row of a batch update -/
  | updateRow (batch : Ticket) (id : MatchId) (status : Status) (allowed : List Status)

/-- The reply to a call. -/
def StoreCall.Reply : StoreCall → Type
  | begin => Except StoreError Ticket
  | find _ _ => Except StoreError (Option Proposal)
  | get _ => Except StoreError Proposal
  | list _ _ => Except StoreError (List Proposal)
  | insert _ _ => Except StoreError Proposal
  | lock _ _ => Except StoreError Proposal
  | update _ _ _ _ _ => Except StoreError Nat
  | commit _ => Except StoreError Unit
  | rollback _ => Unit
  | openBatch => Except StoreError Ticket
  | updateRow _ _ _ _ => Bool

namespace Store

/-- A reply together with the table after it. -/
def replied {ρ : Type} (r : ρ × Store) : Turn Store ρ := .answer r.1 r.2

/-- A call that needs the row locked: refused while the table cannot be reached, unless it
has been waiting; otherwise it waits for the lock or goes on with `f`. -/
def withLock {α : Type} (s : Store) (t : Ticket) (id : MatchId)
    (f : Store → Except StoreError α × Store) : Turn Store (Except StoreError α) :=
  if s.offline ∧ s.locks.waitsFor t id = false then .answer (.error .offline) s
  else match s.lockRow t id with
    | (true, s) => replied (f s)
    | (false, s) => .wait s

/-- One row of a batch update, once its lock is held. -/
def updateLocked (s : Store) (t : Ticket) (id : MatchId) (status : Status)
    (allowed : List Status) (now : Instant) : Turn Store Bool :=
  match s.locks.request t id with
  | (none, locks) => .wait { s with locks }
  | (some l, locks) =>
    let (changed, s) := { s with locks }.updateRow id status allowed now
    .answer changed { s with locks := s.locks.leave l t }

/-- How the match table takes a call. -/
def perform (m : Moment) : Handler StoreCall.Reply Store
  | .begin, s =>
    if s.offline then .answer (.error .offline) s
    else let (t, s) := s.beginTransaction; .answer (.ok t) s
  | .find driver passenger, s => .answer (s.guarded (.ok (s.openProposal? (driver, passenger)))) s
  | .get id, s =>
    .answer (s.guarded (match s.row? id with
      | some r => .ok r
      | none => .error (.notFound id))) s
  | .list actor role, s => .answer (s.guarded (.ok (s.rowsOf actor role))) s
  | .insert t draft, s =>
    if s.offline then .answer (.error .offline) s
    else replied (s.stageInsert t draft m.freshId m.now)
  | .lock t id, s => s.withLock t id fun s => s.readLocked t id
  | .update t id status driver passenger, s =>
    s.withLock t id fun s =>
      let (n, s) := s.stageUpdate t id status driver passenger m.now
      (.ok n, s)
  | .commit t, s => replied (s.commit t)
  | .rollback t, s => .answer () (s.endTransaction t)
  | .openBatch, s =>
    if s.offline then .answer (.error .offline) s
    else let (t, s) := s.openBatch; .answer (.ok t) s
  | .updateRow t id status allowed, s => s.updateLocked t id status allowed m.now

/-- What remains when the caller stops waiting: he is no longer in line. -/
def giveUp : StoreCall → Store → Store
  | .lock t _, s | .update t _ _ _ _, s | .updateRow t _ _ _, s =>
    { s with locks := s.locks.giveUp t }
  | _, s => s

/-! ### Whole operations -/

/-- Gives all the rows named the new status, if they have one of the allowed ones, and counts
those that changed. -/
def batchUpdate (ids : List MatchId) (status : Status) (allowed : List Status) :
    Program StoreCall.Reply (Except StoreError Nat) :=
  .call .openBatch fun
    | .error e => .done (.error e)
    | .ok t =>
      (sortedIds ids).foldr
        (fun id rest changed => .call (.updateRow t id status allowed) fun (b : Bool) =>
          rest (if b then changed + 1 else changed))
        (fun changed => .done (.ok changed)) 0

end Store
end Dispatch
