/-
Proposing, confirming, and rejecting what competes.

Each operation is a program of single calls on the match table, so that any number of
callers can be looked at in between.  Changes are made by transactions: whatever stops one
before it has committed, the transaction is dropped, and with it all that it had staged and
locked.

Proposing is idempotent for an open pair.  The pair is looked up first; a rival who is
faster still shows as a conflict, and then the pair is looked up again.  Confirming reads
the row under its lock, so that of two confirmations the later one sees the earlier.
Rejecting lists first and changes later; it changes only what is open by then.
-/
import Dispatch.Metrics
import Dispatch.Store.Steps
import Dispatch.Text.Blank

namespace Dispatch

/-- A call of these operations: on the match table, or to count something. -/
inductive MatchCall where
  | store (c : StoreCall)
  | count (o : Observation)

/-- The reply to a call. -/
abbrev MatchCall.Reply : MatchCall → Type
  | store c => c.Reply
  | count _ => Unit

/-- A program of calls on the match table and of counts. -/
abbrev MatchProgram (α : Type) : Type := Program MatchCall.Reply (Except ServiceError α)

/-- The rule that a draft breaks, if it does. -/
def Draft.refusal? (d : Draft) : Option Refusal :=
  if Text.isBlank d.driverId ∨ Text.isBlank d.passengerId then some .missingParty
  else if d.driverId = d.passengerId then some .sameActor
  else if d.isFinite then none
  else some .placeNotFinite

/-- The rule that a confirmation by `user` in the given role breaks, if it does. -/
def Proposal.refusal? (p : Proposal) (user : ActorId) (role : Role) : Option Refusal :=
  if p.party role ≠ user then some (.notParty user role p.id)
  else if p.status.isTerminal then some (.alreadyClosed p.id p.status)
  else if p.hasConfirmed role then some (.alreadyConfirmed role user p.id)
  else none

/-- What comes of a confirmation, judging by its result. -/
def Confirmation.ofResult : Except ServiceError Proposal → Confirmation
  | .ok p => if p.status = .accepted then accepted else confirmed
  | .error e => failed e.kind

namespace Matching

variable {α : Type}

/-- Counts something, and returns the result. -/
def counted (o : Observation) (result : Except ServiceError α) : MatchProgram α :=
  .call (.count o) fun _ => .done result

/-- Drops a transaction on account of an error. -/
def abandon (t : Ticket) (e : ServiceError) : MatchProgram α :=
  .call (.store (.rollback t)) fun _ => .done (.error e)

/-- Makes the changes of `body` in one transaction, which is committed unless they fail. -/
def transaction (body : Ticket → MatchProgram α) : MatchProgram α :=
  .call (.store .begin) fun
    | .error e => .done (.error (.store e))
    | .ok t => (body t).bind fun
      | .error e => abandon t e
      | .ok a => .call (.store (.commit t)) fun
        | .error e => abandon t (.store e)
        | .ok _ => .done (.ok a)

/-! ### Proposing -/

/-- Looks for the open proposal of a pair. -/
def lookUp (p : Pair) : MatchProgram (Option Proposal) :=
  .call (.store (.find p.1 p.2)) fun
    | .error e => .done (.error (.store e))
    | .ok found => .done (.ok found)

/-- Enters a draft. -/
def enter (d : Draft) : MatchProgram Proposal :=
  transaction fun t => .call (.store (.insert t d)) fun
    | .error e => .done (.error (.store e))
    | .ok p => .done (.ok p)

/-- The open proposal of a pair: the one there is, or a new one. -/
def propose (d : Draft) : MatchProgram Proposal :=
  match d.refusal? with
  | some r => .done (.error (.refused r))
  | none => (lookUp d.pair).bind fun
    | .error e => .done (.error e)
    | .ok (some p) => counted (.creation .existing) (.ok p)
    | .ok none => (enter d).bind fun
      | .ok p => counted (.creation .created) (.ok p)
      | .error (.store (.conflict reason)) => (lookUp d.pair).bind fun
        | .error e => .done (.error e)
        | .ok (some p) => counted (.creation .existing) (.ok p)
        | .ok none => .done (.error (.store (.conflict reason)))
      | .error e => .done (.error e)

/-! ### Confirming -/

/-- Reads a row that is to be changed. -/
def read (t : Ticket) (id : MatchId) : MatchProgram Proposal :=
  .call (.store (.lock t id)) fun
    | .error e => .done (.error (.store e))
    | .ok p => .done (.ok p)

/-- Writes a confirmation by the actor in the given role, and reads the row as it is then. -/
def writeConfirmation (t : Ticket) (id : MatchId) (p : Proposal) (role : Role) :
    MatchProgram Proposal :=
  let flags := p.flagsAfter role
  .call (.store (.update t id (Status.ofFlags flags.1 flags.2) flags.1 flags.2)) fun
    | .error e => .done (.error (.store e))
    | .ok (changed : Nat) =>
      if changed = 1 then read t id
      else .done (.error (.refused (.modifiedConcurrently id)))

/-- Confirms a proposal in one transaction. -/
def confirmLocked (id : MatchId) (user : ActorId) (role : Role) : MatchProgram Proposal :=
  transaction fun t => (read t id).bind fun
    | .error e => .done (.error e)
    | .ok p =>
      match p.refusal? user role with
      | some r => .done (.error (.refused r))
      | none => writeConfirmation t id p role

/-- Confirms a proposal on behalf of an actor, and counts what comes of it. -/
def confirm (id : MatchId) (user : ActorId) (role : Role) : MatchProgram Proposal :=
  (confirmLocked id user role).bind fun result =>
    counted (.confirmation (.ofResult result)) result

/-! ### Rejecting what competes -/

/-- The proposal under an identifier. -/
def get (id : MatchId) : MatchProgram Proposal :=
  .call (.store (.get id)) fun
    | .error e => .done (.error (.store e))
    | .ok p => .done (.ok p)

/-- The proposals in which an actor takes the given part, the newest first. -/
def list (actor : ActorId) (role : Role) : MatchProgram (List Proposal) :=
  .call (.store (.list actor role)) fun
    | .error e => .done (.error (.store e))
    | .ok ps => .done (.ok ps)

/-- The open ones among some proposals, apart from the accepted one. -/
def competitors (accepted : MatchId) (ps : List Proposal) : List MatchId :=
  (ps.filter fun p => decide (p.id ≠ accepted) && p.isOpen).map Proposal.id

/-- Rejects those of some proposals that are still open; how many there were. -/
def rejectOpen (ids : List MatchId) : MatchProgram Nat :=
  ((Store.batchUpdate ids .rejected Status.openStates).lift MatchCall.store fun _ r => r).bind fun
    | .error e => .done (.error (.store e))
    | .ok n => counted (.rejections n) (.ok n)

/-- Rejects the open proposals of a driver and a passenger because one has been accepted. -/
def rejectCompeting (accepted : MatchId) (driver passenger : ActorId) : MatchProgram Nat :=
  (get accepted).bind fun
    | .error e => .done (.error e)
    | .ok p =>
      if p.status ≠ .accepted then .done (.error (.refused (.notAccepted accepted p.status)))
      else (list driver .driver).bind fun
        | .error e => .done (.error e)
        | .ok driven => (list passenger .passenger).bind fun
          | .error e => .done (.error e)
          | .ok ridden =>
            match Store.sortedIds (competitors accepted driven ++ competitors accepted ridden) with
            | [] => .done (.ok 0)
            | ids => rejectOpen ids

end Matching
end Dispatch
