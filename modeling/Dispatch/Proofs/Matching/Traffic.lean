/-
Any number of operations under way.

Callers propose, confirm and reject, each by a program of single calls on the match table and
the counts.  `Traffic` is the table, the counts and the callers, each with what is left of his
program.  An `Event` is that somebody calls, that one caller makes his next single call, or that
the table cannot be reached any more, or can again.  A call that has to wait is tried again
whenever its caller goes on.

Nothing is said about the order of events, so a run of events is any interleaving of any number
of operations.
-/
import Dispatch.Matching
import Dispatch.Proofs.Store.Moves

namespace Dispatch

/-- What somebody asks for. -/
inductive Operation where
  | propose (d : Draft)
  | confirm (id : MatchId) (user : ActorId) (role : Role)
  | rejectCompeting (accepted : MatchId) (driver passenger : ActorId)

/-- What he is told in the end. -/
inductive Outcome where
  | proposal (r : Except ServiceError Proposal)
  | rejections (r : Except ServiceError Nat)

/-- A caller's program. -/
abbrev CallerProgram : Type := Program MatchCall.Reply Outcome

/-- The program of an operation. -/
def Operation.program : Operation → CallerProgram
  | propose d => (Matching.propose d).bind fun r => .done (.proposal r)
  | confirm id user role => (Matching.confirm id user role).bind fun r => .done (.proposal r)
  | rejectCompeting accepted driver passenger =>
    (Matching.rejectCompeting accepted driver passenger).bind fun r => .done (.rejections r)

/-- The match table and the counts. -/
structure Ledger where
  store : Store := {}
  metrics : Metrics := {}

/-- How the match table and the counts take a call. -/
def Ledger.perform (m : Moment) : Handler MatchCall.Reply Ledger
  | .store c, l => (Store.perform m c l.store).mapState fun store => { l with store }
  | .count o, l => .answer () { l with metrics := l.metrics.record o }

/-- Somebody who has called, and what is left of his program. -/
structure Caller where
  operation : Operation
  rest : CallerProgram

/-- The match table, the counts, and all who have called, the first one first. -/
structure Traffic where
  ledger : Ledger := {}
  callers : List Caller := []

/-- Something that happens. -/
inductive Event where
  | arrive (o : Operation)
  /-- a caller makes his next call -/
  | go (k : Nat) (m : Moment)
  | outage (offline : Bool)

namespace Traffic

/-- The match table. -/
abbrev store (x : Traffic) : Store := x.ledger.store

/-- A state in which nobody has called yet. -/
def opening (s : Store) : Traffic where
  ledger := { store := s }

/-- The state after an event. -/
def after (x : Traffic) : Event → Traffic
  | .arrive o => { x with callers := x.callers ++ [{ operation := o, rest := o.program }] }
  | .go k m =>
    match x.callers[k]? with
    | some c =>
      let (rest, ledger) := c.rest.step (Ledger.perform m) x.ledger
      { ledger, callers := x.callers.set k { c with rest } }
    | none => x
  | .outage offline => { x with ledger.store.offline := offline }

/-- The events that can happen: identifiers are fresh when they are drawn. -/
def Admits (x : Traffic) : Event → Prop
  | .go _ m => x.store.Unused m.freshId
  | .arrive _ | .outage _ => True

instance (x : Traffic) : (e : Event) → Decidable (x.Admits e)
  | .go _ m => inferInstanceAs (Decidable (x.store.Unused m.freshId))
  | .arrive _ | .outage _ => inferInstanceAs (Decidable True)

/-- What a caller has been told, if his operation has come to its end. -/
def outcome? (x : Traffic) (k : Nat) : Option Outcome :=
  (x.callers[k]?).bind fun c => c.rest.result?

end Traffic
end Dispatch
