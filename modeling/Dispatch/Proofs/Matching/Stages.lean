/-
The operations, call by call.

The programs of the operations are put together from parts, each of which goes on with what the
part before it has found.  Here they are laid out as the calls that are made one after the other.
A `Stage` is a place in one of the programs, together with what the caller has found so far;
`Stage.program` is what is left of the program there.  That the stages are those of the
operations is `Operation.program_eq`.
-/
import Dispatch.Proofs.Matching.Traffic

namespace Dispatch

/-- What a caller has got hold of. -/
inductive Holding where
  | nothing
  /-- a transaction that has neither staged nor locked anything; the row asked for, if any -/
  | begun (t : Ticket) (asks : Option MatchId)
  /-- a transaction that has staged a new row -/
  | entering (t : Ticket) (d : Draft) (id : MatchId) (now : Time.Instant)
  /-- a transaction that has locked a row, and the row -/
  | reading (t : Ticket) (r : Proposal)
  /-- a transaction that has locked a row and staged a confirmation of it -/
  | writing (t : Ticket) (r : Proposal) (role : Role) (now : Time.Instant)
  /-- a ticket without a transaction; the row asked for, if any -/
  | ticket (t : Ticket) (asks : Option MatchId)

/-- The ticket that a caller holds. -/
def Holding.ticket? : Holding → Option Ticket
  | nothing => none
  | begun t _ | entering t _ _ _ | reading t _ | writing t _ _ _ | ticket t _ => some t

/-- The row that a caller has locked, as he has read it. -/
def Holding.locked? : Holding → Option Proposal
  | reading _ r | writing _ r _ _ => some r
  | nothing | begun _ _ | entering _ _ _ _ | ticket _ _ => none

/-- A proposal that has been confirmed in one more role. -/
def Proposal.confirmedBy (r : Proposal) (role : Role) (now : Time.Instant) : Proposal :=
  { r with
    status := Status.ofFlags (r.flagsAfter role).1 (r.flagsAfter role).2
    driverConfirmed := (r.flagsAfter role).1
    passengerConfirmed := (r.flagsAfter role).2
    updatedAt := now }

/-- A proposal that has been rejected. -/
def Proposal.rejectedAt (r : Proposal) (now : Time.Instant) : Proposal :=
  { r with status := .rejected, updatedAt := now }

/-- The arguments of a confirmation. -/
structure Confirming where
  id : MatchId
  user : ActorId
  role : Role

/-- The arguments of a rejection. -/
structure Rejecting where
  accepted : MatchId
  driver : ActorId
  passenger : ActorId

/-- A place in the program of an operation. -/
inductive Stage where
  | finished (r : Outcome)
  | counting (o : Observation) (r : Outcome)
  -- proposing
  | searching (d : Draft)
  | beginning (d : Draft)
  | inserting (d : Draft) (t : Ticket)
  | committing (d : Draft) (t : Ticket) (id : MatchId) (now : Time.Instant)
  | withdrawing (d : Draft) (t : Ticket) (h : Holding) (e : ServiceError)
  | searchingAgain (d : Draft) (reason : String)
  -- confirming
  | starting (q : Confirming)
  | asking (q : Confirming) (t : Ticket)
  | updating (q : Confirming) (t : Ticket) (r : Proposal)
  | rereading (q : Confirming) (t : Ticket) (r : Proposal) (now : Time.Instant)
  | closing (q : Confirming) (t : Ticket) (r : Proposal) (now : Time.Instant)
  | dropping (q : Confirming) (t : Ticket) (h : Holding) (e : ServiceError)
  -- rejecting
  | checking (q : Rejecting)
  | listingDriven (q : Rejecting)
  | listingRidden (q : Rejecting) (driven : List Proposal)
  | opening (q : Rejecting) (ids : List MatchId)
  | rejecting (q : Rejecting) (t : Ticket) (ids : List MatchId) (n : Nat)

/-! ### The programs, from their ends -/

/-- Counts something, and then the operation is finished. -/
def thenCount (o : Observation) (r : Outcome) : CallerProgram := .call (.count o) fun _ => .done r

namespace Proposing

/-- The pair is looked up again. -/
def searchAgain (d : Draft) (reason : String) : CallerProgram :=
  .call (.store (.find d.driverId d.passengerId)) fun
    | .error e => .done (.proposal (.error (.store e)))
    | .ok (some p) => thenCount (.creation .existing) (.proposal (.ok p))
    | .ok none => .done (.proposal (.error (.store (.conflict reason))))

/-- The draft has been entered, or could not be. -/
def entered (d : Draft) : Except ServiceError Proposal → CallerProgram
  | .ok p => thenCount (.creation .created) (.proposal (.ok p))
  | .error (.store (.conflict reason)) => searchAgain d reason
  | .error e => .done (.proposal (.error e))

/-- The transaction is dropped. -/
def withdraw (d : Draft) (t : Ticket) (e : ServiceError) : CallerProgram :=
  .call (.store (.rollback t)) fun _ => entered d (.error e)

/-- The transaction is committed. -/
def commit (d : Draft) (t : Ticket) (p : Proposal) : CallerProgram :=
  .call (.store (.commit t)) fun
    | .error e => withdraw d t (.store e)
    | .ok _ => entered d (.ok p)

/-- The row is staged. -/
def insert (d : Draft) (t : Ticket) : CallerProgram :=
  .call (.store (.insert t d)) fun
    | .error e => withdraw d t (.store e)
    | .ok p => commit d t p

/-- A transaction is begun. -/
def begin (d : Draft) : CallerProgram :=
  .call (.store .begin) fun
    | .error e => entered d (.error (.store e))
    | .ok t => insert d t

/-- The pair is looked up. -/
def search (d : Draft) : CallerProgram :=
  .call (.store (.find d.driverId d.passengerId)) fun
    | .error e => .done (.proposal (.error (.store e)))
    | .ok (some p) => thenCount (.creation .existing) (.proposal (.ok p))
    | .ok none => begin d

/-- What is made of the attempt to enter a draft. -/
def settle (d : Draft) :
    Except ServiceError Proposal → Program MatchCall.Reply (Except ServiceError Proposal)
  | .ok p => Matching.counted (.creation .created) (.ok p)
  | .error (.store (.conflict reason)) => (Matching.lookUp d.pair).bind fun
    | .error e => .done (.error e)
    | .ok (some p) => Matching.counted (.creation .existing) (.ok p)
    | .ok none => .done (.error (.store (.conflict reason)))
  | .error e => .done (.error e)

theorem settle_eq (d : Draft) (r : Except ServiceError Proposal) :
    Program.bind (settle d r) (fun r => .done (.proposal r)) = entered d r := by
  rcases r with e | p
  · cases e with
    | store e =>
        cases e with
        | conflict reason =>
            refine congrArg (Program.call _) (funext fun reply => ?_)
            rcases reply with e | _ | p <;> rfl
        | _ => rfl
    | _ => rfl
  · rfl

theorem program_eq (d : Draft) : (Operation.propose d).program =
    match d.refusal? with
    | some r => .done (.proposal (.error (.refused r)))
    | none => search d := by
  show Program.bind (Matching.propose d) (fun r => .done (Outcome.proposal r)) = _
  unfold Matching.propose
  cases d.refusal? with
  | some r => rfl
  | none =>
      refine congrArg (Program.call _) (funext fun reply => ?_)
      rcases reply with e | _ | p
      · rfl
      · refine congrArg (Program.call _) (funext fun reply => ?_)
        rcases reply with e | t
        · exact settle_eq d (.error (.store e))
        · refine congrArg (Program.call _) (funext fun reply => ?_)
          rcases reply with e | p
          · refine congrArg (Program.call _) (funext fun _ => ?_)
            exact settle_eq d (.error (.store e))
          · refine congrArg (Program.call _) (funext fun reply => ?_)
            rcases reply with e | _
            · refine congrArg (Program.call _) (funext fun _ => ?_)
              exact settle_eq d (.error (.store e))
            · exact settle_eq d (.ok p)
      · rfl

end Proposing

namespace Confirming

/-- The outcome is counted. -/
def tell (r : Except ServiceError Proposal) : CallerProgram :=
  thenCount (.confirmation (.ofResult r)) (.proposal r)

/-- The transaction is dropped. -/
def drop (t : Ticket) (e : ServiceError) : CallerProgram :=
  .call (.store (.rollback t)) fun _ => tell (.error e)

/-- The transaction is committed. -/
def commit (t : Ticket) (r : Proposal) : CallerProgram :=
  .call (.store (.commit t)) fun
    | .error e => drop t (.store e)
    | .ok _ => tell (.ok r)

/-- The row is read again. -/
def reread (q : Confirming) (t : Ticket) : CallerProgram :=
  .call (.store (.lock t q.id)) fun
    | .error e => drop t (.store e)
    | .ok r => commit t r

/-- The confirmation is written. -/
def update (q : Confirming) (t : Ticket) (r : Proposal) : CallerProgram :=
  .call (.store (.update t q.id (Status.ofFlags (r.flagsAfter q.role).1 (r.flagsAfter q.role).2)
      (r.flagsAfter q.role).1 (r.flagsAfter q.role).2)) fun
    | .error e => drop t (.store e)
    | .ok (changed : Nat) =>
      if changed = 1 then reread q t else drop t (.refused (.modifiedConcurrently q.id))

/-- A row that has been read is confirmed, unless that is refused. -/
def judge (q : Confirming) (t : Ticket) (r : Proposal) : CallerProgram :=
  match r.refusal? q.user q.role with
  | some e => drop t (.refused e)
  | none => update q t r

/-- The row is read. -/
def ask (q : Confirming) (t : Ticket) : CallerProgram :=
  .call (.store (.lock t q.id)) fun
    | .error e => drop t (.store e)
    | .ok r =>
      match r.refusal? q.user q.role with
      | some e => drop t (.refused e)
      | none => update q t r

/-- A transaction is begun. -/
def start (q : Confirming) : CallerProgram :=
  .call (.store .begin) fun
    | .error e => tell (.error (.store e))
    | .ok t => ask q t

theorem program_eq (q : Confirming) :
    (Operation.confirm q.id q.user q.role).program = start q := by
  refine congrArg (Program.call _) (funext fun reply => ?_)
  rcases reply with e | t
  · rfl
  · refine congrArg (Program.call _) (funext fun reply => ?_)
    rcases reply with e | r
    · rfl
    · show Program.bind (Program.bind (Program.bind (match r.refusal? q.user q.role with
        | some e => .done (.error (.refused e))
        | none => Matching.writeConfirmation t q.id r q.role) _) _) _
        = match r.refusal? q.user q.role with
          | some e => drop t (.refused e)
          | none => update q t r
      cases r.refusal? q.user q.role with
      | some e => rfl
      | none =>
          refine congrArg (Program.call _) (funext fun reply => ?_)
          rcases reply with e | n
          · rfl
          · show Program.bind (Program.bind (Program.bind (if n = 1 then Matching.read t q.id
              else .done (.error (.refused (.modifiedConcurrently q.id)))) _) _) _
              = if n = 1 then reread q t else drop t (.refused (.modifiedConcurrently q.id))
            split
            · refine congrArg (Program.call _) (funext fun reply => ?_)
              rcases reply with e | r'
              · rfl
              · refine congrArg (Program.call _) (funext fun reply => ?_)
                rcases reply with e | _ <;> rfl
            · rfl

end Confirming

namespace Rejecting

/-- The number of rejected proposals is counted. -/
def tell (n : Nat) : CallerProgram := thenCount (.rejections n) (.rejections (.ok n))

/-- The rows are rejected one by one. -/
def reject (t : Ticket) : (ids : List MatchId) → (n : Nat) → CallerProgram
  | [], n => tell n
  | id :: rest, n => .call (.store (.updateRow t id .rejected Status.openStates)) fun (b : Bool) =>
    reject t rest (if b then n + 1 else n)

/-- A batch update is begun. -/
def openBatch (ids : List MatchId) : CallerProgram :=
  .call (.store .openBatch) fun
    | .error e => .done (.rejections (.error (.store e)))
    | .ok t => reject t (Store.sortedIds ids) 0

/-- What has been listed is rejected, unless it is nothing. -/
def rejectListed : List MatchId → CallerProgram
  | [] => .done (.rejections (.ok 0))
  | ids => openBatch ids

theorem rejectListed_of_ne_nil {ids : List MatchId} (h : ids ≠ []) :
    rejectListed ids = openBatch ids := by
  cases ids with
  | nil => exact absurd rfl h
  | cons id rest => rfl

/-- The proposals of the passenger are listed. -/
def listRidden (q : Rejecting) (driven : List Proposal) : CallerProgram :=
  .call (.store (.list q.passenger .passenger)) fun
    | .error e => .done (.rejections (.error (.store e)))
    | .ok ridden =>
      match Store.sortedIds (Matching.competitors q.accepted driven
        ++ Matching.competitors q.accepted ridden) with
      | [] => .done (.rejections (.ok 0))
      | ids => openBatch ids

/-- The proposals of the driver are listed. -/
def listDriven (q : Rejecting) : CallerProgram :=
  .call (.store (.list q.driver .driver)) fun
    | .error e => .done (.rejections (.error (.store e)))
    | .ok driven => listRidden q driven

/-- The accepted proposal is looked at. -/
def check (q : Rejecting) : CallerProgram :=
  .call (.store (.get q.accepted)) fun
    | .error e => .done (.rejections (.error (.store e)))
    | .ok r =>
      if r.status ≠ .accepted then
        .done (.rejections (.error (.refused (.notAccepted q.accepted r.status))))
      else listDriven q

/-- The rows of a batch update are gone through one by one. -/
theorem reject_eq (t : Ticket) (ids : List MatchId) (n : Nat) :
    Program.bind (Program.bind (Program.lift MatchCall.store (fun _ r => r)
      (ids.foldr (fun id rest changed =>
          .call (.updateRow t id .rejected Status.openStates) fun (b : Bool) =>
            rest (if b then changed + 1 else changed))
        (fun changed => (.done (.ok changed) : Program StoreCall.Reply (Except StoreError Nat))) n))
      (fun
        | .error e => .done (.error (.store e))
        | .ok n => Matching.counted (.rejections n) (.ok n)))
      (fun r => .done (Outcome.rejections r)) = reject t ids n := by
  induction ids generalizing n with
  | nil => rfl
  | cons id rest ih => exact congrArg (Program.call _) (funext fun b => ih _)

theorem program_eq (q : Rejecting) :
    (Operation.rejectCompeting q.accepted q.driver q.passenger).program = check q := by
  refine congrArg (Program.call _) (funext fun reply => ?_)
  rcases reply with e | r
  · rfl
  · show Program.bind (if r.status ≠ .accepted then
        .done (Except.error (ServiceError.refused (.notAccepted q.accepted r.status))) else _)
        (fun r => .done (Outcome.rejections r))
      = if r.status ≠ .accepted then _ else listDriven q
    split
    · rfl
    · refine congrArg (Program.call _) (funext fun reply => ?_)
      rcases reply with e | driven
      · rfl
      · refine congrArg (Program.call _) (funext fun reply => ?_)
        rcases reply with e | ridden
        · rfl
        · show Program.bind (match Store.sortedIds (Matching.competitors q.accepted driven
              ++ Matching.competitors q.accepted ridden) with
            | [] => .done (Except.ok 0)
            | ids => Matching.rejectOpen ids) (fun r => .done (Outcome.rejections r))
            = match Store.sortedIds (Matching.competitors q.accepted driven
              ++ Matching.competitors q.accepted ridden) with
            | [] => _
            | ids => openBatch ids
          split
          · rfl
          · refine congrArg (Program.call _) (funext fun reply => ?_)
            rcases reply with e | t
            · rfl
            · exact reject_eq t _ 0

end Rejecting

/-! ### Stages -/

namespace Stage

/-- What is left of the program. -/
def program : Stage → CallerProgram
  | finished r => .done r
  | counting o r => thenCount o r
  | searching d => Proposing.search d
  | beginning d => Proposing.begin d
  | inserting d t => Proposing.insert d t
  | committing d t id now => Proposing.commit d t (d.toProposal id now)
  | withdrawing d t _ e => Proposing.withdraw d t e
  | searchingAgain d reason => Proposing.searchAgain d reason
  | starting q => q.start
  | asking q t => q.ask t
  | updating q t r => q.update t r
  | rereading q t _ _ => q.reread t
  | closing q t r now => Confirming.commit t (r.confirmedBy q.role now)
  | dropping _ t _ e => Confirming.drop t e
  | checking q => q.check
  | listingDriven q => q.listDriven
  | listingRidden q driven => q.listRidden driven
  | opening _ ids => Rejecting.openBatch ids
  | rejecting _ t ids n => Rejecting.reject t ids n

/-- What the caller has got hold of. -/
def holding : Stage → Holding
  | inserting _ t => .begun t none
  | committing d t id now => .entering t d id now
  | withdrawing _ _ h _ | dropping _ _ h _ => h
  | asking q t => .begun t (some q.id)
  | updating _ t r => .reading t r
  | rereading q t r now | closing q t r now => .writing t r q.role now
  | rejecting _ t ids _ => .ticket t ids.head?
  | _ => .nothing

/-- The stages of an operation, with what has been checked on the way. -/
inductive Of : Operation → Stage → Prop where
  | finished (o : Operation) (r : Outcome) : Of o (.finished r)
  | counting (o : Operation) (obs : Observation) (r : Outcome) : Of o (.counting obs r)
  | searching {d : Draft} (hd : d.refusal? = none) : Of (.propose d) (.searching d)
  | beginning {d : Draft} (hd : d.refusal? = none) : Of (.propose d) (.beginning d)
  | inserting {d : Draft} (hd : d.refusal? = none) (t : Ticket) :
      Of (.propose d) (.inserting d t)
  | committing {d : Draft} (hd : d.refusal? = none) (t : Ticket) (id : MatchId)
      (now : Time.Instant) : Of (.propose d) (.committing d t id now)
  | withdrawing {d : Draft} (hd : d.refusal? = none) {t : Ticket} {h : Holding}
      (ht : h.ticket? = some t) (e : ServiceError) : Of (.propose d) (.withdrawing d t h e)
  | searchingAgain {d : Draft} (hd : d.refusal? = none) (reason : String) :
      Of (.propose d) (.searchingAgain d reason)
  | starting (q : Confirming) : Of (.confirm q.id q.user q.role) (.starting q)
  | asking (q : Confirming) (t : Ticket) : Of (.confirm q.id q.user q.role) (.asking q t)
  | updating {q : Confirming} {r : Proposal} (hid : r.id = q.id)
      (hr : r.refusal? q.user q.role = none) (t : Ticket) :
      Of (.confirm q.id q.user q.role) (.updating q t r)
  | rereading {q : Confirming} {r : Proposal} (hid : r.id = q.id)
      (hr : r.refusal? q.user q.role = none) (t : Ticket) (now : Time.Instant) :
      Of (.confirm q.id q.user q.role) (.rereading q t r now)
  | closing {q : Confirming} {r : Proposal} (hid : r.id = q.id)
      (hr : r.refusal? q.user q.role = none) (t : Ticket) (now : Time.Instant) :
      Of (.confirm q.id q.user q.role) (.closing q t r now)
  | dropping (q : Confirming) {t : Ticket} {h : Holding} (ht : h.ticket? = some t)
      (e : ServiceError) : Of (.confirm q.id q.user q.role) (.dropping q t h e)
  | checking (q : Rejecting) :
      Of (.rejectCompeting q.accepted q.driver q.passenger) (.checking q)
  | listingDriven (q : Rejecting) :
      Of (.rejectCompeting q.accepted q.driver q.passenger) (.listingDriven q)
  | listingRidden (q : Rejecting) (driven : List Proposal) :
      Of (.rejectCompeting q.accepted q.driver q.passenger) (.listingRidden q driven)
  | opening (q : Rejecting) (ids : List MatchId) :
      Of (.rejectCompeting q.accepted q.driver q.passenger) (.opening q ids)
  | rejecting (q : Rejecting) (t : Ticket) (ids : List MatchId) (n : Nat) :
      Of (.rejectCompeting q.accepted q.driver q.passenger) (.rejecting q t ids n)

/-- Rows are entered for those who propose. -/
theorem Of.eq_propose {o : Operation} {d : Draft} {t : Ticket} (h : Of o (.inserting d t)) :
    o = .propose d := by
  cases h
  rfl

/-- The first stage of an operation. -/
def first : Operation → Stage
  | .propose d =>
    match d.refusal? with
    | some r => .finished (.proposal (.error (.refused r)))
    | none => .searching d
  | .confirm id user role => .starting ⟨id, user, role⟩
  | .rejectCompeting accepted driver passenger => .checking ⟨accepted, driver, passenger⟩

theorem first_propose (d : Draft) : first (.propose d) =
    match d.refusal? with
    | some r => .finished (.proposal (.error (.refused r)))
    | none => .searching d := rfl

theorem of_first (o : Operation) : Of o (first o) := by
  cases o with
  | propose d =>
      rw [first_propose]
      cases hd : d.refusal? with
      | some r => exact .finished _ _
      | none => exact .searching hd
  | confirm id user role => exact .starting ⟨id, user, role⟩
  | rejectCompeting accepted driver passenger => exact .checking ⟨accepted, driver, passenger⟩

theorem holding_first (o : Operation) : (first o).holding = .nothing := by
  cases o with
  | propose d => rw [first_propose]; cases d.refusal? <;> rfl
  | confirm id user role => rfl
  | rejectCompeting accepted driver passenger => rfl

/-- Whoever has been told something has finished. -/
theorem eq_finished {g : Stage} {r : Outcome} (h : g.program.result? = some r) :
    g = .finished r := by
  cases g with
  | finished r' => exact congrArg Stage.finished (Option.some.inj h)
  | rejecting q t ids n => cases ids <;> cases h
  | _ => cases h

/-- Whoever has not finished makes a call. -/
theorem exists_call {g : Stage} (hg : ∀ r, g ≠ .finished r) :
    ∃ c next, g.program = .call c next := by
  cases g with
  | finished r => exact absurd rfl (hg r)
  | rejecting q t ids n => cases ids <;> exact ⟨_, _, rfl⟩
  | _ => exact ⟨_, _, rfl⟩

end Stage

/-- **The program of an operation is what is to be done at its first stage.** -/
theorem Operation.program_eq (o : Operation) : o.program = (Stage.first o).program := by
  cases o with
  | propose d =>
      rw [Proposing.program_eq, Stage.first_propose]
      cases d.refusal? <;> rfl
  | confirm id user role => exact Confirming.program_eq ⟨id, user, role⟩
  | rejectCompeting accepted driver passenger =>
      exact Rejecting.program_eq ⟨accepted, driver, passenger⟩

end Dispatch
