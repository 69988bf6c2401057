/-
Whose consent is in the rows.

A confirmation has succeeded as soon as its transaction has been committed: all that is left of it
then is to count, and to return the row (`CallerProgram.verdict?`).  Nothing can come between, and
it is not said of a confirmation that it has succeeded before.

The rows and the callers agree on who has confirmed what (`Traffic.Tallied`): an actor stands in a
row as having confirmed it in his role if one caller has succeeded in doing so for him, and if none
has he does not; and it is never more than one.  This is so because the same call that writes a
confirmation into a row lets its caller succeed, and no other call does the one or the other
(`Stage.Goes.consents`).
-/
import Dispatch.Proofs.Service.Accounts

namespace Dispatch

open Store

/-! ### Success -/

namespace CallerProgram

/-- What a program returns, if nothing is left to do but to count. -/
def verdict? : CallerProgram → Option Outcome
  | .done r => some r
  | .call (.count _) next => verdict? (next ())
  | .call (.store _) _ => none

/-- It returns this whatever the table is like. -/
theorem run_of_verdict? {p : CallerProgram} {r : Outcome} (h : p.verdict? = some r) (m : Moment)
    (l : Ledger) : (p.run (Ledger.perform m) l).1 = .done r := by
  induction p generalizing l with
  | done r' => exact congrArg Program.done (Option.some.inj h)
  | call c next ih =>
      cases c with
      | count o => exact ih () h _
      | store c => cases h

end CallerProgram

/-- The proposal that is returned, if it is one. -/
def Outcome.proposal? : Outcome → Option Proposal
  | proposal (.ok p) => some p
  | proposal (.error _) | rejections _ => none

theorem Outcome.eq_of_proposal? {r : Outcome} {p : Proposal} (h : r.proposal? = some p) :
    r = .proposal (.ok p) := by
  unfold proposal? at h
  split at h
  · rw [Option.some.inj h]
  all_goals cases h

namespace Caller

/-- The proposal that a caller is told of in the end, if his operation has succeeded. -/
def returns? (c : Caller) : Option Proposal := c.rest.verdict?.bind Outcome.proposal?

/-- A caller has confirmed a proposal on behalf of an actor in a role, and has succeeded. -/
def hasConfirmed (c : Caller) (id : MatchId) (user : ActorId) (role : Role) : Bool :=
  match c.operation with
  | .confirm id' user' role' =>
    decide (id' = id ∧ user' = user ∧ role' = role) && c.returns?.isSome
  | .propose _ | .rejectCompeting _ _ _ => false

theorem hasConfirmed_of_not_confirms {c : Caller} (h : ¬ c.operation.Confirms) (id : MatchId)
    (user : ActorId) (role : Role) : c.hasConfirmed id user role = false := by
  unfold hasConfirmed
  split
  · rename_i heq
    exact absurd (by rw [heq]; trivial) h
  all_goals rfl

theorem hasConfirmed_of_returns? {c : Caller} (h : c.returns? = none) (id : MatchId)
    (user : ActorId) (role : Role) : c.hasConfirmed id user role = false := by
  unfold hasConfirmed
  split
  · simp [h]
  all_goals rfl

/-- Nobody has succeeded from the start. -/
theorem hasConfirmed_first (o : Operation) (id : MatchId) (user : ActorId) (role : Role) :
    Caller.hasConfirmed ⟨o, o.program⟩ id user role = false := by
  by_cases ho : o.Confirms
  · cases o with
    | confirm id' user' role' =>
        rw [Operation.program_eq]
        simp [hasConfirmed, returns?, Stage.first, Stage.program, Confirming.start,
          CallerProgram.verdict?]
    | _ => exact ho.elim
  · exact hasConfirmed_of_not_confirms ho id user role

/-- Nobody who still has to do with a ticket has succeeded. -/
theorem hasConfirmed_of_ticket {o : Operation} {g : Stage} (hof : Stage.Of o g) {t : Ticket}
    (h : g.holding.ticket? = some t) (id : MatchId) (user : ActorId) (role : Role) :
    Caller.hasConfirmed ⟨o, g.program⟩ id user role = false := by
  cases hof with
  | finished r => cases h
  | counting obs r => cases h
  | _ => simp [hasConfirmed, returns?, Stage.program, Confirming.ask, Confirming.update,
      Confirming.reread, Confirming.commit, Confirming.drop, Confirming.start,
      CallerProgram.verdict?]

end Caller

/-! ### Consent -/

/-- An actor has confirmed a proposal in a role. -/
def Proposal.consents (r : Proposal) (user : ActorId) (role : Role) : Bool :=
  decide (r.party role = user) && r.hasConfirmed role

/-- A confirmation that breaks no rule adds the consent of one actor, who had not confirmed. -/
theorem Proposal.consents_confirmedBy {r : Proposal} {user user' : ActorId} {role role' : Role}
    (h : r.refusal? user role = none) (now : Time.Instant) :
    ((r.confirmedBy role now).consents user' role').toNat
      = (r.consents user' role').toNat + (decide (user = user' ∧ role = role')).toNat := by
  obtain ⟨rfl, -, hnot⟩ := refusal?_eq_none.1 h
  by_cases hu : r.party role' = user' <;> cases role <;> cases role' <;>
    simp_all [consents, confirmedBy, flagsAfter, hasConfirmed, party]

/-- A row is there, and an actor has confirmed it in a role. -/
def Store.consents (s : Store) (id : MatchId) (user : ActorId) (role : Role) : Bool :=
  (s.row? id).any fun r => r.consents user role

namespace Store

variable {s s' : Store} {id : MatchId} {user : ActorId} {role : Role}

theorem consents_of_row? {r : Option Proposal} (h : s.row? id = r) :
    s.consents id user role = r.any fun r => r.consents user role := by
  rw [consents, h]

/-- What becomes of the consents if one row is written. -/
theorem consents_of_update {id' : MatchId} {n : Proposal}
    (hrow : s'.row? = Function.update s.row? id' (some n)) : s'.consents id user role
      = if id = id' then n.consents user role else s.consents id user role := by
  rw [consents, hrow, Function.update_apply]
  split <;> rfl

end Store

namespace Stage

variable {s s' : Store} {m : Moment} {o : Operation} {g g' : Stage}

/-- **A call that writes a confirmation lets its caller succeed**, and no other call does the one or
the other. -/
theorem Goes.consents (h : Goes s m g g' s') (hof : Of o g) (id : MatchId) (user : ActorId)
    (role : Role) :
    (s'.consents id user role).toNat + (Caller.hasConfirmed ⟨o, g.program⟩ id user role).toNat
      = (s.consents id user role).toNat
        + (Caller.hasConfirmed ⟨o, g'.program⟩ id user role).toNat := by
  -- most calls leave the consents as they are and let nobody succeed
  have hsame : s'.consents id user role = s.consents id user role →
      Caller.hasConfirmed ⟨o, g'.program⟩ id user role
        = Caller.hasConfirmed ⟨o, g.program⟩ id user role →
      (s'.consents id user role).toNat + (Caller.hasConfirmed ⟨o, g.program⟩ id user role).toNat
        = (s.consents id user role).toNat
          + (Caller.hasConfirmed ⟨o, g'.program⟩ id user role).toNat := by
    intro hconsents hcaller
    rw [hconsents, hcaller]
  have hrows : s'.row? = s.row? → s'.consents id user role = s.consents id user role := by
    intro hrow
    rw [Store.consents, Store.consents, hrow]
  cases h with
  | entered d t id' now hnew hrow =>
      cases hof
      refine hsame ?_ rfl
      rw [consents_of_update hrow]
      split
      · rename_i hid
        subst hid
        rw [consents_of_row? hnew]
        cases role <;> simp [Proposal.consents, Draft.toProposal, Proposal.hasConfirmed]
      · rfl
  | @closed q t r now _ hid hr he hrow =>
      cases hof
      have hbefore : Caller.hasConfirmed ⟨.confirm q.id q.user q.role,
          (closing q t r now).program⟩ id user role = false :=
        Caller.hasConfirmed_of_ticket (.closing hid he t now) rfl id user role
      have hafter : Caller.hasConfirmed ⟨.confirm q.id q.user q.role,
          (counting (.confirmation (.ofResult (.ok (r.confirmedBy q.role now))))
            (.proposal (.ok (r.confirmedBy q.role now)))).program⟩ id user role
          = decide (q.id = id ∧ q.user = user ∧ q.role = role) := Bool.and_true _
      rw [hbefore, hafter, consents_of_update hrow]
      -- in the row that is confirmed the one new consent is that of the caller
      by_cases hq : id = q.id
      · subst hq
        rw [if_pos rfl, Proposal.consents_confirmedBy he, consents_of_row? hr]
        simp
      · simp [hq, Ne.symm hq]
  | @rejected q t id' ids n r _ hr hopen _ _ hrow =>
      cases hof
      refine hsame ?_ rfl
      rw [consents_of_update hrow]
      split
      · rename_i hid
        subst hid
        rw [consents_of_row? hr]
        rfl
      · rfl
  | unreachable g hoff hrow =>
      refine hsame (hrows hrow) ?_
      cases hof <;> rfl
  | finished r => exact hsame rfl rfl
  | counted obs r => exact hsame rfl rfl
  | _ =>
      cases hof
      all_goals refine hsame (hrows ?_) ?_
      all_goals first | rfl | assumption

end Stage

/-! ### Any number of callers -/

/-- Where one of a list is replaced, those with a property are as many as before but for him. -/
theorem countP_set_add {α : Type} {p : α → Bool} {l : List α} {k : Nat} {a b : α}
    (h : l[k]? = some a) : (l.set k b).countP p + (p a).toNat = l.countP p + (p b).toNat := by
  obtain ⟨hk, rfl⟩ := List.getElem?_eq_some_iff.mp h
  have hle := List.boole_getElem_le_countP (p := p) hk
  rw [List.countP_set hk]
  cases ha : p l[k] <;> cases hb : p b <;> simp_all

namespace Traffic

/-- How many callers have confirmed a proposal on behalf of an actor in a role, with success. -/
def confirmations (x : Traffic) (id : MatchId) (user : ActorId) (role : Role) : Nat :=
  x.callers.countP fun c => c.hasConfirmed id user role

/-- An actor has confirmed a row if one caller has succeeded in doing so for him, and not if none
has; more than one never have. -/
def Tallied (x : Traffic) : Prop :=
  ∀ id user role, x.confirmations id user role = (x.store.consents id user role).toNat

namespace Tallied

variable {x : Traffic}

theorem arrive (h : x.Tallied) (o : Operation) : (x.after (.arrive o)).Tallied := by
  intro id user role
  have hnew : confirmations (x.after (.arrive o)) id user role = x.confirmations id user role := by
    simp [confirmations, after, List.countP_append, Caller.hasConfirmed_first]
  rw [hnew]
  exact h id user role

/-- In the place of one caller there is another one; he has succeeded just if the rows have one more
consent for it. -/
theorem put (h : x.Tallied) {k : Nat} {c c' : Caller} {s' : Store} {metrics' : Metrics}
    (hc : x.callers[k]? = some c)
    (hconsents : ∀ id user role,
      (s'.consents id user role).toNat + (c.hasConfirmed id user role).toNat
        = (x.store.consents id user role).toNat + (c'.hasConfirmed id user role).toNat) :
    Tallied { ledger := ⟨s', metrics'⟩, callers := x.callers.set k c' } := by
  intro id user role
  have hold := h id user role
  have hset := countP_set_add (p := fun c => c.hasConfirmed id user role) (b := c') hc
  have hstep := hconsents id user role
  unfold confirmations at hold
  show (x.callers.set k c').countP _ = (s'.consents id user role).toNat
  omega

end Tallied
end Traffic
end Dispatch
