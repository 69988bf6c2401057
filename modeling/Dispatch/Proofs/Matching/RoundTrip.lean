/-
What has been stored survives the wire.

A proposal that is entered has the places of the draft that it was made of, and these do not change.
So it is enough to ask of the drafts that the numbers in them can be read back, and of the clock
that it tells instants of the calendar: every row is then read back as it is, and so is the event of
its acceptance (`Proposal.Legible`).  That its coordinates are finite need not be asked, for the
drafts have been checked.

The time of a confirmation is not that of the call that stores it.  It is staged by an earlier call
of the same caller, so the invariant says of the stages in between that their times are regular.
-/
import Dispatch.Proofs.Matching.Rows
import Dispatch.Proofs.Wire

namespace Dispatch

open Json

/-! ### Rows -/

/-- Everything in a proposal is read back, and nothing in it is refused. -/
structure Proposal.Legible (p : Proposal) : Prop where
  trip : p.trip.Legible
  finite : p.trip.isFinite = true
  createdAt : p.createdAt.Regular
  updatedAt : p.updatedAt.Regular

namespace Proposal.Legible

variable {p : Proposal} {now : Time.Instant}

/-- A draft that breaks no rule becomes a proposal that can be read back. -/
theorem toProposal {d : Draft} (h : d.trip.Legible) (hd : d.refusal? = none) (id : MatchId)
    (hnow : now.Regular) : (d.toProposal id now).Legible where
  trip := h
  finite := by
    have hsound := Proposal.Sound.toProposal hd id now
    rw [Trip.isFinite, Bool.and_eq_true, Bool.and_eq_true, Option.all_eq_true]
    exact ⟨⟨hsound.driverLocation, hsound.passengerLocation⟩, hsound.targetLocation⟩
  createdAt := hnow
  updatedAt := hnow

theorem confirmedBy (h : p.Legible) (role : Role) (hnow : now.Regular) :
    (p.confirmedBy role now).Legible := { h with updatedAt := hnow }

theorem rejectedAt (h : p.Legible) (hnow : now.Regular) : (p.rejectedAt now).Legible :=
  { h with updatedAt := hnow }

/-- A proposal is read back from the text that it is written as. -/
theorem read (h : p.Legible) : readAll Proposal.ofDoc p.toJson.text.toList = .ok p := by
  rw [readAll_text]
  exact (Proposal.reads h.trip h.createdAt h.updatedAt).trans (if_pos h.finite)

end Proposal.Legible

/-- Everything in the rows is read back. -/
def Store.RowsLegible (s : Store) : Prop := ∀ id r, s.row? id = some r → r.Legible

theorem Store.RowsLegible.of_row? {s s' : Store} (h : s.RowsLegible) (hrow : s'.row? = s.row?) :
    s'.RowsLegible := fun id r hr => h id r (by rw [← hrow, hr])

theorem Store.RowsLegible.of_update {s s' : Store} (h : s.RowsLegible) {id : MatchId}
    {n : Proposal} (hn : n.Legible) (hrow : s'.row? = Function.update s.row? id (some n)) :
    s'.RowsLegible := by
  intro id' r hr
  rw [hrow, Function.update_apply] at hr
  split at hr
  · obtain rfl := Option.some.inj hr
    exact hn
  · exact h id' r hr

/-! ### What is asked of the callers and of the clock -/

/-- What is proposed is read back. -/
def Operation.Legible : Operation → Prop
  | propose d => d.trip.Legible
  | confirm _ _ _ | rejectCompeting _ _ _ => True

instance : (o : Operation) → Decidable o.Legible
  | .propose d => inferInstanceAs (Decidable d.trip.Legible)
  | .confirm _ _ _ | .rejectCompeting _ _ _ => inferInstanceAs (Decidable True)

/-- What is proposed is read back, and the clock tells an instant of the calendar. -/
def Event.Legible : Event → Prop
  | arrive o => o.Legible
  | go _ m => m.now.Regular
  | outage _ => True

instance : (e : Event) → Decidable e.Legible
  | .arrive o => inferInstanceAs (Decidable o.Legible)
  | .go _ m => inferInstanceAs (Decidable m.now.Regular)
  | .outage _ => inferInstanceAs (Decidable True)

namespace Stage

/-- The time that a caller has staged is an instant of the calendar. -/
def Timed : Stage → Prop
  | committing _ _ _ now | rereading _ _ _ now | closing _ _ _ now => now.Regular
  | _ => True

theorem timed_first (o : Operation) : (first o).Timed := by
  cases o with
  | propose d => rw [first_propose]; cases d.refusal? <;> trivial
  | confirm id user role => trivial
  | rejectCompeting accepted driver passenger => trivial

/-! ### One call -/

variable {s s' : Store} {m : Moment} {g g' : Stage}

/-- A time is staged at the time of the call, and kept until it is stored. -/
theorem Goes.timed (h : Goes s m g g' s') (hm : m.now.Regular) (hg : g.Timed) : g'.Timed := by
  cases h with
  | unreachable => cases g <;> first | exact hg | trivial
  | inserted | updated => exact hm
  | reread => exact hg
  | _ => trivial

/-- What is stored is legible: a draft that has been checked, a row with the time that has been
staged, or a row with the time of the call. -/
theorem Goes.rowsLegible {o : Operation} (h : Goes s m g g' s') (ho : o.Legible) (hof : Of o g)
    (hm : m.now.Regular) (hg : g.Timed) (hs : s.RowsLegible) : s'.RowsLegible := by
  cases h with
  | entered d t id now hnew hrow =>
      cases hof with
      | committing hd => exact hs.of_update (.toProposal ho hd id hg) hrow
  | @closed q t r now _ hid hr he hrow =>
      exact hs.of_update ((hs q.id r hr).confirmedBy q.role hg) hrow
  | @rejected q t id ids n r _ hr hopen _ _ hrow =>
      exact hs.of_update ((hs id r hr).rejectedAt hm) hrow
  | _ => first | exact hs | exact hs.of_row? (by assumption)

end Stage

/-! ### Throughout a run -/

namespace Traffic

open Store

/-- Everything in the rows is read back, and so is everything that will be stored. -/
structure Legible (x : Traffic) (gs : List Stage) : Prop where
  orderly : x.Orderly gs
  operations : ∀ c ∈ x.callers, c.operation.Legible
  timed : ∀ g ∈ gs, g.Timed
  rows : x.store.RowsLegible

/-- **Every event keeps everything legible.** -/
theorem Legible.after {x : Traffic} {gs : List Stage} (h : x.Legible gs) {e : Event}
    (hadm : x.Admits e) (he : e.Legible) : ∃ gs', (x.after e).Legible gs' := by
  cases e with
  | arrive o =>
      exact ⟨gs ++ [Stage.first o], h.orderly.arrive o, Run.forall_mem_concat h.operations he,
        Run.forall_mem_concat h.timed (Stage.timed_first o), h.rows⟩
  | outage offline => exact ⟨gs, h.orderly.outage offline, h.operations, h.timed, h.rows⟩
  | go k m =>
      cases hc : x.callers[k]? with
      | none =>
          rw [after_go_of_none hc]
          exact ⟨gs, h⟩
      | some c =>
          obtain ⟨g, hg⟩ := h.orderly.exists_stage hc
          obtain ⟨g', s', metrics', step, hafter, horderly⟩ :=
            h.orderly.go (fun _ _ _ => hadm) hc hg
          have hasked : c.operation.Legible := h.operations c (List.mem_of_getElem? hc)
          have htimed : g.Timed := h.timed g (List.mem_of_getElem? hg)
          have hof : Stage.Of c.operation g := (h.orderly.stage hc hg).2.1
          refine ⟨gs.set k g', horderly, ?_,
            Run.forall_mem_set h.timed (step.goes.timed he htimed) k, ?_⟩
          · rw [hafter]
            exact Run.forall_mem_set (a := { c with rest := g'.program }) h.operations hasked k
          · rw [hafter]
            exact step.goes.rowsLegible hasked hof he htimed h.rows

/-- Before anybody has called, from a table without rows. -/
theorem legible_empty : Legible {} [] where
  orderly := .opening .empty
  operations c hc := by cases hc
  timed g hg := by cases hg
  rows id r hr := by cases hr

/-- Everything in the rows is read back in every state of a run. -/
theorem rowsLegible {events : List Event}
    (hrun : Run.Along after (fun x e => x.Admits e ∧ e.Legible) {} events) :
    ∀ x ∈ Run.states after {} events, x.store.RowsLegible := by
  have hstep : ∀ {x : Traffic} {e : Event}, (∃ gs, x.Legible gs) → x.Admits e ∧ e.Legible →
      ∃ gs, (x.after e).Legible gs := fun ⟨_, h⟩ he => h.after he.1 he.2
  intro x hx
  obtain ⟨gs, h⟩ := Run.invariant hstep ⟨[], legible_empty⟩ hrun x hx
  exact h.rows

/-! ### Over the wire -/

end Traffic
end Dispatch
