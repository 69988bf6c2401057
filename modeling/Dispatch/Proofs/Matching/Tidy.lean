/-
Operations that leave no entry behind.

A change of a row that is not there leaves an entry, and so does a transaction that locks a new row
of its own and is not committed (`Store.Leaves`).  No operation does either.  A confirmation changes
a row that it has read under the same lock, and a proposal never locks the row that it enters.  So
however many operations are under way, every entry is that of a row.
-/
import Dispatch.Proofs.Matching.LockOrder
import Dispatch.Proofs.Store.LockEntries

namespace Dispatch

open Store

/-- A single call is a move at the match table, or leaves the table as it is. -/
theorem Ledger.store_step (p : CallerProgram) (m : Moment) (l : Ledger) :
    (p.step (Ledger.perform m) l).2.store = l.store ∨ ∃ c, p.head? = some (.store c) ∧
      (p.step (Ledger.perform m) l).2.store = l.store.after (.call c m) := by
  cases p with
  | done r => exact .inl rfl
  | call c next =>
      cases c with
      | count o => exact .inl rfl
      | store c =>
          refine .inr ⟨c, rfl, ?_⟩
          rw [Program.step, Ledger.perform, Store.after]
          cases Store.perform m c l.store <;> rfl

/-- No stage of an operation leaves an entry for a row that is not there. -/
theorem Stage.exists_of_leaves {s : Store} {m : Moment} {o : Operation} {g : Stage} {c : StoreCall}
    {x : MatchId} (hof : Stage.Of o g) (hh : g.holding.Holds s)
    (hc : g.program.head? = some (.store c)) (h : Leaves x s (.call c m)) : s.Exists x := by
  cases hof with
  | asking q t =>
      cases hc
      obtain ⟨-, -, hstaged⟩ := h
      refine absurd ?_ hstaged
      rw [Transaction.stagedRow?, hh.2.1]
      rfl
  | updating hid hr t =>
      cases hc
      rw [← h.1, ← hid]
      exact Option.isSome_of_mem hh.2.2.2.2
  | rereading hid hr t now =>
      cases hc
      rw [← h.1, ← hid]
      exact Option.isSome_of_mem hh.2.2.2.2
  | rejecting q t ids n =>
      cases ids with
      | nil => cases hc
      | cons id rest =>
          cases hc
          exact h.elim
  | _ => cases hc <;> exact h.elim

namespace Traffic

variable {x : Traffic} {gs : List Stage}

/-- An event leaves no entry behind. -/
theorem Attended.entriesOfRows (h : Attended x gs) (hentries : x.store.EntriesOfRows) {e : Event}
    (hadm : x.Admits e) : (x.after e).store.EntriesOfRows := by
  cases e with
  | arrive o => exact hentries
  | outage offline => exact hentries
  | go k m =>
      cases hc : x.callers[k]? with
      | none =>
          rw [after_go_of_none hc]
          exact hentries
      | some c =>
          obtain ⟨g, hg⟩ := h.exists_stage hc
          obtain ⟨-, hof, hh⟩ := h.stage hc hg
          obtain ⟨g', s', metrics', step, hafter, -⟩ := h.go (fun _ _ _ => hadm) hc hg
          have hstore := Ledger.store_step g.program m ⟨x.store, x.ledger.metrics⟩
          rw [step.called.step] at hstore
          rw [hafter]
          rcases hstore with (hsame : s' = x.store) | ⟨c, hhead, (hmove : s' = x.store.after _)⟩
          · exact hsame ▸ hentries
          · subst hmove
            obtain ⟨rowOf, lines⟩ := h.ok.locks.lines
            exact hentries.after lines step.advance.exists_mono
              fun y hy => Stage.exists_of_leaves hof hh hhead hy

/-- **The operations leave no entry behind**, whatever the order of their calls. -/
theorem entriesOfRows {s : Store} (hquiet : s.Quiet) (hentries : s.EntriesOfRows)
    {events : List Event} (hadm : Run.Along after Admits (opening s) events) :
    ∀ x ∈ Run.states after (opening s) events, x.store.EntriesOfRows := by
  refine fun x hx => (Run.invariant (Q := fun x => (∃ gs, Orderly x gs) ∧ x.store.EntriesOfRows) ?_
    ⟨⟨[], .opening hquiet⟩, hentries⟩ hadm x hx).2
  rintro x e ⟨⟨gs, h⟩, hentries⟩ ha
  exact ⟨(h.after ha).1, h.entriesOfRows hentries ha⟩

end Traffic
end Dispatch
