/-
What holds of every match table.

`StagedOK` says that the locks are in order and that what each open transaction has staged could
still be written: its changes are coherent with the rows, its new rows are nobody else's, and it
holds the lock of every row that it updates.  `StoreOK` says besides that the index of pairs is
exact.  Both are kept by every move that enters no row with somebody at a forgotten lock of it; the
index needs batch updates to give rows a final status, the rest does not.

The reason is the same each time.  A row that one transaction is about to change is either a
new one, which no other transaction has and which is not in the table, or it is locked, and
then nobody else changes it before the transaction ends.
-/
import Dispatch.Proofs.Store.Exclusion
import Dispatch.Proofs.Store.Staging

namespace Dispatch

/-- The locks are in order, and so is what the open transactions have staged. -/
structure StagedOK (s : Store) : Prop where
  locks : LocksOK s
  /-- Every row is found under its own identifier. -/
  id_eq : ∀ {id r}, s.row? id = some r → r.id = id
  /-- What is staged could be written. -/
  coherent : ∀ t, Coherent s.row? (s.transaction t).staged
  /-- No two transactions give a new row the same identifier. -/
  distinct : ∀ {t u r r'}, r ∈ (s.transaction t).newRows → r' ∈ (s.transaction u).newRows →
    r.id = r'.id → t = u
  /-- Whoever updates a row holds its lock. -/
  locked : ∀ {t r}, .update r ∈ (s.transaction t).staged → ∃ l, (r.id, l) ∈ s.held t

/-- The table and its open transactions are in order. -/
structure StoreOK (s : Store) : Prop where
  locks : LocksOK s
  indexed : Indexed s
  /-- What is staged could be written. -/
  coherent : ∀ t, Coherent s.row? (s.transaction t).staged
  /-- No two transactions give a new row the same identifier. -/
  distinct : ∀ {t u r r'}, r ∈ (s.transaction t).newRows → r' ∈ (s.transaction u).newRows →
    r.id = r'.id → t = u
  /-- Whoever updates a row holds its lock. -/
  locked : ∀ {t r}, .update r ∈ (s.transaction t).staged → ∃ l, (r.id, l) ∈ s.held t

namespace StagedOK

variable {s : Store}

theorem empty : StagedOK {} where
  locks := LocksOK.empty
  id_eq h := by cases h
  coherent _ := .nil _
  distinct h := by cases h
  locked h := by cases h

/-! ### Two transactions change different rows -/

/-- A row that a transaction changes is a new one, or it is in the table and locked. -/
theorem new_or_locked (ok : StagedOK s) {t : Ticket} {c : Staged}
    (hc : c ∈ (s.transaction t).staged) :
    (∃ r ∈ (s.transaction t).newRows, r.id = c.row.id) ∨
      (s.Exists c.row.id ∧ ∃ l, (c.row.id, l) ∈ s.held t) := by
  rcases (ok.coherent t).base hc with h | ⟨b, hb⟩
  · exact Or.inl h
  · have hx : s.Exists c.row.id := by
      unfold Store.Exists
      rw [hb]
      rfl
    cases c with
    | insert r => exact Or.inl ⟨r, mem_newRowsOf.2 hc, rfl⟩
    | update r => exact Or.inr ⟨hx, ok.locked hc⟩

/-- A new row is not in the table. -/
theorem not_exists_of_new (ok : StagedOK s) {t : Ticket} {r : Proposal}
    (hr : r ∈ (s.transaction t).newRows) : ¬ s.Exists r.id := by
  unfold Store.Exists
  rw [((ok.coherent t).new_absent r hr).1]
  exact Bool.false_ne_true

/-- **Two transactions change different rows.** -/
theorem apart (ok : StagedOK s) {t u : Ticket} (htu : t ≠ u) {c d : Staged}
    (hc : c ∈ (s.transaction t).staged) (hd : d ∈ (s.transaction u).staged) :
    c.row.id ≠ d.row.id := by
  intro he
  rcases ok.new_or_locked hc with ⟨r, hr, hre⟩ | ⟨hx, l, hl⟩
  · rcases ok.new_or_locked hd with ⟨r', hr', hre'⟩ | ⟨hx', -⟩
    · exact htu (ok.distinct hr hr' (hre.trans (he.trans hre'.symm)))
    · rw [← he, ← hre] at hx'
      exact ok.not_exists_of_new hr hx'
  · rcases ok.new_or_locked hd with ⟨r', hr', hre'⟩ | ⟨-, l', hl'⟩
    · rw [he, ← hre'] at hx
      exact ok.not_exists_of_new hr' hx
    · rw [← he] at hl'
      exact htu (ok.locks.exclusive hl hl' hx)

/-- The changes of a transaction can still be made when rows that it does not change have
been written. -/
theorem coherent_of_row? (ok : StagedOK s) {t : Ticket} {view : MatchId → Option Proposal}
    (h : ∀ c ∈ (s.transaction t).staged, view c.row.id = s.row? c.row.id) :
    Coherent view (s.transaction t).staged :=
  (ok.coherent t).congr h

/-! ### Operations that write no rows -/

/-- Locks may change, and transactions may be dropped. -/
theorem ofLocks (ok : StagedOK s) {s' : Store} (hl : LocksOK s')
    (hrow : ∀ id, s'.row? id = s.row? id)
    (hstaged : ∀ t, (s'.transaction t).staged = (s.transaction t).staged ∨
      (s'.transaction t).staged = [])
    (hheld : ∀ t r, .update r ∈ (s'.transaction t).staged →
      ∀ l, (r.id, l) ∈ s.held t → (r.id, l) ∈ s'.held t) : StagedOK s' where
  locks := hl
  id_eq h := by rw [hrow] at h; exact ok.id_eq h
  coherent t := by
    rcases hstaged t with h | h
    · rw [h]
      exact ok.coherent_of_row? fun c _ => hrow _
    · rw [h]
      exact .nil _
  distinct := by
    have hsub : ∀ {t r}, r ∈ (s'.transaction t).newRows → r ∈ (s.transaction t).newRows := by
      intro t r hr
      unfold Transaction.newRows at hr ⊢
      rcases hstaged t with h | h
      · rw [h] at hr; exact hr
      · rw [h] at hr; cases hr
    intro t u r r' hr hr' he
    exact ok.distinct (hsub hr) (hsub hr') he
  locked := by
    intro t r hr
    rcases hstaged t with h | h
    · have hr' := hr
      rw [h] at hr'
      obtain ⟨l, hmem⟩ := ok.locked hr'
      exact ⟨l, hheld t r hr l hmem⟩
    · rw [h] at hr; cases hr

theorem outage (ok : StagedOK s) (offline : Bool) : StagedOK { s with offline } :=
  ok.ofLocks ⟨ok.locks.lines, ok.locks.open_lt, ok.locks.waiting_lt⟩ (fun _ => rfl)
    (fun _ => Or.inl rfl) (fun _ _ _ _ h => h)

theorem giveUp (ok : StagedOK s) (t : Ticket) : StagedOK { s with locks := s.locks.giveUp t } :=
  ok.ofLocks (ok.locks.giveUp t) (fun _ => rfl) (fun _ => Or.inl rfl)
    (fun _ _ _ _ h => h)

theorem openBatch (ok : StagedOK s) : StagedOK s.openBatch.2 :=
  ok.ofLocks ok.locks.openBatch (fun _ => rfl) (fun _ => Or.inl rfl)
    (fun _ _ _ _ h => h)

/-- A change of what a transaction holds, but not of what it has staged. -/
theorem setHeld (ok : StagedOK s) {t : Ticket} {locks : RowLocks} {held : List (MatchId × LockId)}
    (hl : LocksOK ({ s with locks }.setTransaction t { s.transaction t with held }))
    (hheld : ∀ r, .update r ∈ (s.transaction t).staged → ∀ l, (r.id, l) ∈ s.held t →
      (r.id, l) ∈ held) :
    StagedOK ({ s with locks }.setTransaction t { s.transaction t with held }) := by
  have htr : ∀ u, (({ s with locks } : Store).setTransaction t
      { s.transaction t with held }).transaction u
      = if u = t then { s.transaction t with held } else s.transaction u :=
    fun u => Store.transaction_setTransaction _ _ _ _
  refine ok.ofLocks hl (fun _ => rfl) ?_ ?_
  · intro u
    rw [htr]
    split
    · subst u; exact Or.inl rfl
    · exact Or.inl rfl
  · intro u r hr l hmem
    unfold Store.held
    rw [htr] at hr ⊢
    split
    · subst u
      rw [if_pos rfl] at hr
      exact hheld r hr l hmem
    · exact hmem

theorem endTransaction (ok : StagedOK s) (t : Ticket) : StagedOK (s.endTransaction t) := by
  refine ok.ofLocks (ok.locks.endTransaction t) (fun _ => rfl) ?_ ?_
  · intro u
    rw [s.transaction_endTransaction]
    split
    · exact Or.inr rfl
    · exact Or.inl rfl
  · intro u r hr l hmem
    unfold Store.held
    rw [s.transaction_endTransaction] at hr ⊢
    split
    · subst u
      rw [if_pos rfl] at hr
      cases hr
    · exact hmem

theorem forgetLockIfAbsent (ok : StagedOK s) (id : MatchId) : StagedOK (s.forgetLockIfAbsent id) := by
  have hl := ok.locks.forgetLockIfAbsent id
  unfold Store.forgetLockIfAbsent at hl ⊢
  split
  · exact ok
  · rename_i h
    rw [if_neg h] at hl
    exact ok.ofLocks hl (fun _ => rfl) (fun _ => Or.inl rfl) (fun _ _ _ _ h => h)

theorem beginTransaction (ok : StagedOK s) : StagedOK s.beginTransaction.2 := by
  have hnone := s.transaction_of_not_isOpen ok.locks.not_isOpen_nextTicket
  have htr : ∀ u, s.beginTransaction.2.transaction u = s.transaction u := by
    intro u
    show (s.setTransaction s.nextTicket {}).transaction u = _
    rw [Store.transaction_setTransaction]
    split
    · subst u; exact hnone.symm
    · rfl
  refine ok.ofLocks ok.locks.beginTransaction (fun _ => rfl) ?_ ?_
  · intro u; rw [htr]; exact Or.inl rfl
  · intro u r _ l hmem
    unfold Store.held
    rw [htr]
    exact hmem

end StagedOK

/-! ### The index of pairs -/

namespace StoreOK

variable {s : Store}

theorem stagedOK (ok : StoreOK s) : StagedOK s :=
  ⟨ok.locks, ok.indexed.id_eq, ok.coherent, ok.distinct, ok.locked⟩

theorem of_stagedOK (ok : StagedOK s) (ix : Indexed s) : StoreOK s :=
  ⟨ok.locks, ix, ok.coherent, ok.distinct, ok.locked⟩

theorem empty : StoreOK {} := by
  refine .of_stagedOK .empty ⟨?_, ?_⟩
  · intro id r h; cases h
  · intro p id
    constructor
    · intro h; cases h
    · rintro ⟨r, h, -⟩; cases h

theorem outage (ok : StoreOK s) (offline : Bool) : StoreOK { s with offline } :=
  .of_stagedOK (ok.stagedOK.outage offline) (ok.indexed.congr (fun _ => rfl) fun _ => rfl)

theorem giveUp (ok : StoreOK s) (t : Ticket) : StoreOK { s with locks := s.locks.giveUp t } :=
  .of_stagedOK (ok.stagedOK.giveUp t) (ok.indexed.congr (fun _ => rfl) fun _ => rfl)

theorem openBatch (ok : StoreOK s) : StoreOK s.openBatch.2 :=
  .of_stagedOK ok.stagedOK.openBatch (ok.indexed.congr (fun _ => rfl) fun _ => rfl)

theorem endTransaction (ok : StoreOK s) (t : Ticket) : StoreOK (s.endTransaction t) :=
  .of_stagedOK (ok.stagedOK.endTransaction t) (ok.indexed.congr (fun _ => rfl) fun _ => rfl)

theorem beginTransaction (ok : StoreOK s) : StoreOK s.beginTransaction.2 :=
  .of_stagedOK ok.stagedOK.beginTransaction (ok.indexed.congr (fun _ => rfl) fun _ => rfl)

end StoreOK
end Dispatch
