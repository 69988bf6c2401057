/-
What a single move can do.

Nothing is assumed about the locks here.  `Store.Effect` says what a move can do to the rows, the
index of pairs and what is staged, and has four cases: most moves leave all of it as it is, some
stage a change or lose what was staged, a commit writes all that a transaction has staged, and a
batch update closes a row.

That a commit does no more than this takes something about what is staged.  It is what `Seen` says,
which needs no locks either.
-/
import Dispatch.Proofs.Store.Calls

namespace Dispatch

namespace Store

/-- Neither rows nor pairs nor what is staged has changed. -/
structure SameData (s s' : Store) : Prop where
  row : ∀ id, s'.row? id = s.row? id
  openPairs : ∀ p, s'.openPairs.find? p = s.openPairs.find? p
  staged : ∀ t, (s'.transaction t).staged = (s.transaction t).staged

namespace SameData

variable {s s' s'' : Store}

theorem refl (s : Store) : SameData s s := ⟨fun _ => rfl, fun _ => rfl, fun _ => rfl⟩

theorem trans (h : SameData s s') (h' : SameData s' s'') : SameData s s'' :=
  ⟨fun id => (h'.row id).trans (h.row id), fun p => (h'.openPairs p).trans (h.openPairs p),
    fun t => (h'.staged t).trans (h.staged t)⟩

theorem setHeld (s : Store) (locks : RowLocks) (t : Ticket) (held : List (MatchId × LockId)) :
    SameData s ({ s with locks }.setTransaction t { s.transaction t with held }) where
  row _ := rfl
  openPairs _ := rfl
  staged u := by
    rw [transaction_setTransaction]
    split
    · subst u; rfl
    · rfl

theorem lockRow (s : Store) (t : Ticket) (id : MatchId) : SameData s (s.lockRow t id).2 := by
  unfold Store.lockRow
  simp only
  split
  · exact refl s
  · rcases s.locks.request t id with ⟨_ | l, locks⟩
    · exact ⟨fun _ => rfl, fun _ => rfl, fun _ => rfl⟩
    · exact setHeld s locks t _

theorem forgetLockIfAbsent (s : Store) (id : MatchId) : SameData s (s.forgetLockIfAbsent id) := by
  unfold Store.forgetLockIfAbsent
  split
  · exact refl s
  · exact ⟨fun _ => rfl, fun _ => rfl, fun _ => rfl⟩

theorem readLocked (s : Store) (t : Ticket) (id : MatchId) : SameData s (s.readLocked t id).2 := by
  unfold Store.readLocked
  split
  · exact refl s
  · exact (setHeld s _ t _).trans (forgetLockIfAbsent _ id)

end SameData

end Store

/-! ### What transactions have seen -/

/-- The changes of every transaction could be made to the rows as it has seen them.  Rows may
have changed since, but not their pairs; and no two transactions give a new row the same
identifier. -/
structure Seen (s : Store) : Prop where
  id_eq : ∀ {id r}, s.row? id = some r → r.id = id
  coherent : ∀ t, ∃ view, Coherent view (s.transaction t).staged ∧
    ∀ id, (view id).map Proposal.pair = (s.row? id).map Proposal.pair
  distinct : ∀ {t u r r'}, r ∈ (s.transaction t).newRows → r' ∈ (s.transaction u).newRows →
    r.id = r'.id → t = u

/-! ### What each move does to rows and changes -/

namespace Store

/-- A change that a transaction can stage: a new row under an identifier that is not in use, or
an update of a row that it sees open. -/
def MayStage (s : Store) (t : Ticket) : Staged → Prop
  | .insert r => s.Unused r.id ∧ r.isOpen = true
  | .update r => ∃ b, s.current? t r.id = some b ∧ b.isOpen = true ∧ b.pair = r.pair

/-- What a move can do to the rows, the pairs and what is staged. -/
inductive Effect (s s' : Store) : Prop where
  /-- nothing is written or staged, but something staged may be lost -/
  | keeps (hrow : ∀ id, s'.row? id = s.row? id)
      (hpair : ∀ p, s'.openPairs.find? p = s.openPairs.find? p)
      (hstaged : ∀ u, (s'.transaction u).staged = (s.transaction u).staged ∨
        (s'.transaction u).staged = [])
  | stages (t : Ticket) (c : Staged) (hc : s.MayStage t c) (hrow : ∀ id, s'.row? id = s.row? id)
      (hpair : ∀ p, s'.openPairs.find? p = s.openPairs.find? p)
      (hstaged : ∀ u, (s'.transaction u).staged
        = if u = t then (s.transaction t).staged ++ [c] else (s.transaction u).staged)
  | commits (t : Ticket) (hfree : s.FreeInTurn (s.transaction t).newRows)
      (hrow : ∀ id, s'.row? id = (s.written t).row? id)
      (hpair : ∀ p, s'.openPairs.find? p = (s.written t).openPairs.find? p)
      (hstaged : ∀ u, (s'.transaction u).staged
        = if u = t then [] else (s.transaction u).staged)
  | closes (b r : Proposal) (hb : s.row? r.id = some b) (hbr : b.pair = r.pair)
      (hclosed : r.isOpen = false) (hrow : ∀ id, s'.row? id = (s.writeRow r).row? id)
      (hpair : ∀ p, s'.openPairs.find? p = (s.writeRow r).openPairs.find? p)
      (hstaged : ∀ u, (s'.transaction u).staged = (s.transaction u).staged)

variable {s : Store}

theorem SameData.effect {s' : Store} (h : SameData s s') : Effect s s' :=
  .keeps h.row h.openPairs fun u => Or.inl (h.staged u)

/-- Ending a transaction loses what it had staged. -/
theorem effect_endTransaction (s : Store) (t : Ticket) : Effect s (s.endTransaction t) := by
  refine .keeps (fun _ => rfl) (fun _ => rfl) fun u => ?_
  rw [transaction_endTransaction]
  split
  · exact Or.inr rfl
  · exact Or.inl rfl

theorem effect_stages {s₁ : Store} (h : SameData s s₁) {t : Ticket} {c : Staged}
    (hc : s.MayStage t c) : Effect s (s₁.setTransaction t { s₁.transaction t with
      staged := (s₁.transaction t).staged ++ [c] }) := by
  refine .stages t c hc h.row h.openPairs fun u => ?_
  rw [transaction_setTransaction]
  split
  · show (s₁.transaction t).staged ++ [c] = _
    rw [h.staged]
  · exact h.staged u

/-- A row of a batch update is left as it is, or written with the new status. -/
theorem updateRow_writes {t : Ticket} {id : MatchId} {status : Status} {allowed : List Status}
    {m : Moment} {s' : Store} (h : (perform m (.updateRow t id status allowed) s).state = s') :
    SameData s s' ∨ ∃ b, s.row? id = some b ∧
      (∀ x, s'.row? x = (s.writeRow { b with status, updatedAt := m.now }).row? x) ∧
      (∀ p, s'.openPairs.find? p
        = (s.writeRow { b with status, updatedAt := m.now }).openPairs.find? p) ∧
      ∀ u, (s'.transaction u).staged = (s.transaction u).staged := by
  subst h
  rw [perform]
  rcases hreq : s.locks.request t id with ⟨_ | l, locks⟩
  · rw [s.updateLocked_waits hreq]
    exact .inl ⟨fun _ => rfl, fun _ => rfl, fun _ => rfl⟩
  rw [s.updateLocked_granted hreq]
  cases hr : s.row? id with
  | none =>
      rw [updateRow_of_none (show row? { s with locks } id = none from hr)]
      have hs := SameData.forgetLockIfAbsent { s with locks } id
      exact .inl ⟨hs.row, hs.openPairs, hs.staged⟩
  | some b =>
      by_cases hallowed : b.status ∈ allowed
      · rw [updateRow_of_mem (show row? { s with locks } id = some b from hr) hallowed]
        set r : Proposal := { b with status, updatedAt := m.now } with hrdef
        have hw : ∀ s₁ : Store, s₁.rows = s.rows → s₁.openPairs = s.openPairs →
            (s₁.writeRow r).rows = (s.writeRow r).rows ∧
              (s₁.writeRow r).openPairs = (s.writeRow r).openPairs := by
          intro s₁ h h'
          unfold writeRow releasePair
          rw [h']
          split <;> simp [h, h']
        obtain ⟨hrows, hpairs⟩ := hw { s with locks } rfl rfl
        refine .inr ⟨b, rfl, ?_, ?_, ?_⟩
        · intro x
          show (Store.rows _).find? x = (Store.rows _).find? x
          rw [← hrows]; rfl
        · intro p
          rw [← hpairs]; rfl
        · intro u
          have hrest := sameRest_writeRow { s with locks } r
          show ((writeRow { s with locks } r).transaction u).staged = _
          rw [hrest.transaction]
          rfl
      · rw [updateRow_of_not_mem (show row? { s with locks } id = some b from hr) hallowed]
        exact .inl ⟨fun _ => rfl, fun _ => rfl, fun _ => rfl⟩

/-- A row of a batch update is left as it is or closed. -/
theorem effect_updateRow {t : Ticket} {id : MatchId} {status : Status} {allowed : List Status}
    {m : Moment} (hid : ∀ {id r}, s.row? id = some r → r.id = id)
    (hterm : status.isTerminal = true) :
    Effect s (perform m (.updateRow t id status allowed) s).state := by
  rcases updateRow_writes rfl with h | ⟨b, hb, hrow, hpair, hstaged⟩
  · exact h.effect
  · refine .closes b { b with status, updatedAt := m.now } ?_ rfl ?_ hrow hpair hstaged
    · show s.row? b.id = some b
      rw [hid hb]
      exact hb
    · show (!status.isTerminal) = false
      rw [hterm]
      rfl

end Store

namespace Seen

variable {s : Store}

open Store

theorem empty : Seen {} where
  id_eq h := by cases h
  coherent _ := ⟨fun _ => none, .nil _, fun _ => rfl⟩
  distinct h := by cases h

/-- A new row is open, and not in the table. -/
theorem new_absent (hs : Seen s) {t : Ticket} {r : Proposal}
    (hr : r ∈ (s.transaction t).newRows) : s.row? r.id = none ∧ r.isOpen = true := by
  obtain ⟨view, hc, hview⟩ := hs.coherent t
  obtain ⟨hnone, hopen⟩ := hc.new_absent r hr
  have hrow := hview r.id
  rw [hnone] at hrow
  exact ⟨Option.map_eq_none_iff.mp hrow.symm, hopen⟩

theorem new_nodup (hs : Seen s) (t : Ticket) :
    ((s.transaction t).newRows.map Proposal.id).Nodup := by
  obtain ⟨view, hc, -⟩ := hs.coherent t
  exact hc.new_nodup

/-- Beginning stages nothing. -/
theorem effect_begin (m : Moment) : Effect s (perform m .begin s).state := by
  rw [perform]
  split
  · exact (SameData.refl s).effect
  · refine .keeps (fun _ => rfl) (fun _ => rfl) fun u => ?_
    have htr : s.beginTransaction.2.transaction u
        = if u = s.nextTicket then {} else s.transaction u :=
      s.transaction_setTransaction s.nextTicket u {}
    show (s.beginTransaction.2.transaction u).staged = _ ∨
      (s.beginTransaction.2.transaction u).staged = []
    rw [htr]
    split
    · exact Or.inr rfl
    · exact Or.inl rfl

/-- An update is staged only of a row that is seen open. -/
theorem effect_update (hs : Seen s) {t : Ticket} {id : MatchId} {status : Status}
    {driver passenger : Bool} (m : Moment) :
    Effect s (perform m (.update t id status driver passenger) s).state := by
  rw [perform, withLock]
  split
  · exact (SameData.refl s).effect
  have hl := SameData.lockRow s t id
  rcases h : s.lockRow t id with ⟨_ | _, s₁⟩
  · rw [h] at hl
    exact hl.effect
  rw [h] at hl
  have hcur : s₁.current? t id = s.current? t id := by
    rw [current?_eq, current?_eq, hl.staged, show s₁.row? = s.row? from funext hl.row]
  show Effect s (s₁.stageUpdate t id status driver passenger m.now).2
  unfold stageUpdate
  cases hr : s₁.current? t id with
  | none => exact hl.effect
  | some b =>
      rw [hcur] at hr
      by_cases hterm : b.status.isTerminal = true
      · simp only [hterm, if_true]
        exact hl.effect
      · simp only [hterm]
        refine effect_stages hl ⟨b, ?_, ?_, rfl⟩
        · show s.current? t b.id = some b
          rw [Store.id_of_current? hs.id_eq hr]
          exact hr
        · unfold Proposal.isOpen
          simpa using hterm

/-- A commit writes all that is staged, or nothing; either way the transaction has ended. -/
theorem effect_commit (hs : Seen s) (t : Ticket) : Effect s (s.commit t).2 := by
  rcases commit_shape (fun r hr => (hs.new_absent (t := t) hr).1) (hs.new_nodup t) with
    ⟨-, h⟩ | ⟨-, ⟨-, r, -, h⟩ | ⟨hfree, h⟩⟩
  · rw [h]
    exact effect_endTransaction s t
  · rw [h]
    exact effect_endTransaction s t
  · rw [h]
    refine .commits t hfree (fun _ => rfl) (fun _ => rfl) fun u => ?_
    rw [transaction_endTransaction]
    split
    · rfl
    · rw [(s.sameRest_written t).transaction]

/-- What a call does to the rows, the pairs and what is staged. -/
theorem effect_perform (hs : Seen s) {c : StoreCall} {m : Moment} (hadm : s.AdmitsCall m c) :
    Effect s (perform m c s).state := by
  cases c with
  | begin => exact effect_begin m
  | find driver passenger => exact (SameData.refl s).effect
  | get id => exact (SameData.refl s).effect
  | list actor role => exact (SameData.refl s).effect
  | insert t d =>
      rw [perform]
      split
      · exact (SameData.refl s).effect
      · unfold stageInsert
        simp only
        split
        · exact (SameData.refl s).effect
        · exact effect_stages (SameData.refl s) ⟨hadm.2.2, rfl⟩
  | lock t id =>
      rw [perform, withLock]
      split
      · exact (SameData.refl s).effect
      · have hl := SameData.lockRow s t id
        rcases h : s.lockRow t id with ⟨_ | _, s₁⟩
        · rw [h] at hl; exact hl.effect
        · rw [h] at hl; exact (hl.trans (SameData.readLocked s₁ t id)).effect
  | update t id status driver passenger => exact hs.effect_update m
  | commit t => exact hs.effect_commit t
  | rollback t => exact effect_endTransaction s t
  | openBatch =>
      rw [perform]
      split
      · exact (SameData.refl s).effect
      · exact .keeps (fun _ => rfl) (fun _ => rfl) fun _ => Or.inl rfl
  | updateRow t id status allowed =>
      exact effect_updateRow hs.id_eq hadm.2.2.2

theorem effect (hs : Seen s) {a : Move} (hadm : s.Admits a) : Effect s (s.after a) := by
  cases a with
  | call c m => exact hs.effect_perform hadm
  | withdraw t => exact .keeps (fun _ => rfl) (fun _ => rfl) fun _ => Or.inl rfl
  | outage offline => exact .keeps (fun _ => rfl) (fun _ => rfl) fun _ => Or.inl rfl

end Seen
end Dispatch
