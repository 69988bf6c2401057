/-
One transaction at a time.

When nobody else is at work nothing has to wait.  A transaction whose calls have succeeded before can
then be made again in one go, if its calls still find what they found (`Replay`) and the pairs of its
new rows are free: it is answered as before, and what it writes is what it has written before
(`Journal.Rests.transaction`).  For a row of a batch update even less is needed
(`Journal.Rests.row`).
-/
import Dispatch.Proofs.Store.Journal

namespace Dispatch

open Store

/-! ### Alone at the table -/

/-- Nobody but one party is at work, and it does not wait. -/
structure Store.Undisturbed (s : Store) (t : Ticket) : Prop where
  ok : StagedOK s
  online : s.offline = false
  alone : s.Alone t
  waiting : s.locks.waiting.find? t = none

namespace Store.Undisturbed

variable {s s' : Store} {t : Ticket} {id : MatchId} {m : Moment}

theorem mayAsk (h : Undisturbed s t) (id : MatchId) : s.MayAsk t id := by
  intro w hw
  rw [h.waiting] at hw
  cases hw

theorem spares (h : Undisturbed s t) (ok : StagedOK s') (hs : Spares t s s')
    (hwait : s'.locks.waiting.find? t = none) : Undisturbed s' t where
  ok := ok
  online := hs.offline.trans h.online
  alone _ hu := hs.idle hu (h.alone _ hu)
  waiting := hwait

/-- Nothing waits for a lock. -/
theorem withLock {α : Type} (h : Undisturbed s t) (ht : s.IsOpen t) (id : MatchId)
    (f : Store → Except StoreError α × Store) :
    ∃ s' l, Undisturbed s' t ∧ Settles t s s' ∧ s.withLock t id f = replied (f s') ∧
      (id, l) ∈ s'.held t := by
  rcases h.ok.withLock_cases ht (h.mayAsk id) f with
    ⟨hoff, -⟩ | ⟨s', ok', hs, ⟨-, -, -, u, l, hu, hin⟩ | ⟨hf, hwait, -, l, hl, -⟩⟩
  · rw [h.online] at hoff
    cases hoff
  · exact absurd h.alone (not_alone_of_inLine hu hin)
  · exact ⟨s', l, h.spares ok' hs.toSpares hwait, hs, hf, hl⟩

/-- A row that is there is read. -/
theorem lock (h : Undisturbed s t) (ht : s.IsOpen t) (m : Moment) {r : Proposal}
    (hr : s.current? t id = some r) :
    ∃ s', perform m (.lock t id) s = .answer (.ok r) s' ∧ Undisturbed s' t ∧ Settles t s s' := by
  obtain ⟨s', l, h', hs, hf, -⟩ := h.withLock ht id fun s => s.readLocked t id
  refine ⟨s', ?_, h', hs⟩
  rw [perform, hf, readLocked, hs.current?, hr]
  rfl

/-- A change to a row that is open is staged. -/
theorem update (h : Undisturbed s t) (ht : s.IsOpen t) (m : Moment) (status : Status)
    (driver passenger : Bool) {r : Proposal} (hr : s.current? t id = some r)
    (hopen : r.isOpen = true) :
    ∃ s', perform m (.update t id status driver passenger) s = .answer (.ok (1 : Nat)) s' ∧
      Undisturbed s' t ∧ s'.IsOpen t ∧ SameTables s s' ∧
      (s'.transaction t).staged = (s.transaction t).staged ++ [.update { r with
        status, driverConfirmed := driver, passengerConfirmed := passenger, updatedAt := m.now }] := by
  obtain ⟨s', l, h', hs, hf, hl⟩ := h.withLock ht id fun s =>
    (.ok (s.stageUpdate t id status driver passenger m.now).1,
      (s.stageUpdate t id status driver passenger m.now).2)
  have ht' := hs.own.mpr ht
  rcases h'.ok.stageUpdate_cases ht' hl status driver passenger m.now with
    ⟨-, hterm⟩ | ⟨r', s'', hr', -, hstage, ok'', rfl⟩
  · rw [hs.current?] at hterm
    unfold Proposal.isOpen at hopen
    rw [hterm r hr] at hopen
    cases hopen
  · rw [hs.current?, hr] at hr'
    obtain rfl := Option.some.inj hr'
    refine ⟨_, ?_, h'.spares ok'' (Spares.setTransaction s' t _) h'.waiting,
      (s'.isOpen_setTransaction t t _).2 (Or.inl rfl), ⟨hs.row?_eq, hs.openPairs⟩, ?_⟩
    · rw [perform_update, hf, hstage]
      rfl
    · rw [s'.transaction_setTransaction, if_pos rfl, ← hs.staged]

/-- A new row is staged if its pair is free. -/
theorem insert (h : Undisturbed s t) (ht : s.IsOpen t) {m : Moment} (d : Draft)
    (hid : s.Unused m.freshId) (hnew : ∀ r ∈ (s.transaction t).newRows, r.pair ≠ d.pair)
    (hfree : s.openPairs.find? d.pair = none) :
    ∃ s', perform m (.insert t d) s = .answer (.ok (d.toProposal m.freshId m.now)) s' ∧
      Undisturbed s' t ∧ s'.IsOpen t ∧ SameTables s s' ∧
      (s'.transaction t).staged
        = (s.transaction t).staged ++ [.insert (d.toProposal m.freshId m.now)] := by
  rcases h.ok.stageInsert_cases ht d hid m.now with ⟨-, ⟨r, hr, hp⟩ | hp⟩ | ⟨s', hs', ok', rfl⟩
  · exact absurd hp (hnew r hr)
  · exact absurd hfree hp
  · refine ⟨_, ?_, h.spares ok' (Spares.setTransaction s t _) h.waiting,
      (s.isOpen_setTransaction t t _).2 (Or.inl rfl), ⟨rfl, fun _ => rfl⟩, ?_⟩
    · rw [perform, if_neg (by simp [h.online]), hs']
      rfl
    · rw [s.transaction_setTransaction, if_pos rfl]

/-- An identifier that no row has, and that the transaction itself has given to none, is unused. -/
theorem unused (h : Undisturbed s t) (habsent : s.row? id = none)
    (hnew : ∀ r ∈ (s.transaction t).newRows, r.id ≠ id) : s.Unused id := by
  refine ⟨habsent, fun u r hr => ?_⟩
  by_cases hu : u = t
  · exact hnew r (hu ▸ hr)
  · rw [s.transaction_of_not_isOpen (h.alone u hu).1] at hr
    cases hr

end Store.Undisturbed

namespace Journal

/-! ### A block made by itself -/

/-- Nobody is at work. -/
structure Rests (k : Journal) : Prop where
  ok : StagedOK k.store
  online : k.store.offline = false
  idle : ∀ t, k.store.Idle t
  calls : ∀ t, k.calls t = []

/-- In the middle of a transaction, with nobody else at work.  It was begun when `k₀` was the
journal. -/
structure Making (k₀ : Journal) (t : Ticket) (calls : List Answered) (staged : List Staged)
    (k : Journal) : Prop extends Undisturbed k.store t where
  isOpen : k.store.IsOpen t
  tables : SameTables k₀.store k.store
  staged : (k.store.transaction t).staged = staged
  calls : k.calls = Function.update k₀.calls t calls
  blocks : k.blocks = k₀.blocks

variable {k₀ k : Journal} {t : Ticket} {calls rest : List Answered} {staged staged' : List Staged}

theorem Rests.empty : Rests {} where
  ok := .empty
  online := rfl
  idle _ := ⟨fun h => (by cases h), rfl⟩
  calls _ := rfl

/-- A transaction is begun. -/
theorem Rests.begin (hk : Rests k) (m : Moment) :
    Making k k.store.nextTicket [] [] (k.after (.call .begin m)) := by
  have hbegin : perform m .begin k.store
      = .answer (.ok k.store.nextTicket) k.store.beginTransaction.2 := by
    rw [perform, if_neg (by simp [hk.online])]
    rfl
  have hs := Spares.beginTransaction k.store
  rw [after_of_answer hbegin]
  exact {
    ok := hk.ok.beginTransaction
    online := hk.online
    alone := fun u hu => hs.idle hu (hk.idle u)
    waiting := (hk.idle k.store.nextTicket).2
    isOpen := (k.store.isOpen_setTransaction _ _ {}).2 (Or.inl rfl)
    tables := ⟨rfl, fun _ => rfl⟩
    staged := by
      show ((k.store.setTransaction k.store.nextTicket {}).transaction k.store.nextTicket).staged = []
      rw [transaction_setTransaction, if_pos rfl]
    calls := by
      rw [← hk.calls k.store.nextTicket, Function.update_eq_self]
      rfl
    blocks := rfl }

namespace Making

/-- A call of the transaction is answered. -/
theorem answered (hk : Making k₀ t calls staged k) {a : Answered} {s' : Store}
    (ha : k.after (.call (a.call t) a.moment) = { k.add t a with store := s' })
    (hu : Undisturbed s' t) (hopen : s'.IsOpen t) (htables : SameTables k.store s')
    (hstaged : (s'.transaction t).staged = staged') :
    Making k₀ t (calls ++ [a]) staged' (k.after (.call (a.call t) a.moment)) := by
  rw [ha]
  refine ⟨hu, hopen, hk.tables.trans htables, hstaged, ?_, hk.blocks⟩
  show Function.update k.calls t (k.calls t ++ [a]) = _
  rw [hk.calls, Function.update_self, Function.update_idem]

/-- The calls that have succeeded before succeed again, if the pairs of the new rows are free. -/
theorem run (hk : Making k₀ t calls staged k) (h : Replay k₀.store.row? staged rest staged')
    (hco : Coherent k₀.store.row? staged') (hfree : k₀.store.FreeInTurn (newRowsOf staged')) :
    Making k₀ t (calls ++ rest) staged'
      ((rest.map fun a => Move.call (a.call t) a.moment).foldl after k) := by
  induction h generalizing calls k with
  | nil staged =>
      rw [List.append_nil]
      exact hk
  | @insert staged staged' rest d m h ih =>
      have hnewRows : ∃ others, newRowsOf staged'
          = newRowsOf staged ++ d.toProposal m.freshId m.now :: others := by
        obtain ⟨others, rfl⟩ := h.isPrefix
        exact ⟨newRowsOf others, by simp [newRowsOf, Staged.inserted?]⟩
      obtain ⟨others, hothers⟩ := hnewRows
      have hown : (k.store.transaction t).newRows = newRowsOf staged := by
        unfold Transaction.newRows
        rw [hk.staged]
      have hmem : d.toProposal m.freshId m.now ∈ newRowsOf staged' := by rw [hothers]; simp
      have hunused : k.store.Unused m.freshId := by
        refine hk.unused ?_ fun r hr he => ?_
        · rw [hk.tables.row]
          exact (hco.new_absent _ hmem).1
        · have hnodup := hco.new_nodup
          rw [hothers, List.map_append, List.nodup_append] at hnodup
          exact hnodup.2.2 _ (List.mem_map.mpr ⟨r, hown ▸ hr, rfl⟩) _
            (List.mem_map.mpr ⟨_, List.mem_cons_self, rfl⟩) he
      have hpairs : ∀ r ∈ (k.store.transaction t).newRows, r.pair ≠ d.pair := by
        intro r hr he
        rw [hothers] at hfree
        obtain ⟨hfree', hnone⟩ := hfree.of_append
        have hsome := (hfree'.claimed (hown ▸ hr)).2
        rw [he] at hsome
        exact absurd (hsome.symm.trans hnone) (Option.some_ne_none _)
      obtain ⟨s', hperf, hu, hopen, htables, hstaged⟩ := hk.insert hk.isOpen d hunused hpairs
        ((hk.tables.openPairs _).trans (hfree.claimed hmem).1)
      rw [hk.staged] at hstaged
      have hk' := hk.answered (a := .insert d m (.ok (d.toProposal m.freshId m.now)))
        (after_of_answer hperf) hu hopen htables hstaged
      have := ih hk' hco hfree
      rwa [List.append_assoc] at this
  | @lock staged staged' rest id m r hr h ih =>
      have hcur : k.store.current? t id = some r := by
        rw [current?_eq, hk.tables.row, hk.staged]
        exact hr
      obtain ⟨s', hperf, hu, hs⟩ := Undisturbed.lock hk.toUndisturbed hk.isOpen m hcur
      have hk' := hk.answered (a := .lock id m (.ok r)) (after_of_answer hperf) hu
        (hs.own.mpr hk.isOpen) ⟨hs.row?_eq, hs.openPairs⟩ (hs.staged.trans hk.staged)
      have := ih hk' hco hfree
      rwa [List.append_assoc] at this
  | @update staged staged' rest id status driver passenger m r hr hopen h ih =>
      have hcur : k.store.current? t id = some r := by
        rw [current?_eq, hk.tables.row, hk.staged]
        exact hr
      obtain ⟨s', hperf, hu, hopen', htables, hstaged⟩ :=
        Undisturbed.update hk.toUndisturbed hk.isOpen m status driver passenger hcur hopen
      rw [hk.staged] at hstaged
      have hk' := hk.answered (a := .update id status driver passenger m (.ok (1 : Nat)))
        (after_of_answer hperf) hu hopen' htables hstaged
      have := ih hk' hco hfree
      rwa [List.append_assoc] at this

/-- The transaction is committed if the pairs of its new rows are free. -/
theorem commit (hk : Making k₀ t calls staged k) (h₀ : Rests k₀)
    (hfree : k₀.store.FreeInTurn (newRowsOf staged)) (m : Moment) :
    Rests (k.after (.call (.commit t) m)) ∧
      (k.after (.call (.commit t) m)).blocks = k₀.blocks ++ [.transaction calls m] ∧
      SameTables (k.store.written t) (k.after (.call (.commit t) m)).store := by
  have hclear : k.store.EntersClear (.call (.commit t) m) :=
    fun r _ u l hu hin => absurd hk.alone (not_alone_of_inLine hu hin)
  have hnew : k.store.FreeInTurn (k.store.transaction t).newRows := by
    unfold Transaction.newRows
    rw [hk.staged]
    exact hk.tables.freeInTurn hfree
  have hcommit : perform m (.commit t) k.store
      = .answer (.ok ()) ((k.store.written t).endTransaction t) := by
    rw [perform, commit_of_freeInTurn hk.online hnew]
    rfl
  have hs : Spares t k.store ((k.store.written t).endTransaction t) :=
    (Spares.ofSameRest (k.store.sameRest_written t) t).trans (Spares.endTransaction _ t)
  rw [after_of_answer hcommit]
  refine ⟨⟨hk.ok.written hclear, hs.offline.trans hk.online, fun u => ?_, fun u => ?_⟩, ?_,
    ⟨rfl, fun _ => rfl⟩⟩
  · by_cases hu : u = t
    · subst hu
      exact ⟨fun h => ((isOpen_endTransaction _ _ _).1 h).1 rfl, by
        rw [waiting_endTransaction, if_pos rfl]⟩
    · exact hs.idle hu (hk.alone u hu)
  · show Function.update k.calls t [] u = []
    rw [hk.calls, Function.update_idem, Function.update_apply]
    split
    · rfl
    · exact h₀.calls u
  · show k.blocks ++ [Block.transaction (k.calls t) m] = _
    rw [hk.blocks, hk.calls, Function.update_self]

end Making

/-- **A transaction that is made by itself** is answered as before and writes what it has written. -/
theorem Rests.transaction (hk : Rests k) {s : Store} {u : Ticket} (hs : SameTables s k.store)
    (hco : Coherent s.row? (s.transaction u).staged)
    (hfree : s.FreeInTurn (s.transaction u).newRows)
    (hreplay : Replay s.row? [] calls (s.transaction u).staged) (m : Moment) :
    Rests (k.make (.transaction calls m)) ∧
      (k.make (.transaction calls m)).blocks = k.blocks ++ [.transaction calls m] ∧
      SameTables (s.written u) (k.make (.transaction calls m)).store := by
  rw [← hs.row] at hco hreplay
  have hfree' := hs.freeInTurn hfree
  have hrun := (hk.begin m).run hreplay hco hfree'
  obtain ⟨hrests, hblocks, htables⟩ := hrun.commit hk hfree' m
  have hmake : k.make (.transaction calls m)
      = ((calls.map fun a => Move.call (a.call k.store.nextTicket) a.moment).foldl after
          (k.after (.call .begin m))).after (.call (.commit k.store.nextTicket) m) := by
    unfold make Block.moves
    rw [List.foldl_append]
    rfl
  rw [hmake]
  exact ⟨hrests, hblocks, ((hs.trans hrun.tables).written hrun.staged).trans htables⟩

/-- **A row of a batch update that is gone through by itself** is changed, or not, as before. -/
theorem Rests.row (hk : Rests k) {s : Store} (hs : SameTables s k.store) (id : MatchId)
    (status : Status) (allowed : List Status) (m : Moment) :
    let b := Block.row id status allowed m (s.updateRow id status allowed m.now).1
    Rests (k.make b) ∧ (k.make b).blocks = k.blocks ++ [b] ∧
      SameTables (s.updateRow id status allowed m.now).2 (k.make b).store := by
  intro b
  have hopen : perform m .openBatch k.store = .answer (.ok k.store.nextTicket) k.store.openBatch.2 := by
    rw [perform, if_neg (by simp [hk.online])]
    rfl
  have hidle : ∀ u, k.store.openBatch.2.Idle u := hk.idle
  have hask : k.store.openBatch.2.MayAsk k.store.nextTicket id := by
    intro w hw
    rw [(hidle k.store.nextTicket).2] at hw
    cases hw
  have hrow : ∃ changed s', perform m (.updateRow k.store.nextTicket id status allowed)
        k.store.openBatch.2 = .answer changed s' ∧ StagedOK s' ∧
      Spares k.store.nextTicket k.store.openBatch.2 s' ∧ s'.Idle k.store.nextTicket := by
    obtain ⟨s', ok', hs', hopen', ⟨-, -, -, -, u, l, -, hin⟩ |
      ⟨hwait, -, ⟨h, -⟩ | ⟨r, -, -, h, -⟩⟩⟩ :=
      hk.ok.openBatch.updateRow_cases m status allowed
        (hidle k.store.nextTicket).1 (Nat.lt_succ_self _) hask
    · exact absurd hin (hidle u).not_inLine
    · exact ⟨_, s', h, ok', hs', hopen', hwait⟩
    · exact ⟨_, s', h, ok', hs', hopen', hwait⟩
  obtain ⟨changed, s', h, ok', hs', hidle'⟩ := hrow
  obtain ⟨rfl, htables⟩ := updateRow_answer h
  have hsame : SameTables s k.store.openBatch.2 := ⟨hs.row, hs.openPairs⟩
  obtain ⟨hchanged, htables'⟩ := hsame.updateRow id status allowed m.now
  have hmake : k.make b = Journal.after { k with store := k.store.openBatch.2 }
      (.call (.updateRow k.store.nextTicket id status allowed) m) := by
    rw [← show k.after (.call .openBatch m) = { k with store := k.store.openBatch.2 } from
      after_of_answer hopen]
    rfl
  rw [hmake, after_of_answer h]
  refine ⟨⟨ok', hs'.offline.trans hk.online, fun u => ?_, hk.calls⟩, ?_, htables'.trans htables⟩
  · by_cases hu : u = k.store.nextTicket
    · exact hu ▸ hidle'
    · exact hs'.idle hu (hidle u)
  · show k.blocks ++ [Block.row id status allowed m _] = _
    rw [hchanged]

end Journal
end Dispatch
