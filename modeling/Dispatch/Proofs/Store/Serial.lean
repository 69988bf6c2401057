/-
Transactions one after the other.

Transactions are serializable in the order of their commits, as long as no row is entered with
somebody at a forgotten lock of it: if all calls of those that are committed have succeeded, then
making them one after the other, each row of a batch update at its place between them, gives the
same answers, and the same rows and pairs in the end (`Journal.serializable`).

While a transaction is open, the calls that it has made would be answered in the same way now
(`Journal.Follows`): what it has asked for it has locked, and nobody else writes that.  So at its
commit all its calls could be made at once.

Without the condition this fails.  A batch update can close a row that a transaction has locked, and
the transaction then writes what it has read.
-/
import Dispatch.Proofs.Store.Making

namespace Dispatch

open Store

/-! ### What a transaction has made sure of -/

/-- A transaction has locked a row that is in the table, or is a new one of its own. -/
def Store.Secured (s : Store) (t : Ticket) (id : MatchId) : Prop :=
  (∃ l, (id, l) ∈ s.held t) ∧ (s.Exists id ∨ ∃ r ∈ (s.transaction t).newRows, r.id = id)

namespace StagedOK

variable {s : Store} {t u : Ticket} {id : MatchId}

/-- Nobody else has staged a change of a row that a transaction has secured. -/
theorem not_staged_of_secured (ok : StagedOK s) (h : s.Secured u id) (hu : u ≠ t) {c : Staged}
    (hc : c ∈ (s.transaction t).staged) : c.row.id ≠ id := by
  rintro rfl
  obtain ⟨⟨l, hl⟩, hx⟩ := h
  rcases ok.new_or_locked hc with ⟨r, hr, hre⟩ | ⟨hx', l', hl'⟩
  · rcases hx with hx | ⟨r', hr', hre'⟩
    · exact ok.not_exists_of_new hr (hre ▸ hx)
    · exact hu (ok.distinct hr' hr (hre'.trans hre.symm))
  · exact hu (ok.locks.exclusive hl hl' hx')

/-- A row that a transaction sees is in the table, or is a new one of its own. -/
theorem exists_or_new (ok : StagedOK s) {r : Proposal} (h : s.current? t id = some r) :
    s.Exists id ∨ ∃ r ∈ (s.transaction t).newRows, r.id = id := by
  rw [s.current?_eq] at h
  rcases overlay_cases h with ⟨hmem, rfl⟩ | h
  · obtain ⟨c, hc, rfl⟩ := List.mem_map.mp hmem
    exact (ok.new_or_locked hc).symm.imp_left And.left
  · refine Or.inl ?_
    unfold Store.Exists
    rw [h]
    rfl

end StagedOK

namespace Journal

/-- The calls of a transaction would be answered in the same way now, and stage what it has staged;
and it has secured all rows that it has asked for. -/
structure Follows (s : Store) (t : Ticket) (calls : List Answered) : Prop where
  replay : Replay s.row? [] calls (s.transaction t).staged
  secured : ∀ a ∈ calls, ∀ id, a.asked? = some id → s.Secured t id

namespace Follows

variable {s s' : Store} {t : Ticket} {calls : List Answered}

/-- Before its first call. -/
theorem nil (h : (s.transaction t).staged = []) : Follows s t [] where
  replay := by
    rw [h]
    exact .nil []
  secured a ha := by cases ha

theorem of_not_isOpen (h : ¬ s.IsOpen t) : Follows s t [] :=
  nil (by rw [s.transaction_of_not_isOpen h])

/-- Nothing changes as long as the rows stay that the transaction has secured. -/
theorem frame (h : Follows s t calls)
    (hstaged : (s'.transaction t).staged = (s.transaction t).staged)
    (hheld : ∀ x ∈ s.held t, x ∈ s'.held t)
    (hrow : ∀ id, s.Secured t id → s'.row? id = s.row? id) : Follows s' t calls where
  replay := by
    rw [hstaged]
    exact h.replay.congr fun a ha id hid => hrow id (h.secured a ha id hid)
  secured a ha id hid := by
    have hsec := h.secured a ha id hid
    refine ⟨hsec.1.imp fun l hl => hheld _ hl, ?_⟩
    unfold Store.Exists Transaction.newRows
    rw [hrow id hsec, hstaged]
    exact hsec.2

/-- One more call that has succeeded. -/
theorem concat (h : Follows s t calls) {a : Answered}
    (hreplay : Replay s.row? (s.transaction t).staged [a] (s'.transaction t).staged)
    (hrow : s'.row? = s.row?) (hheld : ∀ x ∈ s.held t, x ∈ s'.held t)
    (hask : ∀ id, a.asked? = some id → s'.Secured t id) : Follows s' t (calls ++ [a]) where
  replay := by
    rw [hrow]
    exact h.replay.append hreplay
  secured b hb id hid := by
    rcases List.mem_append.mp hb with hb | hb
    · obtain ⟨hl, hx⟩ := h.secured b hb id hid
      refine ⟨hl.imp fun l hl => hheld _ hl, hx.imp (fun hx => ?_) ?_⟩
      · unfold Store.Exists
        rw [hrow]
        exact hx
      · rintro ⟨r, hr, he⟩
        exact ⟨r, mem_newRowsOf.2 (hreplay.isPrefix.subset (mem_newRowsOf.1 hr)), he⟩
    · rw [List.mem_singleton.mp hb] at hid
      exact hask id hid

end Follows

/-! ### What is noted is so -/

/-- The table is in order, and open transactions could be made now as far as they have come. -/
structure Recorded (j : Journal) : Prop where
  ok : StagedOK j.store
  closed : ∀ t, ¬ j.store.IsOpen t → j.calls t = []
  follows : ∀ t, (∀ a ∈ j.calls t, a.Succeeded) → Follows j.store t (j.calls t)

/-- What a move does to the rows and the pairs, and what is noted of it. -/
inductive Change (j j' : Journal) : Prop where
  | keeps (hblocks : j'.blocks = j.blocks) (h : SameTables j.store j'.store)
  | commits (t : Ticket) (m : Moment)
      (hblocks : j'.blocks = j.blocks ++ [.transaction (j.calls t) m])
      (hfree : j.store.FreeInTurn (j.store.transaction t).newRows)
      (h : SameTables (j.store.written t) j'.store)
  | goes (id : MatchId) (status : Status) (allowed : List Status) (m : Moment)
      (hblocks : j'.blocks = j.blocks
        ++ [.row id status allowed m (j.store.updateRow id status allowed m.now).1])
      (h : SameTables (j.store.updateRow id status allowed m.now).2 j'.store)

namespace Recorded

variable {j j' : Journal} {t : Ticket}

theorem empty : Recorded {} where
  ok := .empty
  closed _ _ := rfl
  follows _ _ := .of_not_isOpen fun h => by cases h

/-- A move of one party leaves what others have done as it is, if it writes nothing that they have
secured. -/
theorem spares (hj : Recorded j) (ok' : StagedOK j'.store) (hs : Spares t j.store j'.store)
    (hcalls : ∀ u, u ≠ t → j'.calls u = j.calls u)
    (hrow : ∀ u, u ≠ t → ∀ id, j.store.Secured u id → j'.store.row? id = j.store.row? id)
    (hclosed : ¬ j'.store.IsOpen t → j'.calls t = [])
    (hfollows : (∀ a ∈ j'.calls t, a.Succeeded) → Follows j'.store t (j'.calls t)) :
    Recorded j' where
  ok := ok'
  closed u hu := by
    by_cases hut : u = t
    · subst hut
      exact hclosed hu
    · rw [hcalls u hut]
      exact hj.closed u fun h => hu ((hs.isOpen u hut).2 h)
  follows u hu := by
    by_cases hut : u = t
    · subst hut
      exact hfollows hu
    · rw [hcalls u hut] at hu ⊢
      refine (hj.follows u hu).frame (by rw [hs.transaction u hut]) (fun x hx => ?_) (hrow u hut)
      unfold Store.held
      rw [hs.transaction u hut]
      exact hx

/-- A call of a transaction that has been answered. -/
theorem noted (hj : Recorded j) {s' : Store} {a : Answered} (ok' : StagedOK s')
    (hs : Spares t j.store s') (hopen : s'.IsOpen t) (hrow : s'.row? = j.store.row?)
    (hfollows : a.Succeeded → Follows j.store t (j.calls t) → Follows s' t (j.calls t ++ [a])) :
    Recorded { j.add t a with store := s' } := by
  have hadd : Function.update j.calls t (j.calls t ++ [a]) t = j.calls t ++ [a] :=
    Function.update_self _ _ _
  refine hj.spares (t := t) ok' hs (fun u hu => Function.update_of_ne hu _ _)
    (fun u _ id _ => congrFun hrow id) (fun h => absurd hopen h) fun hok => ?_
  change ∀ b ∈ Function.update j.calls t (j.calls t ++ [a]) t, b.Succeeded at hok
  show Follows s' t (Function.update j.calls t (j.calls t ++ [a]) t)
  rw [hadd] at hok ⊢
  exact hfollows (hok a (by simp)) (hj.follows t fun b hb => hok b (by simp [hb]))

/-- A call that has failed. -/
theorem failed (hj : Recorded j) {s' : Store} {a : Answered} (ok' : StagedOK s')
    (hs : Spares t j.store s') (hopen : s'.IsOpen t) (hrow : s'.row? = j.store.row?)
    (ha : ¬ a.Succeeded) : Recorded { j.add t a with store := s' } :=
  hj.noted ok' hs hopen hrow fun h => absurd h ha

/-- A call that waits, or somebody who stops waiting. -/
theorem settles (hj : Recorded j) {s' : Store} (ok' : StagedOK s') (hs : Settles t j.store s')
    (hheld : s'.held t = j.store.held t) : Recorded { j with store := s' } := by
  refine hj.spares (t := t) ok' hs.toSpares (fun _ _ => rfl) (fun _ _ id _ => hs.row id)
    (fun h => hj.closed t fun ho => h (hs.own.mpr ho)) fun hok => ?_
  exact (hj.follows t hok).frame hs.staged (fun x hx => hheld ▸ hx) fun id _ => hs.row id

/-- A transaction that has ended. -/
theorem ended (hj : Recorded j) {s' : Store} (blocks : List Block) (ok' : StagedOK s')
    (hs : Spares t j.store s') (hopen : ¬ s'.IsOpen t)
    (hrow : ∀ u, u ≠ t → ∀ id, j.store.Secured u id → s'.row? id = j.store.row? id) :
    Recorded { j.close t with store := s', blocks } := by
  have hclose : Function.update j.calls t [] t = [] := Function.update_self _ _ _
  refine hj.spares (t := t) ok' hs (fun u hu => Function.update_of_ne hu _ _) hrow
    (fun _ => hclose) fun _ => ?_
  show Follows s' t (Function.update j.calls t [] t)
  rw [hclose]
  exact .of_not_isOpen hopen

/-! ### Every call is noted -/

section Calls

variable {c : StoreCall} {m : Moment} {id : MatchId}

/-- A call that leaves the table as it is and is not noted. -/
theorem unchanged (hj : Recorded j) (reply : c.Reply)
    (h : perform m c j.store = .answer reply j.store) (hnote : j.note m c reply = j) :
    Recorded (j.after (.call c m)) ∧ Change j (j.after (.call c m)) := by
  rw [after_of_answer h, hnote]
  exact ⟨hj, .keeps rfl (.refl _)⟩

theorem afterBegin (hj : Recorded j) :
    Recorded (j.after (.call .begin m)) ∧ Change j (j.after (.call .begin m)) := by
  by_cases hoff : j.store.offline = true
  · refine hj.unchanged (.error .offline) ?_ rfl
    rw [perform, if_pos hoff]
  have hbegin : perform m .begin j.store
      = .answer (.ok j.store.nextTicket) j.store.beginTransaction.2 := by
    rw [perform, if_neg hoff]
    rfl
  have hnone : j.calls j.store.nextTicket = [] := hj.closed _ hj.ok.locks.not_isOpen_nextTicket
  rw [after_of_answer hbegin]
  refine ⟨hj.spares (t := j.store.nextTicket) hj.ok.beginTransaction (.beginTransaction j.store)
    (fun _ _ => rfl) (fun _ _ _ _ => rfl) (fun _ => hnone) fun _ => ?_,
    .keeps rfl ⟨rfl, fun _ => rfl⟩⟩
  show Follows _ _ (j.calls j.store.nextTicket)
  rw [hnone]
  refine .nil ?_
  show ((j.store.setTransaction j.store.nextTicket {}).transaction j.store.nextTicket).staged = []
  rw [transaction_setTransaction, if_pos rfl]

theorem afterInsert (hj : Recorded j) {d : Draft} (ht : j.store.IsOpen t)
    (hid : j.store.Unused m.freshId) :
    Recorded (j.after (.call (.insert t d) m)) ∧ Change j (j.after (.call (.insert t d) m)) := by
  by_cases hoff : j.store.offline = true
  · have h : perform m (.insert t d) j.store = .answer (.error .offline) j.store := by
      rw [perform, if_pos hoff]
    rw [after_of_answer h]
    refine ⟨hj.failed hj.ok (.refl t _) ht rfl ?_, .keeps rfl (.refl _)⟩
    rintro ⟨r, hr⟩
    cases hr
  have hperform : perform m (.insert t d) j.store
      = replied (j.store.stageInsert t d m.freshId m.now) := by
    rw [perform, if_neg hoff]
    rfl
  rcases hj.ok.stageInsert_cases ht d hid m.now with ⟨h, -⟩ | ⟨s', h, ok', rfl⟩
  · rw [h] at hperform
    rw [after_of_answer hperform]
    refine ⟨hj.failed hj.ok (.refl t _) ht rfl ?_, .keeps rfl (.refl _)⟩
    rintro ⟨r, hr⟩
    cases hr
  · rw [h] at hperform
    rw [after_of_answer hperform]
    refine ⟨hj.noted ok' (.setTransaction _ t _) ((isOpen_setTransaction _ _ _ _).2 (Or.inl rfl)) rfl
      fun _ hf => hf.concat ?_ rfl ?_ ?_, .keeps rfl ⟨rfl, fun _ => rfl⟩⟩
    · rw [transaction_setTransaction, if_pos rfl]
      exact .insert d m (.nil _)
    · intro x hx
      rw [held_setTransaction, Function.update_self]
      exact hx
    · intro id hask
      cases hask

theorem afterLock (hj : Recorded j) (ht : j.store.IsOpen t) (hask : j.store.MayAsk t id) :
    Recorded (j.after (.call (.lock t id) m)) ∧ Change j (j.after (.call (.lock t id) m)) := by
  obtain ⟨s', ok', hs, ⟨h, hheld, -⟩ | ⟨-, ⟨-, rfl, h⟩ | ⟨r, l, hcur, h, hkept, hl, -⟩ |
    ⟨-, h, -⟩⟩⟩ := hj.ok.lock_cases ht hask m
  · rw [after_of_wait h]
    exact ⟨hj.settles ok' hs hheld, .keeps rfl ⟨hs.row?_eq, hs.openPairs⟩⟩
  · rw [after_of_answer h]
    refine ⟨hj.failed ok' hs.toSpares ht rfl ?_, .keeps rfl (.refl _)⟩
    rintro ⟨r, hr⟩
    cases hr
  · rw [after_of_answer h]
    refine ⟨hj.noted ok' hs.toSpares (hs.own.mpr ht) hs.row?_eq fun _ hf =>
      hf.concat ?_ hs.row?_eq hkept ?_, .keeps rfl ⟨hs.row?_eq, hs.openPairs⟩⟩
    · rw [hs.staged]
      refine .lock id m ?_ (.nil _)
      rw [← current?_eq]
      exact hcur
    · intro id' he
      obtain rfl := Option.some.inj he
      exact ⟨⟨l, hl⟩, ok'.exists_or_new ((hs.current? _).trans hcur)⟩
  · rw [after_of_answer h]
    refine ⟨hj.failed ok' hs.toSpares (hs.own.mpr ht) hs.row?_eq ?_,
      .keeps rfl ⟨hs.row?_eq, hs.openPairs⟩⟩
    rintro ⟨r, hr⟩
    cases hr

theorem afterUpdate (hj : Recorded j) {status : Status} {driver passenger : Bool}
    (ht : j.store.IsOpen t) (hask : j.store.MayAsk t id) :
    Recorded (j.after (.call (.update t id status driver passenger) m)) ∧
      Change j (j.after (.call (.update t id status driver passenger) m)) := by
  rcases hj.ok.withLock_cases ht hask (fun s =>
      (.ok (s.stageUpdate t id status driver passenger m.now).1,
        (s.stageUpdate t id status driver passenger m.now).2)) with
    ⟨-, -, h⟩ | ⟨s', ok', hs, ⟨h, hheld, -⟩ | ⟨h, -, hkept, l, hl, -⟩⟩
  · have h : perform m (.update t id status driver passenger) j.store
        = .answer (.error .offline) j.store := h
    rw [after_of_answer h]
    refine ⟨hj.failed hj.ok (.refl t _) ht rfl ?_, .keeps rfl (.refl _)⟩
    intro he
    cases he
  · have h : perform m (.update t id status driver passenger) j.store = .wait s' := h
    rw [after_of_wait h]
    exact ⟨hj.settles ok' hs hheld, .keeps rfl ⟨hs.row?_eq, hs.openPairs⟩⟩
  · have ht' := hs.own.mpr ht
    rcases ok'.stageUpdate_cases ht' hl status driver passenger m.now with
      ⟨hstage, -⟩ | ⟨r, s'', hcur, hopen, hstage, ok'', rfl⟩
    · have h : perform m (.update t id status driver passenger) j.store
          = .answer (.ok (0 : Nat)) s' := by
        rw [perform_update, h, hstage]
        rfl
      rw [after_of_answer h]
      refine ⟨hj.failed ok' hs.toSpares ht' hs.row?_eq ?_,
        .keeps rfl ⟨hs.row?_eq, hs.openPairs⟩⟩
      intro he
      cases he
    · set s'' := s'.setTransaction t { s'.transaction t with
        staged := (s'.transaction t).staged ++ [.update { r with
          status, driverConfirmed := driver, passengerConfirmed := passenger, updatedAt := m.now }] }
        with hs''
      have h : perform m (.update t id status driver passenger) j.store
          = .answer (.ok (1 : Nat)) s'' := by
        rw [perform_update, h, hstage]
        rfl
      have hstaged : (s''.transaction t).staged = (j.store.transaction t).staged ++ [.update { r with
          status, driverConfirmed := driver, passengerConfirmed := passenger,
          updatedAt := m.now }] := by
        rw [hs'', transaction_setTransaction, if_pos rfl, ← hs.staged]
      have hheld : s''.held t = s'.held t := by
        rw [hs'', held_setTransaction, Function.update_self]
        rfl
      have hcur' := (hs.current? id).symm.trans hcur
      rw [after_of_answer h]
      refine ⟨hj.noted ok'' (hs.toSpares.trans (.setTransaction _ t _))
        ((isOpen_setTransaction _ _ _ _).2 (Or.inl rfl)) hs.row?_eq fun _ hf =>
        hf.concat ?_ hs.row?_eq (fun x hx => hheld ▸ hkept x hx) ?_,
        .keeps rfl ⟨hs.row?_eq, hs.openPairs⟩⟩
      · rw [hstaged]
        refine .update id status driver passenger m ?_ hopen (.nil _)
        rw [← current?_eq]
        exact hcur'
      · intro id' he
        obtain rfl := Option.some.inj he
        refine ⟨⟨l, hheld ▸ hl⟩, (ok'.exists_or_new hcur).imp_right ?_⟩
        rintro ⟨r', hr', he'⟩
        refine ⟨r', mem_newRowsOf.2 ?_, he'⟩
        rw [hstaged, ← hs.staged]
        exact List.mem_append_left _ (mem_newRowsOf.1 hr')

theorem afterCommit (hj : Recorded j) (hclear : j.store.EntersClear (.call (.commit t) m)) :
    Recorded (j.after (.call (.commit t) m)) ∧ Change j (j.after (.call (.commit t) m)) := by
  obtain ⟨s', ok', hs, hopen, -, ⟨e, h, hrow, hpair, -⟩ | ⟨h, hfree, rfl⟩⟩ :=
    hj.ok.commit_cases m hclear
  · rw [after_of_answer h]
    exact ⟨hj.ended j.blocks ok' hs hopen fun _ _ id _ => hrow id,
      .keeps rfl ⟨funext hrow, hpair⟩⟩
  · rw [after_of_answer h]
    refine ⟨hj.ended _ ok' hs hopen fun u hu id hsec => ?_, .commits t m rfl hfree ⟨rfl, fun _ => rfl⟩⟩
    show (j.store.written t).row? id = j.store.row? id
    rw [row?_written, overlay_of_not_mem]
    intro r hr
    obtain ⟨c, hc, rfl⟩ := List.mem_map.mp hr
    exact hj.ok.not_staged_of_secured hsec hu hc

theorem afterUpdateRow (hj : Recorded j) {status : Status} {allowed : List Status}
    (hopen : ¬ j.store.IsOpen t) (hlt : t < j.store.nextTicket) (hask : j.store.MayAsk t id) :
    Recorded (j.after (.call (.updateRow t id status allowed) m)) ∧
      Change j (j.after (.call (.updateRow t id status allowed) m)) := by
  have hbatch : ∀ {s' : Store} (bs : List Block), StagedOK s' → Spares t j.store s' → ¬ s'.IsOpen t →
      (∀ u, u ≠ t → ∀ id, j.store.Secured u id → s'.row? id = j.store.row? id) →
      Recorded { j with store := s', blocks := bs } := by
    intro s' bs ok' hs hopen' hrow
    have hnone : j.calls t = [] := hj.closed t hopen
    refine hj.spares (t := t) ok' hs (fun _ _ => rfl) hrow (fun _ => hnone) fun _ => ?_
    show Follows s' t (j.calls t)
    rw [hnone]
    exact .of_not_isOpen hopen'
  obtain ⟨s', ok', hs, hopen', ⟨h, hrow, hpair, -⟩ |
    ⟨-, hheld, ⟨h, hrow, -⟩ | ⟨r, hr, -, h, hrow, -⟩⟩⟩ :=
    hj.ok.updateRow_cases m status allowed hopen hlt hask
  · rw [after_of_wait h]
    exact ⟨hbatch j.blocks ok' hs hopen' fun _ _ id _ => hrow id,
      .keeps rfl ⟨funext hrow, hpair⟩⟩
  · obtain ⟨hchanged, htables⟩ := updateRow_answer h
    rw [after_of_answer h]
    refine ⟨hbatch _ ok' hs hopen' fun _ _ id _ => hrow id, .goes id status allowed m ?_ htables⟩
    show j.blocks ++ [.row id status allowed m _] = _
    rw [hchanged]
  · obtain ⟨hchanged, htables⟩ := updateRow_answer h
    rw [after_of_answer h]
    refine ⟨hbatch _ ok' hs hopen' fun u _ id' hsec => ?_, .goes id status allowed m ?_ htables⟩
    · rw [hrow, row?_writeRow, Function.update_of_ne]
      -- the row is in the table, and nobody holds a lock of it
      rintro rfl
      obtain ⟨⟨l, hl⟩, -⟩ := hsec
      have hid : r.id = id := hj.ok.id_eq hr
      refine hheld u l ?_ ?_
      · unfold Store.Exists
        rw [hr]
        rfl
      · rw [← hid]
        exact hl
    · show j.blocks ++ [.row id status allowed m _] = _
      rw [hchanged]

end Calls

/-- **Whatever is done is noted**, as long as no row is entered with somebody at a forgotten lock
of it. -/
theorem after (hj : Recorded j) {a : Move} (hadm : j.store.Allows a)
    (hclear : j.store.EntersClear a) : Recorded (j.after a) ∧ Change j (j.after a) := by
  cases a with
  | call c m =>
      cases c with
      | begin => exact hj.afterBegin
      | find driver passenger => exact hj.unchanged _ rfl rfl
      | get id => exact hj.unchanged _ rfl rfl
      | list actor role => exact hj.unchanged _ rfl rfl
      | insert t d => exact hj.afterInsert hadm.1 hadm.2.2
      | lock t id => exact hj.afterLock hadm.1 hadm.2
      | update t id status driver passenger => exact hj.afterUpdate hadm.1 hadm.2
      | commit t => exact hj.afterCommit hclear
      | rollback t =>
          refine ⟨hj.ended j.blocks (hj.ok.endTransaction t) (.endTransaction _ t) ?_
            fun _ _ _ _ => rfl, .keeps rfl ⟨rfl, fun _ => rfl⟩⟩
          exact fun h => ((isOpen_endTransaction _ _ _).1 h).1 rfl
      | openBatch =>
          by_cases hoff : j.store.offline = true
          · refine hj.unchanged (.error .offline) ?_ rfl
            rw [perform, if_pos hoff]
          · have h : perform m .openBatch j.store
                = .answer (.ok j.store.nextTicket) j.store.openBatch.2 := by
              rw [perform, if_neg hoff]
              rfl
            rw [after_of_answer h]
            refine ⟨⟨hj.ok.openBatch, hj.closed, fun t ht => ?_⟩, .keeps rfl ⟨rfl, fun _ => rfl⟩⟩
            exact (hj.follows t ht).frame rfl (fun _ hx => hx) fun _ _ => rfl
      | updateRow t id status allowed => exact hj.afterUpdateRow hadm.1 hadm.2.1 hadm.2.2
  | withdraw t =>
      refine ⟨⟨hj.ok.giveUp t, hj.closed, fun u hu => ?_⟩, .keeps rfl ⟨rfl, fun _ => rfl⟩⟩
      exact (hj.follows u hu).frame rfl (fun _ hx => hx) fun _ _ => rfl
  | outage offline =>
      refine ⟨⟨hj.ok.outage offline, hj.closed, fun u hu => ?_⟩, .keeps rfl ⟨rfl, fun _ => rfl⟩⟩
      exact (hj.follows u hu).frame rfl (fun _ hx => hx) fun _ _ => rfl

end Recorded

/-! ### The blocks one after the other -/

/-- Making the blocks one after the other comes to the same. -/
structure Serializes (j : Journal) : Prop where
  rests : Rests (serially j.blocks)
  blocks : (serially j.blocks).blocks = j.blocks
  tables : SameTables j.store (serially j.blocks).store

theorem serially_concat (bs : List Block) (b : Block) :
    serially (bs ++ [b]) = (serially bs).make b := List.foldl_concat _ _ _ _

theorem Serializes.empty : Serializes {} := ⟨.empty, rfl, .refl _⟩

/-- One more block, or none, still comes to the same. -/
theorem Serializes.after {j j' : Journal} (hs : Serializes j) (hj : Recorded j) (h : Change j j')
    (hok : ∀ b ∈ j'.blocks, b.Succeeded) : Serializes j' := by
  cases h with
  | keeps hblocks h =>
      refine ⟨?_, ?_, ?_⟩
      all_goals rw [hblocks]
      · exact hs.rests
      · exact hs.blocks
      · exact h.symm.trans hs.tables
  | commits t m hblocks hfree h =>
      rw [hblocks] at hok
      have hcalls : ∀ a ∈ j.calls t, a.Succeeded :=
        hok (.transaction (j.calls t) m) (List.mem_append_right _ (List.mem_singleton_self _))
      have hreplay := (hj.follows t hcalls).replay
      obtain ⟨hrests, hmade, htables⟩ :=
        hs.rests.transaction hs.tables (hj.ok.coherent t) hfree hreplay m
      refine ⟨?_, ?_, ?_⟩
      all_goals rw [hblocks, serially_concat]
      · exact hrests
      · rw [hmade, hs.blocks]
      · exact h.symm.trans htables
  | goes id status allowed m hblocks h =>
      obtain ⟨hrests, hmade, htables⟩ := hs.rests.row hs.tables id status allowed m
      refine ⟨?_, ?_, ?_⟩
      all_goals rw [hblocks, serially_concat]
      · exact hrests
      · rw [hmade, hs.blocks]
      · exact h.symm.trans htables

/-- Blocks are only added. -/
theorem Change.blocks_prefix {j j' : Journal} (h : Change j j') : j.blocks <+: j'.blocks := by
  cases h with
  | keeps hblocks _ => exact hblocks ▸ List.prefix_refl _
  | commits t m hblocks _ _ => exact hblocks ▸ List.prefix_append _ _
  | goes id status allowed m hblocks _ => exact hblocks ▸ List.prefix_append _ _

variable {moves : List Store.Move}

/-- **Transactions are serializable in the order of their commits**, as long as no row is entered
with somebody at a forgotten lock of it.  If all calls of the committed ones have succeeded, then
these transactions made one after the other, with the rows of batch updates at their places between
them, get the same answers and leave the same rows and the same open proposals of pairs. -/
theorem serializable (hadm : Run.Along Store.after Store.Allows {} moves)
    (hclear : Run.Along Store.after EntersClear {} moves)
    (hok : ∀ b ∈ (ofMoves moves).blocks, b.Succeeded) :
    let serial := serially (ofMoves moves).blocks
    serial.blocks = (ofMoves moves).blocks ∧
      serial.store.row? = (ofMoves moves).store.row? ∧
      ∀ p, serial.store.openPairs.find? p = (ofMoves moves).store.openPairs.find? p := by
  have hrun : Run.Along Journal.after
      (fun j a => j.store.Allows a ∧ j.store.EntersClear a) {} moves :=
    ((Run.along_map store_after).2 hadm).and ((Run.along_map store_after).2 hclear)
  have hinv := Run.invariant
    (Q := fun j => Recorded j ∧ ((∀ b ∈ j.blocks, b.Succeeded) → Serializes j))
    (fun {j a} hj h => by
      obtain ⟨hrec, hchange⟩ := hj.1.after h.1 h.2
      refine ⟨hrec, fun hok => ?_⟩
      have hbefore := hj.2 fun b hb => hok b (hchange.blocks_prefix.subset hb)
      exact hbefore.after hj.1 hchange hok)
    ⟨Recorded.empty, fun _ => .empty⟩ hrun
  have hs := (hinv _ (Run.foldl_mem_states _ _)).2 hok
  exact ⟨hs.blocks, hs.tables.row, hs.tables.openPairs⟩

/-! ### Two runs

In the first run two transactions and a batch update want the same row.  They get it in turn, and
might as well have come one after the other.

In the second run a batch update waits for a row that is not yet there, and its lock is forgotten.
A transaction then gets a new lock of the row and reads it, the batch update closes the row, and the
transaction writes it open again.
-/

/-- The moves of two transactions and a batch update that contend for a row. -/
def contending : List Store.Move :=
  let m := momentOf Uuid.nil
  [.call .begin m, .call (.insert 0 someDraft) m, .call (.commit 0) m,
   .call .begin m, .call .begin m, .call (.lock 1 Uuid.nil) m,
   -- the others have to wait
   .call (.lock 2 Uuid.nil) m, .call .openBatch m,
   .call (.updateRow 3 Uuid.nil .rejected Status.openStates) m,
   .call (.update 1 Uuid.nil .driverConfirmed true false) m, .call (.commit 1) m,
   .call (.lock 2 Uuid.nil) m, .call (.update 2 Uuid.nil .pending false false) m,
   .call (.commit 2) m, .call (.updateRow 3 Uuid.nil .rejected Status.openStates) m]

theorem serializable_contending :
    Run.Along Store.after Store.Allows {} contending ∧
      Run.Along Store.after EntersClear {} contending ∧
      (∀ b ∈ (ofMoves contending).blocks, b.Succeeded) ∧ (ofMoves contending).blocks.length = 4 ∧
      (serially (ofMoves contending).blocks).blocks = (ofMoves contending).blocks ∧
      (serially (ofMoves contending).blocks).store.row? = (ofMoves contending).store.row? := by
  have hadm : Run.Along Store.after Store.Allows {} contending := by decide +kernel
  have hclear : Run.Along Store.after EntersClear {} contending := by decide +kernel
  have hok : ∀ b ∈ (ofMoves contending).blocks, b.Succeeded := by decide +kernel
  obtain ⟨hblocks, hrows, -⟩ := serializable hadm hclear hok
  exact ⟨hadm, hclear, hok, by decide +kernel, hblocks, hrows⟩

/-- The moves by which a batch update comes between two calls of a transaction. -/
def overtaking : List Store.Move :=
  let m := momentOf Uuid.nil
  [.call .begin m, .call (.insert 0 someDraft) m,
   -- somebody asks for the row, and so does a batch update, which has to wait
   .call .begin m, .call (.update 1 Uuid.nil .pending false false) m,
   .call .openBatch m, .call (.updateRow 2 Uuid.nil .rejected Status.openStates) m,
   -- the row is not there, and its lock is forgotten
   .call (.lock 1 Uuid.nil) m, .call (.commit 0) m,
   -- a third party gets a new lock, and the batch update closes the row at the old one
   .call .begin m, .call (.lock 3 Uuid.nil) m,
   .call (.update 3 Uuid.nil .driverConfirmed true false) m,
   .call (.updateRow 2 Uuid.nil .rejected Status.openStates) m, .call (.commit 3) m,
   .call (.rollback 1) m]

/-- Without the condition transactions are not serializable. -/
theorem exists_not_serializable :
    ∃ moves, Run.Along Store.after Store.Allows {} moves ∧
      (∀ b ∈ (ofMoves moves).blocks, b.Succeeded) ∧
      (serially (ofMoves moves).blocks).store.row? ≠ (ofMoves moves).store.row? := by
  refine ⟨overtaking, by decide +kernel, by decide +kernel, fun h => ?_⟩
  have hserial : ((serially (ofMoves overtaking).blocks).store.row? Uuid.nil).map Proposal.status
      = some .rejected := by decide +kernel
  have hmade : ((ofMoves overtaking).store.row? Uuid.nil).map Proposal.status
      = some .driverConfirmed := by decide +kernel
  rw [h, hmade] at hserial
  cases hserial

end Journal
end Dispatch
