/-
What comes of each call.

One lemma for each call says what its answer can be and what the table is like after it, and
that the table is in order then.  A call concerns its own transaction only (`Spares`); what it
does to the rows is said case by case.  In particular a caller who has to wait finds somebody
else in line for the row.

Together the lemmas make `StoreOK` an invariant of every sequence of moves that enters no row
with somebody at a forgotten lock of it.
-/
import Dispatch.Proofs.Store.Spares

namespace Dispatch

namespace Store

/-! ### Asking for a row -/

variable {s : Store} {t : Ticket} {id : MatchId}

theorem waitsFor_eq_false (hask : s.MayAsk t id) :
    s.locks.waitsFor t id = false ↔ s.locks.waiting.find? t = none := by
  unfold RowLocks.waitsFor
  cases hw : s.locks.waiting.find? t with
  | none => simp
  | some w =>
      obtain ⟨x, l⟩ := w
      obtain rfl : x = id := hask _ hw
      simp

/-- A change is staged once its row is locked. -/
theorem perform_update (m : Moment) (t : Ticket) (id : MatchId) (status : Status)
    (driver passenger : Bool) (s : Store) :
    perform m (.update t id status driver passenger) s = s.withLock t id fun s =>
      (.ok (s.stageUpdate t id status driver passenger m.now).1,
        (s.stageUpdate t id status driver passenger m.now).2) := rfl

end Store

namespace StagedOK

variable {s : Store} {t : Ticket} {id : MatchId}

open Store

/-- What can come of a call that needs a row locked: it is refused; or it waits, and somebody
else is in line for the row; or the row is locked, and the call goes on. -/
theorem withLock_cases {α : Type} (ok : StagedOK s) (ht : s.IsOpen t) (hask : s.MayAsk t id)
    (f : Store → Except StoreError α × Store) :
    (s.offline = true ∧ s.locks.waiting.find? t = none ∧
      s.withLock t id f = .answer (.error .offline) s) ∨
    ∃ s', StagedOK s' ∧ Settles t s s' ∧
      ((s.withLock t id f = .wait s' ∧ s'.held t = s.held t ∧
          (∃ l, s'.locks.waiting.find? t = some (id, l)) ∧
          ∃ u l, u ≠ t ∧ s.locks.InLine s.held u id l) ∨
        (s.withLock t id f = replied (f s') ∧ s'.locks.waiting.find? t = none ∧
          (∀ h ∈ s.held t, h ∈ s'.held t) ∧
          ∃ l, (id, l) ∈ s'.held t ∧ ∀ h ∈ s'.held t, h ∈ s.held t ∨ h = (id, l))) := by
  unfold withLock
  by_cases hoff : s.offline = true ∧ s.locks.waitsFor t id = false
  · rw [if_pos hoff]
    exact Or.inl ⟨hoff.1, (waitsFor_eq_false hask).1 hoff.2, rfl⟩
  rw [if_neg hoff]
  right
  rcases ok.locks.lockRow_cases ht hask with
    ⟨l, hlock, hl⟩ | ⟨l, locks, hlock, hwait, hother, hok⟩ |
    ⟨l, locks, hlock, hwait, hsome, hother, hok⟩
  · refine ⟨s, ok, Settles.refl t s, Or.inr ⟨by rw [hlock], ?_, fun _ hh => hh, l, hl,
      fun h hh => Or.inl hh⟩⟩
    exact ok.locks.waiting_eq_none_of_held hask hl
  · refine ⟨_, ok.setHeld hok ?_, Settles.setHeld ht hother,
      Or.inr ⟨by rw [hlock], hwait, ?_, l, ?_, ?_⟩⟩
    · intro r _ l' hmem
      exact List.mem_append_left _ hmem
    · intro h hh
      rw [held_setTransaction, Function.update_self]
      exact List.mem_append_left _ hh
    · rw [held_setTransaction, Function.update_self]
      exact List.mem_append_right _ (List.mem_singleton_self _)
    · intro h hh
      rw [held_setTransaction, Function.update_self, List.mem_append, List.mem_singleton] at hh
      exact hh
  · refine ⟨_, ?_, Settles.ofLocks hother, Or.inl ⟨by rw [hlock], rfl, ⟨l, hwait⟩, hsome⟩⟩
    exact ok.ofLocks hok (fun _ => rfl) (fun _ => Or.inl rfl) (fun _ _ _ _ h => h)

/-- A transaction that does not see a row has not changed it. -/
theorem not_staged_of_current? {c : Staged} (h : s.current? t id = none)
    (hc : c ∈ (s.transaction t).staged) : c.row.id ≠ id := by
  intro he
  unfold current? Transaction.stagedRow? at h
  have hnone := (Option.or_eq_none_iff.mp h).1
  rw [List.find?_eq_none] at hnone
  refine hnone c.row ?_ (by simpa using he)
  exact List.mem_map.mpr ⟨c, List.mem_reverse.mpr hc, rfl⟩

/-- A row that is locked is read; if it is not there, its lock is let go. -/
theorem readLocked_cases (ok : StagedOK s) (ht : s.IsOpen t) :
    (∃ r, s.current? t id = some r ∧ s.readLocked t id = (.ok r, s)) ∨
    (s.current? t id = none ∧ ∃ s', s.readLocked t id = (.error (.notFound id), s') ∧
      StagedOK s' ∧ Settles t s s' ∧ s'.locks.waiting.find? t = s.locks.waiting.find? t ∧
      s'.held t = (s.held t).filter fun h => h.1 != id) := by
  unfold readLocked
  cases hcur : s.current? t id with
  | some r => exact Or.inl ⟨r, rfl, rfl⟩
  | none =>
      refine Or.inr ⟨rfl, _, rfl, ?_, ?_⟩
      · refine StagedOK.forgetLockIfAbsent ?_ id
        refine ok.setHeld (ok.locks.unlockRow ht id) ?_
        intro r hr l hmem
        refine List.mem_filter.mpr ⟨hmem, ?_⟩
        simpa [Staged.row] using not_staged_of_current? hcur hr
      · have hwait : ∀ u, (s.unlockRow t id).locks.waiting.find? u = s.locks.waiting.find? u := by
          intro u
          show ((List.foldl _ _ _ : RowLocks)).waiting.find? u = _
          rw [LinesOK.waiting_leaveAll]
        have hunlock : Settles t s (s.unlockRow t id) := Settles.setHeld ht fun u _ => hwait u
        have hheld : (s.unlockRow t id).held t = (s.held t).filter fun h => h.1 != id := by
          unfold unlockRow
          rw [held_setTransaction, Function.update_self]
          rfl
        unfold Store.forgetLockIfAbsent
        split
        · exact ⟨hunlock, hwait t, hheld⟩
        · exact ⟨hunlock.trans (Settles.ofLocks fun _ _ => rfl), hwait t, hheld⟩

/-- What can come of reading a row that is to be changed. -/
theorem lock_cases (ok : StagedOK s) (ht : s.IsOpen t) (hask : s.MayAsk t id) (m : Moment) :
    ∃ s', StagedOK s' ∧ Settles t s s' ∧
      ((perform m (.lock t id) s = .wait s' ∧ s'.held t = s.held t ∧
          (∃ l, s'.locks.waiting.find? t = some (id, l)) ∧
          ∃ u l, u ≠ t ∧ s.locks.InLine s.held u id l) ∨
        (s'.locks.waiting.find? t = none ∧
          ((s.offline = true ∧ s' = s ∧
              perform m (.lock t id) s = .answer (.error .offline) s') ∨
            (∃ r l, s.current? t id = some r ∧
              perform m (.lock t id) s = .answer (.ok r) s' ∧ (∀ h ∈ s.held t, h ∈ s'.held t) ∧
              (id, l) ∈ s'.held t ∧ ∀ h ∈ s'.held t, h ∈ s.held t ∨ h = (id, l)) ∨
            (s.current? t id = none ∧
              perform m (.lock t id) s = .answer (.error (.notFound id)) s' ∧
              ∀ h ∈ s'.held t, h ∈ s.held t ∧ h.1 ≠ id)))) := by
  rcases ok.withLock_cases ht hask (fun s => s.readLocked t id) with
    ⟨hoff, hwait, h⟩ | ⟨s', ok', hs, ⟨h, hheld, hwait, hsome⟩ | ⟨h, hwait, hkept, l, hl, hsub⟩⟩
  · exact ⟨s, ok, Settles.refl t s, Or.inr ⟨hwait, Or.inl ⟨hoff, rfl, h⟩⟩⟩
  · exact ⟨s', ok', hs, Or.inl ⟨h, hheld, hwait, hsome⟩⟩
  · rcases ok'.readLocked_cases (hs.own.mpr ht) with
      ⟨r, hcur, hread⟩ | ⟨hcur, s'', hread, ok'', hs', hwait', hheld⟩
    · rw [hs.current?] at hcur
      refine ⟨s', ok', hs, Or.inr ⟨hwait, Or.inr (Or.inl ⟨r, l, hcur, ?_, hkept, hl, hsub⟩)⟩⟩
      show s.withLock t id _ = _
      rw [h, hread]
      rfl
    · rw [hs.current?] at hcur
      refine ⟨s'', ok'', hs.trans hs', Or.inr ⟨hwait'.trans hwait, Or.inr (Or.inr ⟨hcur, ?_, ?_⟩)⟩⟩
      · show s.withLock t id _ = _
        rw [h, hread]
        rfl
      · intro h' hh
        rw [hheld, List.mem_filter] at hh
        have hne : h'.1 ≠ id := by simpa using hh.2
        refine ⟨(hsub h' hh.1).resolve_right ?_, hne⟩
        rintro rfl
        exact hne rfl

/-! ### Staging -/

/-- A transaction may stage changes that could be made, if its new rows are nobody else's and it
has locked what it updates. -/
theorem stage (ok : StagedOK s) (ht : s.IsOpen t) {staged : List Staged}
    (hc : Coherent s.row? staged)
    (hnew : ∀ r ∈ newRowsOf staged, ∀ u, u ≠ t → ∀ r' ∈ (s.transaction u).newRows, r'.id ≠ r.id)
    (hlock : ∀ r, .update r ∈ staged → ∃ l, (r.id, l) ∈ s.held t) :
    StagedOK (s.setTransaction t { s.transaction t with staged }) where
  locks := ok.locks.stage ht staged
  id_eq := ok.id_eq
  coherent := by
    intro u
    rw [s.transaction_setTransaction]
    split
    · exact hc
    · exact ok.coherent u
  distinct := by
    intro u v r r' hr hr' he
    rw [s.transaction_setTransaction] at hr hr'
    by_cases hu : u = t
    · by_cases hv : v = t
      · rw [hu, hv]
      · rw [if_pos hu] at hr
        rw [if_neg hv] at hr'
        exact absurd he.symm (hnew r hr v hv r' hr')
    · rw [if_neg hu] at hr
      by_cases hv : v = t
      · rw [if_pos hv] at hr'
        exact absurd he (hnew r' hr' u hu r hr)
      · rw [if_neg hv] at hr'
        exact ok.distinct hr hr' he
  locked := by
    intro u r hr
    rw [s.transaction_setTransaction] at hr
    rw [held_setTransaction]
    by_cases hu : u = t
    · subst u
      rw [if_pos rfl] at hr
      rw [Function.update_self]
      exact hlock r hr
    · rw [if_neg hu] at hr
      rw [Function.update_of_ne hu]
      exact ok.locked hr

/-- What can come of a change to a row that is locked: the row is not there, or it is final, or
the change is staged. -/
theorem stageUpdate_cases (ok : StagedOK s) (ht : s.IsOpen t) {l : LockId} (hl : (id, l) ∈ s.held t)
    (status : Status) (driver passenger : Bool) (now : Time.Instant) :
    (s.stageUpdate t id status driver passenger now = (0, s) ∧
      ∀ r, s.current? t id = some r → r.status.isTerminal = true) ∨
    ∃ r s', s.current? t id = some r ∧ r.isOpen = true ∧
      s.stageUpdate t id status driver passenger now = (1, s') ∧ StagedOK s' ∧
      s' = s.setTransaction t { s.transaction t with
        staged := (s.transaction t).staged ++ [.update { r with
          status, driverConfirmed := driver, passengerConfirmed := passenger, updatedAt := now }] } := by
  unfold stageUpdate
  cases hcur : s.current? t id with
  | none => exact Or.inl ⟨rfl, fun r h => by cases h⟩
  | some r =>
      have hid : r.id = id := id_of_current? ok.id_eq hcur
      by_cases hterm : r.status.isTerminal = true
      · refine Or.inl ⟨by simp [hterm], ?_⟩
        intro r' h
        obtain rfl := Option.some.inj h
        exact hterm
      · have hopen : r.isOpen = true := by
          unfold Proposal.isOpen
          simpa using hterm
        refine Or.inr ⟨r, _, rfl, hopen, by simp [hterm], ?_, rfl⟩
        refine ok.stage ht ?_ ?_ ?_
        · refine (ok.coherent t).append_update (b := r) ?_ hopen rfl
          rw [← s.current?_eq]
          exact hid ▸ hcur
        · intro r' hr' u hu r'' hr''
          rw [mem_newRowsOf, List.mem_append, List.mem_singleton] at hr'
          rcases hr' with hr' | hr'
          · intro he
            exact hu (ok.distinct hr'' (mem_newRowsOf.2 hr') he)
          · cases hr'
        · intro r' hr'
          rw [List.mem_append, List.mem_singleton] at hr'
          rcases hr' with hr' | hr'
          · exact ok.locked hr'
          · obtain rfl := Staged.update.inj hr'
            exact ⟨l, hid ▸ hl⟩

/-- What can come of staging a new row: its pair is taken, or it is staged. -/
theorem stageInsert_cases (ok : StagedOK s) (ht : s.IsOpen t) (d : Draft) {id : MatchId}
    (hid : s.Unused id) (now : Time.Instant) :
    (s.stageInsert t d id now = (.error (.pairTaken d.pair), s) ∧
      ((∃ r ∈ (s.transaction t).newRows, r.pair = d.pair) ∨
        s.openPairs.find? d.pair ≠ none)) ∨
    ∃ s', s.stageInsert t d id now = (.ok (d.toProposal id now), s') ∧ StagedOK s' ∧
      s' = s.setTransaction t { s.transaction t with
        staged := (s.transaction t).staged ++ [.insert (d.toProposal id now)] } := by
  unfold stageInsert
  simp only
  split
  · rename_i htaken
    refine Or.inl ⟨rfl, htaken.imp (fun h => ?_) fun h => ?_⟩
    · obtain ⟨r, hr, he⟩ := List.any_eq_true.mp h
      exact ⟨r, hr, by simpa using he⟩
    · exact Option.isSome_iff_ne_none.mp h
  · refine Or.inr ⟨_, rfl, ?_, rfl⟩
    refine ok.stage ht ?_ ?_ ?_
    · refine (ok.coherent t).append_insert ?_ rfl
      rw [← s.current?_eq]
      refine Option.or_eq_none_iff.mpr ⟨?_, hid.1⟩
      -- nothing is staged under an identifier that is not in use
      rw [Transaction.stagedRow?, List.find?_eq_none]
      intro r hr he
      obtain ⟨c, hc, rfl⟩ := List.mem_map.mp hr
      have hce : c.row.id = id := by simpa using he
      rcases (ok.coherent t).base (List.mem_reverse.mp hc) with ⟨r', hr', he'⟩ | ⟨b, hb⟩
      · exact hid.2 t r' hr' (he'.trans hce)
      · rw [hce, hid.1] at hb
        cases hb
    · intro r hr u hu r' hr' he
      rw [mem_newRowsOf, List.mem_append, List.mem_singleton] at hr
      rcases hr with hr | hr
      · exact hu (ok.distinct hr' (mem_newRowsOf.2 hr) he)
      · obtain rfl := Staged.insert.inj hr
        exact hid.2 u r' hr' he
    · intro r hr
      rw [List.mem_append, List.mem_singleton] at hr
      rcases hr with hr | hr
      · exact ok.locked hr
      · cases hr

/-! ### Writing -/

/-- Ending a transaction forgets no lock. -/
theorem names_endTransaction (s : Store) (t : Ticket) :
    (s.endTransaction t).locks.names = s.locks.names := by
  show ((s.transaction t).held.foldl (fun ls h => ls.leave h.2 t) (s.locks.giveUp t)).names = _
  rw [LinesOK.names_leaveAll, LinesOK.names_giveUp]

/-- The table is in order when a transaction has written what it had staged and has ended. -/
theorem written (ok : StagedOK s) (hclear : ∀ r ∈ (s.transaction t).newRows, ∀ u l, u ≠ t →
      s.locks.InLine s.held u r.id l → s.locks.names.find? r.id = some l) :
    StagedOK ((s.written t).endTransaction t) := by
  have hrest := s.sameRest_written t
  have hrow := s.row?_written t
  have hend := ok.endTransaction t
  have htr : ∀ u, ((s.written t).endTransaction t).transaction u
      = (s.endTransaction t).transaction u := by
    intro u
    rw [transaction_endTransaction, transaction_endTransaction, hrest.transaction]
  have hlocks : ((s.written t).endTransaction t).locks = (s.endTransaction t).locks := by
    unfold Store.endTransaction transaction
    rw [hrest.transactions, hrest.locks]
  have htrans : ((s.written t).endTransaction t).transactions
      = (s.endTransaction t).transactions := by
    unfold Store.endTransaction
    rw [hrest.transactions]
  constructor
  · refine hend.locks.write hlocks htrans hrest.nextTicket ?_
    intro x hx
    change ((s.written t).row? x).isSome = true at hx
    rw [hrow] at hx
    by_cases hex : s.Exists x
    · exact Or.inl hex
    · -- a row that was not there is a new one
      right
      intro u l hin
      obtain ⟨hu, hin⟩ := inLine_endTransaction hin
      rw [names_endTransaction]
      by_cases hc : ∃ c ∈ (s.transaction t).staged, c.row.id = x
      · obtain ⟨c, hc, rfl⟩ := hc
        rcases ok.new_or_locked hc with ⟨r, hr, he⟩ | ⟨h, -⟩
        · rw [← he] at hin ⊢
          exact hclear r hr u l hu hin
        · exact absurd h hex
      · rw [overlay_of_not_mem] at hx
        · exact absurd hx hex
        · intro r hr he
          obtain ⟨c, hc', rfl⟩ := List.mem_map.mp hr
          exact hc ⟨c, hc', he⟩
  · intro id r h
    change (s.written t).row? id = some r at h
    rw [hrow] at h
    exact (overlay_cases h).elim And.right ok.id_eq
  · intro u
    rw [htr, transaction_endTransaction]
    split
    · exact .nil _
    · rename_i hu
      refine ok.coherent_of_row? ?_
      intro c hc
      show (s.written t).row? c.row.id = _
      rw [hrow]
      refine overlay_of_not_mem ?_
      intro r hr
      obtain ⟨d, hd, rfl⟩ := List.mem_map.mp hr
      exact ok.apart (Ne.symm hu) hd hc
  · intro u v r r' hr hr' he
    rw [htr] at hr hr'
    exact hend.distinct hr hr' he
  · intro u r hr
    rw [htr] at hr
    obtain ⟨l, hl⟩ := hend.locked hr
    refine ⟨l, ?_⟩
    unfold Store.held at hl ⊢
    rw [htr]
    exact hl

/-- What can come of a commit: it fails and writes nothing, or all new rows find their pairs free
and all that was staged is written. -/
theorem commit_cases (ok : StagedOK s) (m : Moment)
    (hclear : s.EntersClear (.call (.commit t) m)) :
    ∃ s', StagedOK s' ∧ Spares t s s' ∧ ¬ s'.IsOpen t ∧ s'.locks.waiting.find? t = none ∧
      ((∃ e, perform m (.commit t) s = .answer (.error e) s' ∧
          (∀ id, s'.row? id = s.row? id) ∧ (∀ p, s'.openPairs.find? p = s.openPairs.find? p) ∧
          (e = .offline ∨ ∃ r ∈ (s.transaction t).newRows, e = .pairTaken r.pair) ∧
          (e = .offline → s.offline = true)) ∨
        (perform m (.commit t) s = .answer (.ok ()) s' ∧
          s.FreeInTurn (s.transaction t).newRows ∧ s' = (s.written t).endTransaction t)) := by
  have hended : ∀ s₁ : Store, ¬ (s₁.endTransaction t).IsOpen t ∧
      (s₁.endTransaction t).locks.waiting.find? t = none := by
    intro s₁
    constructor
    · rw [isOpen_endTransaction]
      exact fun h => h.1 rfl
    · rw [waiting_endTransaction, if_pos rfl]
  have hfails : Spares t s (s.endTransaction t) := Spares.endTransaction s t
  rcases commit_shape (fun r hr => ((ok.coherent t).new_absent r hr).1) (ok.coherent t).new_nodup with
    ⟨hoff, h⟩ | ⟨hon, ⟨-, r, hr, h⟩ | ⟨hfree, h⟩⟩
  · refine ⟨_, ok.endTransaction t, hfails, (hended s).1, (hended s).2,
      Or.inl ⟨_, ?_, fun _ => rfl, fun _ => rfl, Or.inl rfl, fun _ => hoff⟩⟩
    rw [perform, h]
    rfl
  · refine ⟨_, ok.endTransaction t, hfails, (hended s).1, (hended s).2,
      Or.inl ⟨_, ?_, fun _ => rfl, fun _ => rfl, Or.inr ⟨r, hr, rfl⟩, ?_⟩⟩
    · rw [perform, h]
      rfl
    · intro he; cases he
  · refine ⟨_, ok.written hclear,
      (Spares.ofSameRest (s.sameRest_written t) t).trans (Spares.endTransaction _ t),
      (hended _).1, (hended _).2, Or.inr ⟨?_, hfree, rfl⟩⟩
    rw [perform, h]
    rfl

/-- A row may be written that nobody has locked. -/
theorem writeFree (ok : StagedOK s) {r : Proposal} (hx : s.Exists r.id)
    (hfree : ∀ u l, (r.id, l) ∉ s.held u) : StagedOK (s.writeRow r) := by
  have hrest : SameRest s (s.writeRow r) := sameRest_writeRow s r
  have htr : ∀ u, (s.writeRow r).transaction u = s.transaction u := hrest.transaction
  -- nobody has staged a change of the row
  have hapart : ∀ u, ∀ c ∈ (s.transaction u).staged, c.row.id ≠ r.id := by
    intro u c hc he
    rcases ok.new_or_locked hc with ⟨n, hn, hne⟩ | ⟨-, l, hl⟩
    · exact ok.not_exists_of_new hn (by rw [hne, he]; exact hx)
    · rw [he] at hl
      exact hfree u l hl
  exact {
    locks := by
      refine ok.locks.write hrest.locks hrest.transactions hrest.nextTicket ?_
      intro x hx'
      unfold Store.Exists at hx'
      rw [row?_writeRow, Function.update_apply] at hx'
      split at hx'
      · rename_i he
        subst x
        exact Or.inl hx
      · exact Or.inl hx'
    id_eq := by
      intro id r' h
      rw [row?_writeRow, Function.update_apply] at h
      split at h
      · rename_i he
        rw [← Option.some.inj h, he]
      · exact ok.id_eq h
    coherent := by
      intro u
      rw [htr]
      refine ok.coherent_of_row? fun c hc => ?_
      rw [row?_writeRow, Function.update_of_ne (hapart u c hc)]
    distinct := by
      intro u v a b ha hb he
      rw [htr] at ha hb
      exact ok.distinct ha hb he
    locked := by
      intro u a ha
      rw [htr] at ha
      obtain ⟨l, hl⟩ := ok.locked ha
      refine ⟨l, ?_⟩
      unfold Store.held
      rw [htr]
      exact hl }

/-- What can come of one row of a batch update: it waits, and somebody else is in line for the
row; or the row is left as it is, because it is not there or not in an allowed state; or it is
written, and nobody else has staged a change of it. -/
theorem updateRow_cases (ok : StagedOK s) (m : Moment) (status : Status) (allowed : List Status)
    (hopen : ¬ s.IsOpen t) (hlt : t < s.nextTicket) (hask : s.MayAsk t id) :
    ∃ s', StagedOK s' ∧ Spares t s s' ∧ ¬ s'.IsOpen t ∧
      ((perform m (.updateRow t id status allowed) s = .wait s' ∧ (∀ x, s'.row? x = s.row? x) ∧
          (∀ p, s'.openPairs.find? p = s.openPairs.find? p) ∧
          (∃ l, s'.locks.waiting.find? t = some (id, l)) ∧
          ∃ u l, u ≠ t ∧ s.locks.InLine s.held u id l) ∨
        (s'.locks.waiting.find? t = none ∧ (∀ u l, s.Exists id → (id, l) ∉ s.held u) ∧
          ((perform m (.updateRow t id status allowed) s = .answer false s' ∧
              (∀ x, s'.row? x = s.row? x) ∧ (∀ p, s'.openPairs.find? p = s.openPairs.find? p) ∧
              ∀ r, s.row? id = some r → r.status ∉ allowed) ∨
            ∃ r, s.row? id = some r ∧ r.status ∈ allowed ∧
              perform m (.updateRow t id status allowed) s = .answer true s' ∧
              (∀ x, s'.row? x = (s.writeRow { r with status, updatedAt := m.now }).row? x) ∧
              ∀ p, s'.openPairs.find? p
                = (s.writeRow { r with status, updatedAt := m.now }).openPairs.find? p))) := by
  obtain ⟨locks, hlocks, hother, h⟩ :=
    @LocksOK.updateLocked_cases s ok.locks t id status allowed m.now hopen hlt hask
  have ok₁ : StagedOK { s with locks } :=
    ok.ofLocks hlocks (fun _ => rfl) (fun _ => Or.inl rfl) (fun _ _ _ _ h => h)
  have hs : Spares t s { s with locks } := Spares.ofLocks hother
  rcases h with ⟨l, h, hwait, hsome⟩ |
    ⟨hwait, hfree, ⟨h, hnot⟩ | ⟨r, hr, hallowed, h⟩⟩
  · exact ⟨_, ok₁, hs, hopen, Or.inl ⟨h, fun _ => rfl, fun _ => rfl, ⟨l, hwait⟩, hsome⟩⟩
  · exact ⟨_, ok₁, hs, hopen, Or.inr ⟨hwait, hfree, Or.inl ⟨h, fun _ => rfl, fun _ => rfl, hnot⟩⟩⟩
  · have hid : r.id = id := ok.id_eq hr
    have hx : s.Exists id := by
      unfold Store.Exists
      rw [hr]
      rfl
    set r' : Proposal := { r with status, updatedAt := m.now }
    have hid' : r'.id = id := hid
    have hrest : SameRest { s with locks } (writeRow { s with locks } r') :=
      sameRest_writeRow { s with locks } r'
    have okw : StagedOK (writeRow { s with locks } r') := by
      refine ok₁.writeFree (by rw [hid']; exact hx) fun u l => ?_
      rw [hid']
      exact hfree u l hx
    refine ⟨_, okw, hs.trans (Spares.ofSameRest hrest t), ?_, Or.inr ⟨?_, hfree,
      Or.inr ⟨r, hr, hallowed, h, fun x => ?_, fun p => ?_⟩⟩⟩
    · unfold Store.IsOpen
      rw [hrest.transactions]
      exact hopen
    · rw [hrest.locks]
      exact hwait
    · rw [row?_writeRow, row?_writeRow]
      rfl
    · rw [find?_openPairs_writeRow, find?_openPairs_writeRow]

end StagedOK

/-! ### The index of pairs -/

namespace StoreOK

variable {s : Store} {t : Ticket} {id : MatchId}

open Store

/-- What can come of reading a row that is to be changed. -/
theorem lock_cases (ok : StoreOK s) (ht : s.IsOpen t) (hask : s.MayAsk t id) (m : Moment) :
    ∃ s', StoreOK s' ∧ Settles t s s' ∧
      ((perform m (.lock t id) s = .wait s' ∧ s'.held t = s.held t ∧
          (∃ l, s'.locks.waiting.find? t = some (id, l)) ∧
          ∃ u l, u ≠ t ∧ s.locks.InLine s.held u id l) ∨
        (s'.locks.waiting.find? t = none ∧
          ((s.offline = true ∧ s' = s ∧
              perform m (.lock t id) s = .answer (.error .offline) s') ∨
            (∃ r l, s.current? t id = some r ∧
              perform m (.lock t id) s = .answer (.ok r) s' ∧
              (id, l) ∈ s'.held t ∧ ∀ h ∈ s'.held t, h ∈ s.held t ∨ h = (id, l)) ∨
            (s.current? t id = none ∧
              perform m (.lock t id) s = .answer (.error (.notFound id)) s' ∧
              ∀ h ∈ s'.held t, h ∈ s.held t ∧ h.1 ≠ id)))) := by
  obtain ⟨s', ok', hs, hcases⟩ := ok.stagedOK.lock_cases ht hask m
  refine ⟨s', .of_stagedOK ok' (ok.indexed.congr hs.row hs.openPairs), hs, ?_⟩
  rcases hcases with h | ⟨hwait, h | ⟨r, l, hr, h, -, hl⟩ | h⟩
  · exact Or.inl h
  · exact Or.inr ⟨hwait, Or.inl h⟩
  · exact Or.inr ⟨hwait, Or.inr (Or.inl ⟨r, l, hr, h, hl⟩)⟩
  · exact Or.inr ⟨hwait, Or.inr (Or.inr h)⟩

/-- What can come of a change to a row that is locked. -/
theorem stageUpdate_cases (ok : StoreOK s) (ht : s.IsOpen t) {l : LockId} (hl : (id, l) ∈ s.held t)
    (status : Status) (driver passenger : Bool) (now : Time.Instant) :
    (s.stageUpdate t id status driver passenger now = (0, s) ∧
      ∀ r, s.current? t id = some r → r.status.isTerminal = true) ∨
    ∃ r s', s.current? t id = some r ∧ r.isOpen = true ∧
      s.stageUpdate t id status driver passenger now = (1, s') ∧ StoreOK s' ∧
      s' = s.setTransaction t { s.transaction t with
        staged := (s.transaction t).staged ++ [.update { r with
          status, driverConfirmed := driver, passengerConfirmed := passenger, updatedAt := now }] } := by
  refine (ok.stagedOK.stageUpdate_cases ht hl status driver passenger now).imp_right ?_
  rintro ⟨r, s', hr, hopen, h, ok', rfl⟩
  exact ⟨r, _, hr, hopen, h, .of_stagedOK ok' (ok.indexed.congr (fun _ => rfl) fun _ => rfl), rfl⟩

/-- What can come of staging a new row. -/
theorem stageInsert_cases (ok : StoreOK s) (ht : s.IsOpen t) (d : Draft) {id : MatchId}
    (hid : s.Unused id) (now : Time.Instant) :
    (s.stageInsert t d id now = (.error (.pairTaken d.pair), s) ∧
      ((∃ r ∈ (s.transaction t).newRows, r.pair = d.pair) ∨
        s.openPairs.find? d.pair ≠ none)) ∨
    ∃ s', s.stageInsert t d id now = (.ok (d.toProposal id now), s') ∧ StoreOK s' ∧
      s' = s.setTransaction t { s.transaction t with
        staged := (s.transaction t).staged ++ [.insert (d.toProposal id now)] } := by
  refine (ok.stagedOK.stageInsert_cases ht d hid now).imp_right ?_
  rintro ⟨s', h, ok', rfl⟩
  exact ⟨_, h, .of_stagedOK ok' (ok.indexed.congr (fun _ => rfl) fun _ => rfl), rfl⟩

/-- What can come of a commit: it fails and writes nothing, or it writes all that was staged. -/
theorem commit_cases (ok : StoreOK s) (m : Moment) (hclear : s.EntersClear (.call (.commit t) m)) :
    ∃ s', StoreOK s' ∧ Spares t s s' ∧ ¬ s'.IsOpen t ∧ s'.locks.waiting.find? t = none ∧
      ((∃ e, perform m (.commit t) s = .answer (.error e) s' ∧
          (∀ id, s'.row? id = s.row? id) ∧
          (e = .offline ∨ ∃ r ∈ (s.transaction t).newRows, e = .pairTaken r.pair) ∧
          (e = .offline → s.offline = true)) ∨
        (perform m (.commit t) s = .answer (.ok ()) s' ∧
          s'.row? = overlay s.row? ((s.transaction t).staged.map Staged.row))) := by
  obtain ⟨s', ok', hs, hopen, hwait, ⟨e, h, hrow, hpair, he, hoff⟩ | ⟨h, hfree, rfl⟩⟩ :=
    ok.stagedOK.commit_cases m hclear
  · exact ⟨s', .of_stagedOK ok' (ok.indexed.congr hrow hpair), hs, hopen, hwait,
      Or.inl ⟨e, h, hrow, he, hoff⟩⟩
  · have ix : Indexed ((s.written t).endTransaction t) :=
      (ok.indexed.written (ok.coherent t) hfree).congr (fun _ => rfl) fun _ => rfl
    exact ⟨_, .of_stagedOK ok' ix, hs, hopen, hwait, Or.inr ⟨h, s.row?_written t⟩⟩

/-- What can come of one row of a batch update that gives rows a final status. -/
theorem updateRow_cases (ok : StoreOK s) (m : Moment) {status : Status} {allowed : List Status}
    (hopen : ¬ s.IsOpen t) (hlt : t < s.nextTicket) (hask : s.MayAsk t id)
    (hterm : status.isTerminal = true) :
    ∃ s', StoreOK s' ∧ Spares t s s' ∧ ¬ s'.IsOpen t ∧
      ((perform m (.updateRow t id status allowed) s = .wait s' ∧ (∀ x, s'.row? x = s.row? x) ∧
          (∃ l, s'.locks.waiting.find? t = some (id, l)) ∧
          ∃ u l, u ≠ t ∧ s.locks.InLine s.held u id l) ∨
        (s'.locks.waiting.find? t = none ∧ (∀ u l, s.Exists id → (id, l) ∉ s.held u) ∧
          ((perform m (.updateRow t id status allowed) s = .answer false s' ∧
              (∀ x, s'.row? x = s.row? x) ∧ ∀ r, s.row? id = some r → r.status ∉ allowed) ∨
            ∃ r, s.row? id = some r ∧ r.status ∈ allowed ∧
              perform m (.updateRow t id status allowed) s = .answer true s' ∧
              s'.row? = Function.update s.row? id (some { r with status, updatedAt := m.now })))) := by
  obtain ⟨s', ok', hs, hopen', h⟩ :=
    ok.stagedOK.updateRow_cases m status allowed hopen hlt hask
  rcases h with ⟨h, hrow, hpair, hwait, hin⟩ |
    ⟨hwait, hfree, ⟨h, hrow, hpair, hnot⟩ | ⟨r, hr, hallowed, h, hrow, hpair⟩⟩
  · exact ⟨s', .of_stagedOK ok' (ok.indexed.congr hrow hpair), hs, hopen',
      Or.inl ⟨h, hrow, hwait, hin⟩⟩
  · exact ⟨s', .of_stagedOK ok' (ok.indexed.congr hrow hpair), hs, hopen',
      Or.inr ⟨hwait, hfree, Or.inl ⟨h, hrow, hnot⟩⟩⟩
  · have hid : r.id = id := ok.indexed.id_eq hr
    have ix : Indexed (s.writeRow { r with status, updatedAt := m.now }) := by
      refine ok.indexed.writeRow (b := r) ?_ rfl (Or.inr ?_)
      · show s.row? r.id = some r
        rw [hid]
        exact hr
      · show (!status.isTerminal) = false
        rw [hterm]
        rfl
    refine ⟨s', .of_stagedOK ok' (ix.congr hrow hpair), hs, hopen',
      Or.inr ⟨hwait, hfree, Or.inr ⟨r, hr, hallowed, h, ?_⟩⟩⟩
    rw [funext hrow, row?_writeRow]
    exact congrArg (fun x => Function.update s.row? x _) hid

/-! ### Every move -/

/-- **Every call keeps the table in order**, if somebody can make it and it enters no row with
somebody at a forgotten lock of it. -/
theorem perform (ok : StoreOK s) {c : StoreCall} {m : Moment} (hadm : s.AdmitsCall m c)
    (hclear : s.EntersClear (.call c m)) : StoreOK (Store.perform m c s).state := by
  cases c with
  | begin =>
      rw [Store.perform]
      split
      · exact ok
      · exact ok.beginTransaction
  | find driver passenger => exact ok
  | get id => exact ok
  | list actor role => exact ok
  | insert t d =>
      rw [Store.perform]
      split
      · exact ok
      · rcases ok.stageInsert_cases hadm.1 d hadm.2.2 m.now with ⟨h, -⟩ | ⟨s', h, ok', -⟩
        · rw [h]; exact ok
        · rw [h]; exact ok'
  | lock t id =>
      obtain ⟨s', ok', -, ⟨h, -⟩ | ⟨-, ⟨-, -, h⟩ | ⟨r, l, -, h, -⟩ | ⟨-, h, -⟩⟩⟩ :=
        ok.lock_cases hadm.1 hadm.2 m
      all_goals rw [h]; exact ok'
  | update t id status driver passenger =>
      rcases ok.stagedOK.withLock_cases hadm.1 hadm.2 (fun s =>
          (.ok (s.stageUpdate t id status driver passenger m.now).1,
            (s.stageUpdate t id status driver passenger m.now).2)) with
        ⟨-, -, h⟩ | ⟨s', ok', hs, hcases⟩
      · rw [perform_update, h]; exact ok
      have ok' : StoreOK s' := .of_stagedOK ok' (ok.indexed.congr hs.row hs.openPairs)
      rcases hcases with ⟨h, -⟩ | ⟨h, -, -, l, hl, -⟩
      · rw [perform_update, h]; exact ok'
      · rw [perform_update, h]
        rcases ok'.stageUpdate_cases (hs.own.mpr hadm.1) hl status driver passenger m.now with
          ⟨h', -⟩ | ⟨r, s'', -, -, h', ok'', -⟩
        · rw [h']; exact ok'
        · rw [h']; exact ok''
  | commit t =>
      obtain ⟨s', ok', -, -, -, ⟨e, h, -⟩ | ⟨h, -⟩⟩ := ok.commit_cases m hclear
      all_goals rw [h]; exact ok'
  | rollback t => exact ok.endTransaction t
  | openBatch =>
      rw [Store.perform]
      split
      · exact ok
      · exact ok.openBatch
  | updateRow t id status allowed =>
      obtain ⟨hopen, hlt, hask, hterm⟩ := hadm
      obtain ⟨s', ok', -, -, ⟨h, -⟩ | ⟨-, -, ⟨h, -⟩ | ⟨r, -, -, h, -⟩⟩⟩ :=
        @updateRow_cases s t id ok m status allowed hopen hlt hask hterm
      all_goals rw [h]; exact ok'

/-- So does every move. -/
theorem after (ok : StoreOK s) {a : Move} (hadm : s.Admits a) (hclear : s.EntersClear a) :
    StoreOK (s.after a) := by
  cases a with
  | call c m => exact ok.perform hadm hclear
  | withdraw t => exact ok.giveUp t
  | outage offline => exact ok.outage offline

/-- **Whatever any number of parties do, the table is in order**, as long as no row is entered
with somebody at a forgotten lock of it. -/
theorem of_mem_states (ok : StoreOK s) {moves : List Move}
    (hadm : Run.Along Store.after Admits s moves)
    (hclear : Run.Along Store.after EntersClear s moves) :
    ∀ s' ∈ Run.states Store.after s moves, StoreOK s' :=
  Run.invariant (fun ok h => ok.after h.1 h.2) ok (hadm.and hclear)

end StoreOK
end Dispatch
