/-
What can come of each call.

Of each call that the operations make the file says what can come of it, given what the caller
holds when he makes it: how it is answered, or that it waits; what has become of the rows; and what
the caller holds afterwards.  Every call advances the table (`Store.Advance`), so that what others
hold is left alone.

Looking something up changes nothing.  The calls of a transaction change nothing that others see,
until it commits.
-/
import Dispatch.Proofs.Matching.Holdings

namespace Dispatch

open Store

variable {s : Store} {t : Ticket} {m : Moment}

/-- Looking something up is refused while the table cannot be reached. -/
theorem guarded_cases {α : Type} (s : Store) (a : Except StoreError α) :
    (s.offline = true ∧ s.guarded a = .error .offline) ∨ s.guarded a = a := by
  unfold guarded
  by_cases hoff : s.offline = true
  · rw [if_pos hoff]
    exact Or.inl ⟨hoff, rfl⟩
  · rw [if_neg hoff]
    exact Or.inr rfl

theorem find_cases (s : Store) (m : Moment) (driver passenger : ActorId) :
    (s.offline = true ∧ perform m (.find driver passenger) s = .answer (.error .offline) s) ∨
      perform m (.find driver passenger) s = .answer (.ok (s.openProposal? (driver, passenger))) s := by
  rw [perform]
  rcases guarded_cases s (.ok (s.openProposal? (driver, passenger))) with ⟨hoff, h⟩ | h
  · exact Or.inl ⟨hoff, by rw [h]⟩
  · exact Or.inr (by rw [h])

theorem list_cases (s : Store) (m : Moment) (actor : ActorId) (role : Role) :
    (s.offline = true ∧ perform m (.list actor role) s = .answer (.error .offline) s) ∨
      perform m (.list actor role) s = .answer (.ok (s.rowsOf actor role)) s := by
  rw [perform]
  rcases guarded_cases s (.ok (s.rowsOf actor role)) with ⟨hoff, h⟩ | h
  · exact Or.inl ⟨hoff, by rw [h]⟩
  · exact Or.inr (by rw [h])

theorem get_cases (s : Store) (m : Moment) (id : MatchId) :
    (s.offline = true ∧ perform m (.get id) s = .answer (.error .offline) s) ∨
    (s.row? id = none ∧ perform m (.get id) s = .answer (.error (.notFound id)) s) ∨
      ∃ r, s.row? id = some r ∧ perform m (.get id) s = .answer (.ok r) s := by
  rw [perform]
  cases hr : s.row? id with
  | none =>
      rcases guarded_cases (α := Proposal) s (.error (.notFound id)) with ⟨hoff, h⟩ | h
      · exact Or.inl ⟨hoff, by simp only [h]⟩
      · exact Or.inr (Or.inl ⟨rfl, by simp only [h]⟩)
  | some r =>
      rcases guarded_cases s (.ok r) with ⟨hoff, h⟩ | h
      · exact Or.inl ⟨hoff, by simp only [h]⟩
      · exact Or.inr (Or.inr ⟨r, rfl, by simp only [h]⟩)

/-- The outcome of beginning a transaction. -/
theorem begin_cases (ok : StoreOK s) (hp : s.Present) (m : Moment) :
    (s.offline = true ∧ perform m .begin s = .answer (.error .offline) s) ∨
    ∃ s', perform m .begin s = .answer (.ok s.nextTicket) s' ∧ Advance s.nextTicket s s' ∧
      s'.row? = s.row? ∧ ∀ asks, (Holding.begun s.nextTicket asks).Holds s' := by
  rw [perform]
  by_cases hoff : s.offline = true
  · rw [if_pos hoff]
    exact Or.inl ⟨hoff, rfl⟩
  rw [if_neg hoff]
  have hnew : s.beginTransaction.2.transaction s.nextTicket = {} := by
    show (s.setTransaction s.nextTicket {}).transaction s.nextTicket = _
    rw [s.transaction_setTransaction, if_pos rfl]
  have hopen : s.beginTransaction.2.IsOpen s.nextTicket :=
    (s.isOpen_setTransaction s.nextTicket s.nextTicket {}).2 (Or.inl rfl)
  have hwait : s.beginTransaction.2.locks.waiting.find? s.nextTicket = none :=
    (idle_nextTicket ok.locks).2
  have hholds : ∀ asks, (Holding.begun s.nextTicket asks).Holds s.beginTransaction.2 := by
    intro asks
    refine ⟨hopen, by rw [hnew], ?_, waitsFor_of_none hwait⟩
    unfold Store.held
    rw [hnew]
  refine Or.inr ⟨_, rfl, ?_, rfl, hholds⟩
  exact Advance.of_row hp (Spares.beginTransaction s) ok.beginTransaction (fun _ => rfl)
    fun h => (hholds none).exists_of_inLine rfl h

/-- The outcome of beginning a batch update. -/
theorem openBatch_cases (ok : StoreOK s) (hp : s.Present) (m : Moment) :
    (s.offline = true ∧ perform m .openBatch s = .answer (.error .offline) s) ∨
    ∃ s', perform m .openBatch s = .answer (.ok s.nextTicket) s' ∧ Advance s.nextTicket s s' ∧
      s'.row? = s.row? ∧ ∀ asks, (Holding.ticket s.nextTicket asks).Holds s' := by
  rw [perform]
  by_cases hoff : s.offline = true
  · rw [if_pos hoff]
    exact Or.inl ⟨hoff, rfl⟩
  rw [if_neg hoff]
  have hidle := idle_nextTicket ok.locks
  refine Or.inr ⟨_, rfl, ?_, rfl, fun asks => ?_⟩
  · exact Advance.of_row hp (Spares.openBatch s _) ok.openBatch (fun _ => rfl)
      fun h => absurd h hidle.not_inLine
  · exact ⟨hidle.1, Nat.lt_succ_self _, waitsFor_of_none hidle.2⟩

/-- Why a new row is not entered: the table cannot be reached, or the pair is taken. -/
def NotEntered (s : Store) (d : Draft) (e : StoreError) : Prop :=
  (s.offline = true ∧ e = .offline) ∨ (e = .pairTaken d.pair ∧ s.openProposal? d.pair ≠ none)

/-- The outcome of staging a new row. -/
theorem insert_cases (ok : StoreOK s) (hp : s.Present) {d : Draft}
    (hh : (Holding.begun t none).Holds s) (hid : s.Unused m.freshId) :
    (∃ e, perform m (.insert t d) s = .answer (.error e) s ∧ NotEntered s d e) ∨
    ∃ s', perform m (.insert t d) s = .answer (.ok (d.toProposal m.freshId m.now)) s' ∧
      Advance t s s' ∧ s'.row? = s.row? ∧ (Holding.entering t d m.freshId m.now).Holds s' := by
  obtain ⟨hopen, hstaged, hheld, hw⟩ := hh
  rw [perform]
  by_cases hoff : s.offline = true
  · rw [if_pos hoff]
    exact Or.inl ⟨_, rfl, Or.inl ⟨hoff, rfl⟩⟩
  rw [if_neg hoff]
  rcases ok.stageInsert_cases hopen d hid m.now with ⟨h, htaken⟩ | ⟨s', h, ok', rfl⟩
  · have hnew : (s.transaction t).newRows = [] := by
      unfold Transaction.newRows
      rw [hstaged]
      rfl
    rw [hnew] at htaken
    rw [h]
    refine Or.inl ⟨_, rfl, Or.inr ⟨rfl, ?_⟩⟩
    rcases htaken with ⟨r, hr, -⟩ | htaken
    · cases hr
    · exact mt ok.indexed.openProposal?_eq_none_iff.1 htaken
  · have hholds : (Holding.entering t d m.freshId m.now).Holds (s.setTransaction t
        { s.transaction t with
          staged := (s.transaction t).staged ++ [.insert (d.toProposal m.freshId m.now)] }) := by
      refine ⟨(s.isOpen_setTransaction t t _).2 (Or.inl rfl), ?_, ?_, hw⟩
      · rw [s.transaction_setTransaction, if_pos rfl, hstaged]
        rfl
      · unfold Store.held
        rw [s.transaction_setTransaction, if_pos rfl]
        exact hheld
    rw [h]
    exact Or.inr ⟨_, rfl, Advance.of_row hp (Spares.setTransaction s t _) ok' (fun _ => rfl)
      fun h => hholds.exists_of_inLine rfl h, rfl, hholds⟩

/-- The outcome of asking for a row. -/
theorem ask_cases (ok : StoreOK s) (hp : s.Present) {id : MatchId}
    (hh : (Holding.begun t (some id)).Holds s) (m : Moment) :
    (s.offline = true ∧ perform m (.lock t id) s = .answer (.error .offline) s) ∨
    ∃ s', Advance t s s' ∧ s'.row? = s.row? ∧
      ((perform m (.lock t id) s = .wait s' ∧ ¬ s.Alone t ∧ (Holding.begun t (some id)).Holds s') ∨
        (s.row? id = none ∧ perform m (.lock t id) s = .answer (.error (.notFound id)) s' ∧
          (Holding.begun t none).Holds s') ∨
        ∃ r, s.row? id = some r ∧ perform m (.lock t id) s = .answer (.ok r) s' ∧
          (Holding.reading t r).Holds s') := by
  obtain ⟨hopen, hstaged, hheld, hw⟩ := hh
  have hcur : s.current? t id = s.row? id := by
    rw [s.current?_eq, hstaged]
    rfl
  obtain ⟨s', ok', hs, ⟨h, hheld', ⟨l, hwait⟩, u, l', hu, hin⟩ | ⟨hwait, hcases⟩⟩ :=
    ok.lock_cases hopen hw.mayAsk m
  · have hholds : (Holding.begun t (some id)).Holds s' := by
      refine ⟨hs.own.mpr hopen, hs.staged.trans hstaged, hheld'.trans hheld, fun w hw' => ?_⟩
      rw [hwait] at hw'
      obtain rfl := Option.some.inj hw'
      refine ⟨rfl, ?_⟩
      unfold Store.Exists
      rw [hs.row]
      exact hp hin
    refine Or.inr ⟨s', ?_, hs.row?_eq, Or.inl ⟨h, not_alone_of_inLine hu hin, hholds⟩⟩
    refine Advance.of_row hp hs.toSpares ok' hs.row fun h => ?_
    have := hholds.exists_of_inLine rfl h
    unfold Store.Exists at this ⊢
    rwa [hs.row] at this
  have hadv : ∀ {h : Holding}, h.Holds s' → h.ticket? = some t → Advance t s s' := by
    intro h hh ht
    refine Advance.of_row hp hs.toSpares ok' hs.row fun hin => ?_
    have := hh.exists_of_inLine ht hin
    unfold Store.Exists at this ⊢
    rwa [hs.row] at this
  rcases hcases with ⟨hoff, rfl, h⟩ | ⟨r, l, hr, h, hl, hsub⟩ | ⟨hr, h, hsub⟩
  · exact Or.inl ⟨hoff, h⟩
  · rw [hcur] at hr
    have hid : r.id = id := ok.indexed.id_eq hr
    have hholds : (Holding.reading t r).Holds s' := by
      refine ⟨hs.own.mpr hopen, hs.staged.trans hstaged, ⟨⟨l, hid ▸ hl⟩, fun h hh => ?_⟩,
        waitsFor_of_none hwait, ?_⟩
      · rcases hsub h hh with hmem | rfl
        · rw [hheld] at hmem; cases hmem
        · exact hid.symm
      · rw [hs.row, hid]; exact hr
    exact Or.inr ⟨s', hadv hholds rfl, hs.row?_eq, Or.inr (Or.inr ⟨r, hr, h, hholds⟩)⟩
  · rw [hcur] at hr
    have hholds : (Holding.begun t none).Holds s' := by
      refine ⟨hs.own.mpr hopen, hs.staged.trans hstaged, ?_, waitsFor_of_none hwait⟩
      refine List.eq_nil_iff_forall_not_mem.mpr fun h hh => ?_
      have hmem := (hsub h hh).1
      rw [hheld] at hmem
      cases hmem
    exact Or.inr ⟨s', hadv hholds rfl, hs.row?_eq, Or.inr (Or.inl ⟨hr, h, hholds⟩)⟩

/-- A call for a row that one has locked already. -/
theorem withLock_of_locked {α : Type} {id : MatchId} {l : LockId}
    (f : Store → Except StoreError α × Store) (hl : (id, l) ∈ s.held t)
    (hw : s.locks.waiting.find? t = none) :
    s.withLock t id f = if s.offline then .answer (.error .offline) s else replied (f s) := by
  have hwf : s.locks.waitsFor t id = false := (waitsFor_eq_false (mayAsk_of_none hw)).2 hw
  have hlock : s.lockRow t id = (true, s) := by
    unfold lockRow
    simp only [(s.hasLocked_iff t id).2 ⟨l, hl⟩, if_true]
  rw [withLock, hwf, hlock]
  by_cases hoff : s.offline = true
  · simp [hoff]
  · simp [hoff]

/-- The outcome of writing a confirmation. -/
theorem update_cases (ok : StoreOK s) (hp : s.Present) {r : Proposal}
    (hh : (Holding.reading t r).Holds s) (hro : r.isOpen = true) (role : Role) (m : Moment) :
    (s.offline = true ∧ perform m (.update t r.id
        (Status.ofFlags (r.flagsAfter role).1 (r.flagsAfter role).2)
        (r.flagsAfter role).1 (r.flagsAfter role).2) s = .answer (.error .offline) s) ∨
    ∃ s', perform m (.update t r.id
        (Status.ofFlags (r.flagsAfter role).1 (r.flagsAfter role).2)
        (r.flagsAfter role).1 (r.flagsAfter role).2) s = .answer (.ok (1 : Nat)) s' ∧
      Advance t s s' ∧ s'.row? = s.row? ∧ (Holding.writing t r role m.now).Holds s' := by
  obtain ⟨hopen, hstaged, hlocks, hw, hr⟩ := hh
  obtain ⟨l, hl⟩ := hlocks.1
  rw [perform, withLock_of_locked _ hl hw.waiting_eq_none]
  by_cases hoff : s.offline = true
  · rw [if_pos hoff]
    exact Or.inl ⟨hoff, rfl⟩
  rw [if_neg hoff]
  right
  have hcur : s.current? t r.id = some r := by
    rw [s.current?_eq, hstaged]
    exact hr
  rcases ok.stageUpdate_cases hopen hl (Status.ofFlags (r.flagsAfter role).1 (r.flagsAfter role).2)
      (r.flagsAfter role).1 (r.flagsAfter role).2 m.now with ⟨-, hterm⟩ | ⟨b, s', hb, -, h, ok', rfl⟩
  · have hopen' : (!r.status.isTerminal) = true := hro
    rw [hterm r hcur] at hopen'
    cases hopen'
  · rw [hcur] at hb
    obtain rfl := Option.some.inj hb
    have hholds : (Holding.writing t r role m.now).Holds (s.setTransaction t
        { s.transaction t with
          staged := (s.transaction t).staged ++ [.update (r.confirmedBy role m.now)] }) := by
      refine ⟨(s.isOpen_setTransaction t t _).2 (Or.inl rfl), ?_, ?_, hw, hr⟩
      · rw [s.transaction_setTransaction, if_pos rfl, hstaged]
        rfl
      · unfold LocksOnly Store.held
        rw [s.transaction_setTransaction, if_pos rfl]
        exact hlocks
    rw [h]
    exact ⟨_, rfl, Advance.of_row hp (Spares.setTransaction s t _) ok' (fun _ => rfl)
      fun h => hholds.exists_of_inLine rfl h, rfl, hholds⟩

/-- The outcome of reading a row again: it is found as it has been written. -/
theorem reread_cases {r : Proposal} {role : Role} {now : Time.Instant}
    (hh : (Holding.writing t r role now).Holds s) (m : Moment) :
    (s.offline = true ∧ perform m (.lock t r.id) s = .answer (.error .offline) s) ∨
      perform m (.lock t r.id) s = .answer (.ok (r.confirmedBy role now)) s := by
  obtain ⟨hopen, hstaged, hlocks, hw, hr⟩ := hh
  obtain ⟨l, hl⟩ := hlocks.1
  rw [perform, withLock_of_locked _ hl hw.waiting_eq_none]
  by_cases hoff : s.offline = true
  · rw [if_pos hoff]
    exact Or.inl ⟨hoff, rfl⟩
  · rw [if_neg hoff]
    have hcur : s.current? t r.id = some (r.confirmedBy role now) := by
      rw [s.current?_eq, hstaged]
      exact Function.update_self _ _ _
    rw [readLocked, hcur]
    exact Or.inr rfl

/-- Nobody stands at a forgotten lock of a row that is entered, because nobody is in line for it. -/
theorem entersClear_of_present (ok : StoreOK s) (hp : s.Present) (t : Ticket) (m : Moment) :
    s.EntersClear (.call (.commit t) m) := by
  intro r hr u l _ hin
  exact absurd (hp hin) (ok.stagedOK.not_exists_of_new hr)

/-- A commit writes no row that somebody else has locked. -/
theorem not_staged_of_held (ok : StoreOK s) (hp : s.Present) {u : Ticket} {id : MatchId} {l : LockId}
    (hu : u ≠ t) (hl : (id, l) ∈ s.held u) {r : Proposal}
    (hr : r ∈ (s.transaction t).staged.map Staged.row) : r.id ≠ id := by
  intro he
  have hx : s.Exists id := hp (Or.inl hl)
  obtain ⟨c, hc, rfl⟩ := List.mem_map.mp hr
  rcases ok.stagedOK.new_or_locked hc with ⟨n, hn, hne⟩ | ⟨-, l', hl'⟩
  · exact ok.stagedOK.not_exists_of_new hn (by rw [hne, he]; exact hx)
  · rw [he] at hl'
    exact hu (ok.locks.exclusive hl hl' hx)

/-- The outcome of a commit: it fails and writes nothing, or it writes what was staged; and the
transaction has ended. -/
theorem commit_outcome (ok : StoreOK s) (hp : s.Present) (ht : t < s.nextTicket) (m : Moment) :
    ∃ s', Advance t s s' ∧ (Holding.ticket t none).Holds s' ∧
      ((∃ e, perform m (.commit t) s = .answer (.error e) s' ∧ s'.row? = s.row? ∧
          ((s.offline = true ∧ e = .offline) ∨
            ∃ r ∈ (s.transaction t).newRows, e = .pairTaken r.pair)) ∨
        (perform m (.commit t) s = .answer (.ok ()) s' ∧
          s'.row? = overlay s.row? ((s.transaction t).staged.map Staged.row))) := by
  obtain ⟨s', ok', hs, hopen, hwait, h⟩ := ok.commit_cases m (entersClear_of_present ok hp t m)
  have hholds : (Holding.ticket t none).Holds s' :=
    ⟨hopen, Nat.lt_of_lt_of_le ht hs.nextTicket, waitsFor_of_none hwait⟩
  refine ⟨s', ?_, hholds, ?_⟩
  · have hmono : ∀ {x}, s.Exists x → s'.Exists x := by
      intro x hx
      unfold Store.Exists at hx ⊢
      rcases h with ⟨e, -, hrow, -⟩ | ⟨-, hrow⟩
      · rw [hrow]; exact hx
      · rw [hrow]
        cases hr : overlay s.row? ((s.transaction t).staged.map Staged.row) x with
        | some r => rfl
        | none =>
            rw [overlay_apply] at hr
            rw [(Option.or_eq_none_iff.mp hr).2] at hx
            cases hx
    refine ⟨hs, ok', ?_, hmono, ?_⟩
    · intro u x l hin
      by_cases hu : u = t
      · subst u
        exact absurd hin (show s'.Idle t from ⟨hopen, hwait⟩).not_inLine
      · exact hmono (hp ((hs.inLine hu).1 hin))
    · intro u id l hu hl
      rcases h with ⟨e, -, hrow, -⟩ | ⟨-, hrow⟩
      · exact hrow id
      · rw [hrow]
        exact overlay_of_not_mem fun r hr => not_staged_of_held ok hp hu hl hr
  · rcases h with ⟨e, h, hrow, he, hoff⟩ | ⟨h, hrow⟩
    · refine Or.inl ⟨e, h, funext hrow, ?_⟩
      exact he.imp_left fun he => ⟨hoff he, he⟩
    · exact Or.inr ⟨h, hrow⟩

/-- The outcome of committing a new row. -/
theorem enter_cases (ok : StoreOK s) (hp : s.Present) {d : Draft} {id : MatchId}
    {now : Time.Instant} (hh : (Holding.entering t d id now).Holds s) (m : Moment) :
    ∃ s', Advance t s s' ∧
      ((∃ e, perform m (.commit t) s = .answer (.error e) s' ∧ NotEntered s d e ∧
          s'.row? = s.row? ∧ (Holding.ticket t none).Holds s') ∨
        (perform m (.commit t) s = .answer (.ok ()) s' ∧ s'.Idle t ∧ s.row? id = none ∧
          s'.row? = Function.update s.row? id (some (d.toProposal id now)))) := by
  have hnewRows : (s.transaction t).newRows = [d.toProposal id now] := by
    unfold Transaction.newRows
    rw [hh.2.1]
    rfl
  obtain ⟨s', adv, hholds, ⟨e, h, hrow, he⟩ | ⟨h, hrow⟩⟩ :=
    commit_outcome ok hp (hh.ticket_lt ok rfl) m
  · refine ⟨s', adv, Or.inl ⟨e, h, ?_, hrow, hholds⟩⟩
    rcases he with hoff | ⟨r, hr, rfl⟩
    · exact Or.inl hoff
    rw [hnewRows] at hr
    obtain rfl := List.mem_singleton.mp hr
    cases hoff : s.offline with
    | true =>
        rw [perform, commit, if_pos hoff] at h
        cases h
    | false =>
        -- with a free pair the commit would have succeeded
        refine Or.inr ⟨rfl, fun hnone => ?_⟩
        have hfree : s.FreeInTurn (s.transaction t).newRows := by
          rw [hnewRows]
          exact ⟨ok.indexed.openProposal?_eq_none_iff.1 hnone, trivial⟩
        rw [perform, commit_of_freeInTurn hoff hfree] at h
        cases h
  · have hnew : d.toProposal id now ∈ (s.transaction t).newRows := by
      rw [hnewRows]
      exact List.mem_singleton_self _
    refine ⟨s', adv, Or.inr ⟨h, hholds.idle, ((ok.coherent t).new_absent _ hnew).1, ?_⟩⟩
    rw [hrow, hh.2.1]
    rfl

/-- The outcome of committing a confirmation. -/
theorem close_cases (ok : StoreOK s) (hp : s.Present) {r : Proposal} {role : Role}
    {now : Time.Instant} (hh : (Holding.writing t r role now).Holds s) (m : Moment) :
    ∃ s', Advance t s s' ∧
      ((s.offline = true ∧ perform m (.commit t) s = .answer (.error .offline) s' ∧
          s'.row? = s.row? ∧ (Holding.ticket t none).Holds s') ∨
        (perform m (.commit t) s = .answer (.ok ()) s' ∧ s'.Idle t ∧
          s'.row? = Function.update s.row? r.id (some (r.confirmedBy role now)))) := by
  obtain ⟨s', adv, hholds, ⟨e, h, hrow, he⟩ | ⟨h, hrow⟩⟩ :=
    commit_outcome ok hp (hh.ticket_lt ok rfl) m
  · refine ⟨s', adv, Or.inl ?_⟩
    rcases he with ⟨hoff, rfl⟩ | ⟨r', hnew, -⟩
    · exact ⟨hoff, h, hrow, hholds⟩
    · unfold Transaction.newRows at hnew
      rw [hh.2.1] at hnew
      cases hnew
  · refine ⟨s', adv, Or.inr ⟨h, hholds.idle, ?_⟩⟩
    rw [hrow, hh.2.1]
    rfl

/-- A transaction has ended. -/
theorem Store.Advance.endTransaction (ok : StoreOK s) (hp : s.Present) (t : Ticket) :
    Advance t s (s.endTransaction t) ∧ (s.endTransaction t).Idle t := by
  have hidle : (s.endTransaction t).Idle t :=
    ⟨fun h => ((s.isOpen_endTransaction t t).1 h).1 rfl,
      by rw [s.waiting_endTransaction, if_pos rfl]⟩
  refine ⟨.of_row hp (Spares.endTransaction s t) (ok.endTransaction t) (fun _ => rfl) ?_, hidle⟩
  intro x l hin
  exact absurd hin hidle.not_inLine

/-- Somebody who has no transaction has stopped waiting. -/
theorem Store.Advance.giveUp (ok : StoreOK s) (hp : s.Present) (ht : ¬ s.IsOpen t) :
    Advance t s { s with locks := s.locks.giveUp t } ∧
      ({ s with locks := s.locks.giveUp t } : Store).Idle t := by
  have hidle : ({ s with locks := s.locks.giveUp t } : Store).Idle t :=
    ⟨ht, by rw [LinesOK.waiting_giveUp, if_pos rfl]⟩
  refine ⟨.of_row hp (Spares.ofLocks fun u hu => ?_) (ok.giveUp t) (fun _ => rfl) ?_, hidle⟩
  · rw [LinesOK.waiting_giveUp, if_neg hu]
  · intro x l hin
    exact absurd hin hidle.not_inLine

/-- The outcome of dropping a transaction. -/
theorem rollback_cases (ok : StoreOK s) (hp : s.Present) (t : Ticket) (m : Moment) :
    ∃ s', perform m (.rollback t) s = .answer () s' ∧ Advance t s s' ∧ s'.Idle t ∧
      s'.row? = s.row? := by
  obtain ⟨hadv, hidle⟩ := Advance.endTransaction ok hp t
  exact ⟨_, rfl, hadv, hidle, rfl⟩

/-- The outcome of rejecting one row of a batch update. -/
theorem reject_cases (ok : StoreOK s) (hp : s.Present) {id : MatchId}
    (hh : (Holding.ticket t (some id)).Holds s) (m : Moment) :
    ∃ s', Advance t s s' ∧
      ((perform m (.updateRow t id .rejected Status.openStates) s = .wait s' ∧ ¬ s.Alone t ∧
          s'.row? = s.row? ∧ (Holding.ticket t (some id)).Holds s') ∨
        ((∀ asks, (Holding.ticket t asks).Holds s') ∧ (∀ u l, s.Exists id → (id, l) ∉ s.held u) ∧
          ((perform m (.updateRow t id .rejected Status.openStates) s = .answer false s' ∧
              s'.row? = s.row? ∧ ∀ r, s.row? id = some r → r.isOpen = false) ∨
            ∃ r, s.row? id = some r ∧ r.isOpen = true ∧
              perform m (.updateRow t id .rejected Status.openStates) s = .answer true s' ∧
              s'.row? = Function.update s.row? id (some (r.rejectedAt m.now))))) := by
  obtain ⟨hopen, hlt, hw⟩ := hh
  have hmem : ∀ r : Proposal, r.status ∈ Status.openStates ↔ r.isOpen = true := by
    intro r
    rw [Status.mem_openStates_iff]
    unfold Proposal.isOpen
    cases r.status.isTerminal <;> simp
  obtain ⟨s', ok', hs, hopen', h⟩ :=
    @StoreOK.updateRow_cases s t id ok m .rejected Status.openStates hopen hlt hw.mayAsk rfl
  have hlt' : t < s'.nextTicket := Nat.lt_of_lt_of_le hlt hs.nextTicket
  rcases h with ⟨h, hrow, ⟨l, hwait⟩, u, l', hu, hin⟩ | ⟨hwait, hfree, h⟩
  · have hholds : (Holding.ticket t (some id)).Holds s' := by
      refine ⟨hopen', hlt', fun w hw' => ?_⟩
      rw [hwait] at hw'
      obtain rfl := Option.some.inj hw'
      refine ⟨rfl, ?_⟩
      unfold Store.Exists
      rw [hrow]
      exact hp hin
    refine ⟨s', ?_, Or.inl ⟨h, not_alone_of_inLine hu hin, funext hrow, hholds⟩⟩
    refine Advance.of_row hp hs ok' hrow fun h => ?_
    have := hholds.exists_of_inLine rfl h
    unfold Store.Exists at this ⊢
    rwa [hrow] at this
  · have hholds : ∀ asks, (Holding.ticket t asks).Holds s' :=
      fun asks => ⟨hopen', hlt', waitsFor_of_none hwait⟩
    have hnot : ∀ {x l}, ¬ s'.locks.InLine s'.held t x l :=
      (show s'.Idle t from ⟨hopen', hwait⟩).not_inLine
    rcases h with ⟨h, hrow, hr⟩ | ⟨r, hr, hallowed, h, hrow⟩
    · refine ⟨s', Advance.of_row hp hs ok' hrow fun h => absurd h hnot, Or.inr ⟨hholds, hfree,
        Or.inl ⟨h, funext hrow, fun r hr' => ?_⟩⟩⟩
      have hclosed := mt (hmem r).2 (hr r hr')
      simpa using hclosed
    · refine ⟨s', ?_, Or.inr ⟨hholds, hfree, Or.inr ⟨r, hr, (hmem r).1 hallowed, h, hrow⟩⟩⟩
      have hx : s.Exists id := by
        unfold Store.Exists
        rw [hr]
        rfl
      have hmono : ∀ {x}, s.Exists x → s'.Exists x := by
        intro x hx
        unfold Store.Exists at hx ⊢
        rw [hrow, Function.update_apply]
        split
        · rfl
        · exact hx
      refine ⟨hs, ok', ?_, hmono, ?_⟩
      · intro u x l hin
        by_cases hu : u = t
        · subst u
          exact absurd hin hnot
        · exact hmono (hp ((hs.inLine hu).1 hin))
      · intro u x l hu hl
        rw [hrow, Function.update_apply]
        split
        · rename_i he
          subst x
          exact absurd hl (hfree u l hx)
        · rfl

end Dispatch
