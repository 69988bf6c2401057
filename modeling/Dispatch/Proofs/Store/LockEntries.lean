/-
Entries that outlive their rows.

A row finds its lock under its identifier.  The entry is made for whoever asks first, whether or not
there is a row, so that whoever finds none has to see to it that the entry is forgotten.  Reading a
row for writing does so, and so does a batch update.  A change does not, and nothing is forgotten
when a transaction ends.  So an entry is left behind in two ways: by a change of a row that is not
there, and by a transaction that locks a new row of its own and is not committed.

There are no other ways.  `Leaves` and `Forgets` say of a move that it makes, or drops, the entry of
a row that is not there, and after any run the entries without a row are those that have been left
and not been forgotten since.
-/
import Dispatch.Proofs.Store.Queues
import Mathlib.Data.List.Induction

namespace Dispatch

/-! ### Which entries there are after asking -/

namespace RowLocks

/-- A lock is found under the row. -/
def HasEntry (s : RowLocks) (x : Uuid) : Prop := (s.names.find? x).isSome = true

instance (s : RowLocks) (x : Uuid) : Decidable (s.HasEntry x) :=
  inferInstanceAs (Decidable (_ = true))

variable (s : RowLocks) {t : Ticket} {row x : Uuid} {held : Holdings} {rowOf : LockId → Uuid}
  {present : Uuid → Prop}

theorem hasEntry_named : (s.named row).2.HasEntry x ↔ s.HasEntry x ∨ x = row := by
  unfold HasEntry
  rw [names_named]
  by_cases hx : x = row <;> simp [hx]

theorem hasEntry_forget : (s.forget row).HasEntry x ↔ s.HasEntry x ∧ x ≠ row := by
  unfold HasEntry forget
  rw [Table.find?_erase]
  by_cases hx : x = row <;> simp [hx]

/-- Whoever waits for the row goes back to his lock. -/
theorem target_of_waitsFor (h : s.waitsFor t row = true) : ∃ l, s.target t row = (l, s) := by
  unfold waitsFor at h
  rcases hw : s.waiting.find? t with _ | ⟨row', l⟩
  · rw [hw] at h
    cases h
  · rw [hw] at h
    obtain rfl : row' = row := by simpa using h
    exact ⟨l, s.target_of_waiting hw⟩

/-- Everybody else goes by the entry. -/
theorem target_of_not_waitsFor (h : s.waitsFor t row = false) : s.target t row = s.named row := by
  unfold waitsFor at h
  rcases hw : s.waiting.find? t with _ | ⟨row', l⟩
  · exact s.target_of_not_waiting hw
  · rw [hw] at h
    rw [target, hw]
    exact if_neg (by simpa using h)

theorem names_request : (s.request t row).2.names = (s.target t row).2.names := by
  rw [s.request_eq (show s.target t row = ((s.target t row).1, (s.target t row).2) from rfl)]
  split
  · exact names_join ..
  · exact names_join ..

/-- Asking makes an entry, unless one waits for the row already. -/
theorem hasEntry_request (t : Ticket) (row x : Uuid) : (s.request t row).2.HasEntry x ↔
    s.HasEntry x ∨ x = row ∧ s.waitsFor t row = false := by
  have hentry : (s.request t row).2.HasEntry x ↔ (s.target t row).2.HasEntry x := by
    unfold HasEntry
    rw [names_request]
  rw [hentry]
  cases hw : s.waitsFor t row with
  | true =>
      obtain ⟨l, htarget⟩ := s.target_of_waitsFor hw
      simp [htarget]
  | false => simp [s.target_of_not_waitsFor hw, hasEntry_named]

/-- A lock that has just been made is free, so whoever has to wait has made no entry. -/
theorem hasEntry_of_waits (lines : LinesOK s held rowOf present)
    (h : (s.request t row).1 = none) : (s.request t row).2.HasEntry x ↔ s.HasEntry x := by
  rw [hasEntry_request]
  refine or_iff_left_of_imp ?_
  rintro ⟨rfl, hw⟩
  by_contra hno
  have hnone : s.names.find? x = none := by simpa [HasEntry] using hno
  have hfree : (s.named x).2.line (s.named x).1 = [] := by
    rw [line_named]
    exact lines.line_named_of_none hnone
  have htarget : s.target t x = ((s.named x).1, (s.named x).2) := s.target_of_not_waitsFor hw
  rw [s.request_eq htarget, if_pos ((s.named x).2.holds_join_of_nil t hfree)] at h
  cases h

end RowLocks

/-! ### Which entries there are after a move -/

namespace Store

/-- Whoever asks for the row is sent to the lock found under it: the table can be reached, and he
has not locked the row and does not wait for it. -/
def AsksAnew (s : Store) (t : Ticket) (x : MatchId) : Prop :=
  s.offline = false ∧ (s.transaction t).hasLocked x = false ∧ s.locks.waitsFor t x = false

/-- A call after which a row that is not there has an entry: a change of it, or a reading by the
transaction that has staged it. -/
def Leaves (x : MatchId) (s : Store) : Move → Prop
  | .call (.update t id _ _ _) _ => id = x ∧ s.AsksAnew t x
  | .call (.lock t id) _ => id = x ∧ s.AsksAnew t x ∧ (s.transaction t).stagedRow? x ≠ none
  | _ => False

/-- A call that looks for a row, does not find it, and forgets its entry. -/
def Forgets (x : MatchId) (s : Store) : Move → Prop
  | .call (.lock t id) m =>
    id = x ∧ ∃ s', perform m (.lock t id) s = .answer (.error (.notFound x)) s'
  | .call (.updateRow t id status allowed) m =>
    id = x ∧ s.row? x = none ∧ ∃ b s', perform m (.updateRow t id status allowed) s = .answer b s'
  | _ => False

/-- Every entry is that of a row. -/
def EntriesOfRows (s : Store) : Prop := ∀ x, s.locks.HasEntry x → s.Exists x

section Entries

variable (s : Store) {t : Ticket} {id x : MatchId} {held : Holdings} {rowOf : LockId → Uuid}
  {present : Uuid → Prop}

/-- An entry is forgotten if its row is not there. -/
theorem hasEntry_forgetLockIfAbsent : (s.forgetLockIfAbsent id).locks.HasEntry x ↔
    s.locks.HasEntry x ∧ (x = id → s.Exists x) := by
  unfold forgetLockIfAbsent
  by_cases hid : s.rows.contains id = true
  · rw [if_pos hid]
    exact (and_iff_left_of_imp fun _ hx => hx ▸ hid).symm
  · rw [if_neg hid]
    refine s.locks.hasEntry_forget.trans (and_congr_right fun _ => ?_)
    exact ⟨fun hne he => absurd he hne, fun h he => hid (he ▸ h he)⟩

/-- Letting a lock go does not forget it. -/
theorem names_unlockRow : (s.unlockRow t id).locks.names = s.locks.names :=
  LinesOK.names_leaveAll ..

/-- Whoever has not locked the row asks for its lock. -/
theorem lockRow_of_not_hasLocked (h : (s.transaction t).hasLocked id = false) :
    (s.lockRow t id).1 = (s.locks.request t id).1.isSome ∧
      (s.lockRow t id).2.locks = (s.locks.request t id).2 := by
  unfold lockRow
  rw [← Bool.not_eq_true] at h
  simp only [if_neg h]
  rcases s.locks.request t id with ⟨_ | l, locks⟩
  · exact ⟨rfl, rfl⟩
  · exact ⟨rfl, rfl⟩

theorem lockRow_of_hasLocked (h : (s.transaction t).hasLocked id = true) :
    s.lockRow t id = (true, s) := if_pos h

theorem hasEntry_lockRow : (s.lockRow t id).2.locks.HasEntry x ↔ s.locks.HasEntry x ∨
    x = id ∧ (s.transaction t).hasLocked id = false ∧ s.locks.waitsFor t id = false := by
  cases hlocked : (s.transaction t).hasLocked id with
  | true => simp [s.lockRow_of_hasLocked hlocked]
  | false => simp [(s.lockRow_of_not_hasLocked hlocked).2, RowLocks.hasEntry_request]

/-- Whoever has to wait for a lock has made no entry. -/
theorem hasEntry_lockRow_of_waits (lines : LinesOK s.locks held rowOf present)
    (h : (s.lockRow t id).1 = false) :
    (s.lockRow t id).2.locks.HasEntry x ↔ s.locks.HasEntry x := by
  cases hlocked : (s.transaction t).hasLocked id with
  | true => rw [s.lockRow_of_hasLocked hlocked]
  | false =>
      obtain ⟨hgot, hlocks⟩ := s.lockRow_of_not_hasLocked hlocked
      rw [hlocks]
      refine s.locks.hasEntry_of_waits lines ?_
      simpa [h] using hgot.symm

/-- Reading a row that is locked forgets its entry if there is no row to be seen. -/
theorem hasEntry_readLocked : (s.readLocked t id).2.locks.HasEntry x ↔
    s.locks.HasEntry x ∧ (x = id → s.current? t id ≠ none) := by
  unfold readLocked
  cases hcur : s.current? t id with
  | some r => simp
  | none =>
      have habsent : ¬ s.Exists id := by
        simp [Exists, (Option.or_eq_none_iff.mp hcur).2]
      have hfreed : (s.unlockRow t id).locks.HasEntry x ↔ s.locks.HasEntry x := by
        unfold RowLocks.HasEntry
        rw [names_unlockRow]
      refine (hasEntry_forgetLockIfAbsent _).trans (and_congr hfreed ?_)
      simp only [ne_eq, not_true_eq_false, imp_false]
      exact ⟨fun h he => habsent (he ▸ h he), fun h he => absurd he h⟩

theorem locks_stageUpdate (status : Status) (driver passenger : Bool) (now : Time.Instant) :
    (s.stageUpdate t id status driver passenger now).2.locks = s.locks := by
  unfold stageUpdate
  split
  · rfl
  · split <;> rfl

/-- A call that needs a row locked is refused, waits, or goes on. -/
theorem withLock_eq {α : Type} (t : Ticket) (id : MatchId)
    (f : Store → Except StoreError α × Store) :
    (s.offline = true ∧ s.locks.waitsFor t id = false ∧
      s.withLock t id f = .answer (.error .offline) s) ∨
    (s.locks.waitsFor t id = false → s.offline = false) ∧
      ((s.lockRow t id).1 = false ∧ s.withLock t id f = .wait (s.lockRow t id).2 ∨
        (s.lockRow t id).1 = true ∧ s.withLock t id f = replied (f (s.lockRow t id).2)) := by
  unfold withLock
  by_cases hoff : s.offline = true ∧ s.locks.waitsFor t id = false
  · exact .inl ⟨hoff.1, hoff.2, if_pos hoff⟩
  · rw [if_neg hoff]
    refine .inr ⟨fun hw => by simpa [hw] using hoff, ?_⟩
    rcases s.lockRow t id with ⟨_ | _, s₁⟩
    · exact .inl ⟨rfl, rfl⟩
    · exact .inr ⟨rfl, rfl⟩

/-- Whoever is not refused has made an entry if he has asked anew. -/
theorem hasEntry_lockRow_of_online (honline : s.locks.waitsFor t id = false → s.offline = false) :
    (s.lockRow t id).2.locks.HasEntry x ↔ id = x ∧ s.AsksAnew t x ∨ s.locks.HasEntry x := by
  rw [hasEntry_lockRow, or_comm]
  refine or_congr_left ⟨?_, ?_⟩
  · rintro ⟨rfl, hlocked, hw⟩
    exact ⟨rfl, honline hw, hlocked, hw⟩
  · rintro ⟨rfl, -, hlocked, hw⟩
    exact ⟨rfl, hlocked, hw⟩

/-- A change makes an entry, and forgets none. -/
theorem hasEntry_update (status : Status) (driver passenger : Bool) (m : Moment) :
    (perform m (.update t id status driver passenger) s).state.locks.HasEntry x ↔
      Leaves x s (.call (.update t id status driver passenger) m) ∨ s.locks.HasEntry x := by
  rw [perform_update]
  rcases s.withLock_eq t id fun s => (.ok (s.stageUpdate t id status driver passenger m.now).1,
      (s.stageUpdate t id status driver passenger m.now).2) with
    ⟨hoff, -, heq⟩ | ⟨honline, ⟨-, heq⟩ | ⟨-, heq⟩⟩
  · rw [heq]
    refine (or_iff_right ?_).symm
    rintro ⟨-, honline, -⟩
    rw [hoff] at honline
    cases honline
  · rw [heq]
    exact s.hasEntry_lockRow_of_online honline
  · rw [heq]
    show (Store.stageUpdate _ t id status driver passenger m.now).2.locks.HasEntry x ↔ _
    rw [locks_stageUpdate]
    exact s.hasEntry_lockRow_of_online honline

theorem current?_lockRow : (s.lockRow t id).2.current? t x = s.current? t x := by
  have hsame := SameData.lockRow s t id
  rw [current?_eq, current?_eq, hsame.staged, show Store.row? _ = s.row? from funext hsame.row]

/-- Once it has the lock, reading a row forgets the entry exactly if there is no row to be seen. -/
theorem forgets_lock_iff {m : Moment} (h : perform m (.lock t id) s
    = replied ((s.lockRow t id).2.readLocked t id)) :
    Forgets x s (.call (.lock t id) m) ↔ id = x ∧ s.current? t x = none := by
  refine and_congr_right ?_
  rintro rfl
  rw [h, readLocked, current?_lockRow]
  cases s.current? t id with
  | none => exact iff_of_true ⟨_, rfl⟩ rfl
  | some r => exact iff_of_false (by rintro ⟨s', h⟩; cases h) nofun

/-- Reading a row for writing makes an entry if there is something to read, and forgets the entry if
there is nothing. -/
theorem hasEntry_lock (lines : LinesOK s.locks held rowOf present) (hx : ¬ s.Exists x)
    (m : Moment) :
    (perform m (.lock t id) s).state.locks.HasEntry x ↔ Leaves x s (.call (.lock t id) m) ∨
      s.locks.HasEntry x ∧ ¬ Forgets x s (.call (.lock t id) m) := by
  have hleaves : Leaves x s (.call (.lock t id) m) ↔
      id = x ∧ s.AsksAnew t x ∧ s.current? t x ≠ none := by
    rw [current?, Option.not_isSome_iff_eq_none.mp hx, Option.or_none]
    rfl
  rw [hleaves]
  rcases s.withLock_eq t id fun s => s.readLocked t id with
    ⟨hoff, -, heq⟩ | ⟨honline, ⟨hwaits, heq⟩ | ⟨-, heq⟩⟩
  · have hstate : (perform m (.lock t id) s).state = s := congrArg Turn.state heq
    have hkept : ¬ Forgets x s (.call (.lock t id) m) := by
      rintro ⟨-, s', h⟩
      cases heq.symm.trans h
    rw [hstate]
    simp [hkept, AsksAnew, hoff]
  · have hstate : (perform m (.lock t id) s).state = (s.lockRow t id).2 := congrArg Turn.state heq
    have hkept : ¬ Forgets x s (.call (.lock t id) m) := by
      rintro ⟨-, s', h⟩
      cases heq.symm.trans h
    -- somebody else stands at the lock, so it has been made before
    have hmade := s.hasEntry_lockRow_of_waits (x := x) lines hwaits
    rw [hstate, hmade, and_iff_left hkept]
    refine ⟨.inr, ?_⟩
    rintro (⟨hid, hnew, -⟩ | h)
    · exact hmade.mp ((s.hasEntry_lockRow_of_online honline).mpr (.inl ⟨hid, hnew⟩))
    · exact h
  · have hstate : (perform m (.lock t id) s).state = ((s.lockRow t id).2.readLocked t id).2 :=
      congrArg Turn.state heq
    rw [forgets_lock_iff s heq, hstate, hasEntry_readLocked,
      s.hasEntry_lockRow_of_online honline, current?_lockRow]
    by_cases hid : id = x
    · subst hid
      simp only [true_and, forall_const, ne_eq]
      tauto
    · simp [hid, Ne.symm hid]

/-- Updating a row forgets its entry if it is not there. -/
theorem hasEntry_updatedRow (status : Status) (allowed : List Status) (now : Time.Instant) :
    (s.updateRow id status allowed now).2.locks.HasEntry x ↔
      s.locks.HasEntry x ∧ (x = id → s.Exists x) := by
  cases hr : s.row? id with
  | none =>
      rw [updateRow_of_none hr]
      exact s.hasEntry_forgetLockIfAbsent
  | some r =>
      have hexists : x = id → s.Exists x := by
        rintro rfl
        exact Option.isSome_of_mem hr
      by_cases hmem : r.status ∈ allowed
      · rw [updateRow_of_mem hr hmem, (sameRest_writeRow _ _).locks]
        exact (and_iff_left hexists).symm
      · rw [updateRow_of_not_mem hr hmem]
        exact (and_iff_left hexists).symm

/-- A row of a batch update makes no entry, and once it has the lock it forgets the entry. -/
theorem hasEntry_updateRow (lines : LinesOK s.locks held rowOf present) (hx : ¬ s.Exists x)
    (status : Status) (allowed : List Status) (m : Moment) :
    (perform m (.updateRow t id status allowed) s).state.locks.HasEntry x ↔
      s.locks.HasEntry x ∧ ¬ Forgets x s (.call (.updateRow t id status allowed) m) := by
  have hasked := s.locks.hasEntry_request t id x
  rcases hreq : s.locks.request t id with ⟨_ | l, locks⟩
  · have hmade := s.locks.hasEntry_of_waits (x := x) lines (congrArg Prod.fst hreq)
    rw [hreq] at hmade
    have heq : perform m (.updateRow t id status allowed) s = .wait { s with locks } :=
      s.updateLocked_waits hreq
    have hkept : ¬ Forgets x s (.call (.updateRow t id status allowed) m) := by
      rintro ⟨-, -, b, s', h⟩
      cases heq.symm.trans h
    rw [heq, and_iff_left hkept]
    exact hmade
  · rw [hreq] at hasked
    have heq : perform m (.updateRow t id status allowed) s = .answer _ _ :=
      s.updateLocked_granted hreq
    have hforgets : Forgets x s (.call (.updateRow t id status allowed) m) ↔ id = x :=
      and_iff_left ⟨Option.not_isSome_iff_eq_none.mp hx, _, _, heq⟩
    have hstate : (perform m (.updateRow t id status allowed) s).state.locks.HasEntry x ↔
        (updateRow { s with locks } id status allowed m.now).2.locks.HasEntry x :=
      iff_of_eq (congrArg (fun turn => turn.state.locks.HasEntry x) heq)
    have habsent : ¬ Exists { s with locks } x := hx
    rw [hstate, hforgets, hasEntry_updatedRow, imp_iff_not habsent, hasked, eq_comm (a := id)]
    refine and_congr_left fun hne => or_iff_left fun h => hne h.1

/-- A commit makes no entry and forgets none. -/
theorem names_commit (t : Ticket) : (s.commit t).2.locks.names = s.locks.names := by
  have hclaim := s.sameRest_claimAll [] ((s.transaction t).staged.filterMap Staged.inserted?)
  unfold commit claimStaged
  split
  · exact StagedOK.names_endTransaction s t
  · rcases h : claimAll [] _ s with ⟨_ | _, s₁⟩
    · rw [h] at hclaim
      show (s₁.endTransaction t).locks.names = _
      rw [StagedOK.names_endTransaction, hclaim.locks]
    · rw [h] at hclaim
      show ((s₁.writeStaged t).endTransaction t).locks.names = _
      have hwritten := SameRest.foldl sameRest_writeRow ((s₁.transaction t).staged.map Staged.row) s₁
      rw [StagedOK.names_endTransaction, writeStaged, hwritten.locks, hclaim.locks]

/-- **What a move does to the entry of a row that is not there.** -/
theorem hasEntry_after (lines : LinesOK s.locks held rowOf present) (hx : ¬ s.Exists x)
    (a : Move) :
    (s.after a).locks.HasEntry x ↔ Leaves x s a ∨ s.locks.HasEntry x ∧ ¬ Forgets x s a := by
  -- most moves keep the entries as they are
  have hkept : ∀ {a}, (s.after a).locks.names = s.locks.names → ¬ Leaves x s a → ¬ Forgets x s a →
      ((s.after a).locks.HasEntry x ↔ Leaves x s a ∨ s.locks.HasEntry x ∧ ¬ Forgets x s a) := by
    intro a hnames hleaves hforgets
    rw [or_iff_right hleaves, and_iff_left hforgets, RowLocks.HasEntry, hnames]
    rfl
  cases a with
  | withdraw t => exact hkept (LinesOK.names_giveUp ..) not_false not_false
  | outage offline => exact hkept rfl not_false not_false
  | call c m =>
      cases c with
      | lock t id => exact s.hasEntry_lock lines hx m
      | update t id status driver passenger =>
          refine (s.hasEntry_update status driver passenger m).trans ?_
          exact or_congr_right (and_iff_left not_false).symm
      | updateRow t id status allowed =>
          exact (s.hasEntry_updateRow lines hx status allowed m).trans (or_iff_right not_false).symm
      | commit t => exact hkept (s.names_commit t) not_false not_false
      | rollback t => exact hkept (StagedOK.names_endTransaction s t) not_false not_false
      | find driver passenger => exact hkept rfl not_false not_false
      | get id => exact hkept rfl not_false not_false
      | list actor role => exact hkept rfl not_false not_false
      | begin =>
          refine hkept ?_ not_false not_false
          rw [after, perform]
          split <;> rfl
      | openBatch =>
          refine hkept ?_ not_false not_false
          rw [after, perform]
          split <;> rfl
      | insert t d =>
          refine hkept ?_ not_false not_false
          rw [after, perform]
          split
          · rfl
          · unfold replied stageInsert
            simp only
            split <;> rfl

end Entries

/-! ### What is left behind -/

variable {moves : List Move} {x : MatchId}

/-- To ask for the lock of a row is not to write one. -/
theorem row?_withLock {α : Type} (s : Store) {t : Ticket} {id : MatchId}
    {f : Store → Except StoreError α × Store} (hf : ∀ s, (f s).2.row? = s.row?) :
    (s.withLock t id f).state.row? = s.row? := by
  have hlock : (s.lockRow t id).2.row? = s.row? := funext (SameData.lockRow s t id).row
  rcases s.withLock_eq t id f with ⟨-, -, heq⟩ | ⟨-, ⟨-, heq⟩ | ⟨-, heq⟩⟩
  · rw [heq]
    rfl
  · rw [heq]
    exact hlock
  · rw [heq]
    exact (hf _).trans hlock

/-- To leave an entry is not to enter a row. -/
theorem Leaves.row?_after {s : Store} {a : Move} (h : Leaves x s a) :
    (s.after a).row? = s.row? := by
  cases a with
  | withdraw t => rfl
  | outage offline => rfl
  | call c m =>
      cases c with
      | lock t id => exact s.row?_withLock fun s => funext (SameData.readLocked s t id).row
      | update t id status driver passenger =>
          refine s.row?_withLock fun s => ?_
          show (s.stageUpdate t id status driver passenger m.now).2.row? = s.row?
          unfold stageUpdate
          split
          · rfl
          · split <;> rfl
      | _ => cases h

/-- Entries stay those of rows if none is left for a row that is not there, and no row is lost. -/
theorem EntriesOfRows.after {s : Store} {a : Move} (h : s.EntriesOfRows) {held : Holdings}
    {rowOf : LockId → Uuid} {present : Uuid → Prop} (lines : LinesOK s.locks held rowOf present)
    (hrows : ∀ {x}, s.Exists x → (s.after a).Exists x) (hleft : ∀ x, Leaves x s a → s.Exists x) :
    (s.after a).EntriesOfRows := by
  intro x hentry
  by_cases hx : s.Exists x
  · exact hrows hx
  · rcases (s.hasEntry_after lines hx a).mp hentry with hleaves | ⟨hold, -⟩
    · exact absurd (hleft x hleaves) hx
    · exact absurd (h x hold) hx

/-- They stay so just then. -/
theorem EntriesOfRows.after_iff {s : Store} {a : Move} (h : s.EntriesOfRows) (hqueued : Queued s)
    (hseen : Seen s) (hadm : s.Allows a) :
    (s.after a).EntriesOfRows ↔ ∀ x, Leaves x s a → s.Exists x := by
  obtain ⟨rowOf, lines⟩ := hqueued.linesOK
  refine ⟨fun h' x hleaves => ?_, h.after lines (hseen.exists_after hadm)⟩
  by_contra hx
  have hx' := h' x ((s.hasEntry_after lines hx a).mpr (.inl hleaves))
  rw [Exists, hleaves.row?_after] at hx'
  exact hx hx'

/-- A row that is not there has an entry if one has been left and not been forgotten since. -/
theorem hasEntry_iff_since (hallows : Run.Along after Allows {} moves)
    (hx : ¬ (moves.foldl after {}).Exists x) : (moves.foldl after {}).locks.HasEntry x ↔
      Run.Since after (Leaves x) (Forgets x) {} moves := by
  induction moves using List.reverseRecOn with
  | nil => exact iff_of_false Bool.false_ne_true Run.not_since_nil
  | append_singleton moves a ih =>
      obtain ⟨hbefore, ha, -⟩ := Run.along_append.mp hallows
      obtain ⟨hqueued, hseen⟩ := queued_seen_of_moves hbefore _ (Run.foldl_mem_states _ moves)
      obtain ⟨rowOf, lines⟩ := hqueued.linesOK
      rw [List.foldl_append] at hx ⊢
      have hx' : ¬ (moves.foldl after {}).Exists x := fun h => hx (hseen.exists_after ha h)
      refine (hasEntry_after _ lines hx' a).trans ?_
      rw [ih hbefore hx', Run.since_concat]

/-- Every entry is that of a row throughout just the runs that leave none for a row that is not
there. -/
theorem states_entriesOfRows_iff (hallows : Run.Along after Allows {} moves) :
    (∀ s ∈ Run.states after {} moves, s.EntriesOfRows) ↔
      Run.Along after (fun s a => ∀ x, Leaves x s a → s.Exists x) {} moves :=
  Run.states_iff (I := fun s => Queued s ∧ Seen s)
    (fun h ha => ⟨h.1.after h.2 ha, h.2.allowed ha⟩)
    (fun h ha hentries => hentries.after_iff h.1 h.2 ha) ⟨Queued.empty, Seen.empty⟩
    (fun _ h => by cases h) hallows

/-- **A row that is not there has an entry just if one has been left and not been forgotten since.**
So every entry is that of a row just if each of the rows for which one has been left, and not been
forgotten since, is there; and it is so all the time just if none is ever left for a row that is not
there: nothing is changed that is not in the table, and no transaction locks what it has entered. -/
theorem entries_exact_iff (hallows : Run.Along after Allows {} moves) :
    (∀ x, ¬ (moves.foldl after {}).Exists x → ((moves.foldl after {}).locks.HasEntry x ↔
      Run.Since after (Leaves x) (Forgets x) {} moves)) ∧
    ((moves.foldl after {}).EntriesOfRows ↔
      ∀ x, Run.Since after (Leaves x) (Forgets x) {} moves → (moves.foldl after {}).Exists x) ∧
    ((∀ s ∈ Run.states after {} moves, s.EntriesOfRows) ↔
      Run.Along after (fun s a => ∀ x, Leaves x s a → s.Exists x) {} moves) := by
  have hsince := fun x => hasEntry_iff_since (x := x) hallows
  refine ⟨hsince, ⟨fun h x hx => ?_, fun h x hx => ?_⟩, states_entriesOfRows_iff hallows⟩
  · by_contra habsent
    exact habsent (h x ((hsince x habsent).mpr hx))
  · by_contra habsent
    exact habsent (h x ((hsince x habsent).mp hx))

/-! ### A run that leaves two entries

One transaction changes a row that is not there, another one enters a row and locks it, and both are
dropped.  Then a batch update looks for the first row, which forgets its entry.  That of the second
one stays.
-/

/-- The moves by which one entry is left: nothing is changed, and nothing is forgotten. -/
def changingInVain : List Move :=
  let m := momentOf Uuid.nil
  [.call .begin m, .call (.update 0 (Uuid.fresh 1) .pending false false) m, .call (.rollback 0) m]

/-- The moves by which another entry is left, and the first one is forgotten. -/
def straying : List Move :=
  let m := momentOf Uuid.nil
  changingInVain ++
    [.call .begin m, .call (.insert 1 someDraft) m, .call (.lock 1 Uuid.nil) m,
     .call (.rollback 1) m,
     .call .openBatch m, .call (.updateRow 2 (Uuid.fresh 1) .rejected Status.openStates) m]

theorem entries_exact_straying : Run.Along after Allows {} straying ∧
    Run.Since after (Leaves Uuid.nil) (Forgets Uuid.nil) {} straying ∧
    ¬ Run.Since after (Leaves (Uuid.fresh 1)) (Forgets (Uuid.fresh 1)) {} straying := by
  have hallows : Run.Along after Allows {} straying := by decide +kernel
  have hexact := (entries_exact_iff hallows).1
  exact ⟨hallows, (hexact Uuid.nil (by decide +kernel)).mp (by decide +kernel),
    (hexact (Uuid.fresh 1) (by decide +kernel)).not.mp (by decide +kernel)⟩

/-- An entry may be left although no transaction is open any more. -/
theorem exists_entry_left : ∃ moves, Run.Along after Allows {} moves ∧
    ¬ ∀ s ∈ Run.states after {} moves, (∀ t, ¬ s.IsOpen t) → s.EntriesOfRows := by
  refine ⟨changingInVain, by decide +kernel, fun h => ?_⟩
  have hnobody : ∀ t, ¬ (changingInVain.foldl after {}).IsOpen t := by
    have hnone : (changingInVain.foldl after {}).transactions.entries.isEmpty = true := by
      decide +kernel
    intro t ht
    rw [IsOpen, Table.find?, List.isEmpty_iff.mp hnone] at ht
    cases ht
  have habsent : ¬ (changingInVain.foldl after {}).Exists (Uuid.fresh 1) := by decide +kernel
  exact habsent (h _ (Run.foldl_mem_states _ changingInVain) hnobody _ (by decide +kernel))

end Store
end Dispatch
