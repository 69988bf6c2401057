/-
What is in order whatever anybody does.

Batch updates may give rows any status here, and a row may be entered while somebody stands at a lock
of it that has been forgotten, so that locks need not be exclusive.  What remains is that everybody
stands in the lines of the locks that he holds or waits at, and nowhere else (`Queued`), and that what
transactions have staged could be written (`Seen`).
-/
import Dispatch.Proofs.Store.Journal
import Dispatch.Proofs.Store.Seen

namespace Dispatch

/-- The lines are in order.  Nothing is said about the rows. -/
def Queued (s : Store) : Prop := LocksOK { s with rows := ∅ }

namespace Store

variable {s : Store} {t : Ticket} {id : MatchId}

/-- Asking for a lock is no matter of the rows. -/
theorem lockRow_rows (s : Store) (rows : Table MatchId Proposal) (t : Ticket) (id : MatchId) :
    lockRow { s with rows } t id = ((s.lockRow t id).1, { (s.lockRow t id).2 with rows }) := by
  unfold lockRow
  by_cases hhas : (s.transaction t).hasLocked id = true
  · have hhas' : (transaction { s with rows } t).hasLocked id = true := hhas
    simp only [if_pos hhas, if_pos hhas']
  · have hhas' : ¬ (transaction { s with rows } t).hasLocked id = true := hhas
    simp only [if_neg hhas, if_neg hhas']
    rcases hreq : s.locks.request t id with ⟨_ | l, locks⟩ <;> rfl

theorem isOpen_lockRow (h : s.IsOpen t) : (s.lockRow t id).2.IsOpen t := by
  unfold lockRow
  simp only
  split
  · exact h
  · rcases hreq : s.locks.request t id with ⟨_ | l, locks⟩
    · exact h
    · exact (isOpen_setTransaction _ _ _ _).mpr (.inl rfl)

end Store

namespace Queued

variable {s s' : Store} {t : Ticket} {id : MatchId}

open Store

theorem empty : Queued {} := LocksOK.empty

theorem linesOK (h : Queued s) : ∃ rowOf, LinesOK s.locks s.held rowOf fun _ => False := by
  obtain ⟨rowOf, lines⟩ := h.1
  exact ⟨rowOf, lines.enter fun _ hx => hx.elim⟩

theorem ofLines {rowOf : LockId → Uuid} (h : Queued s) {locks : RowLocks}
    (hlines : LinesOK locks s.held rowOf fun _ => False)
    (hlt : ∀ {u w}, locks.waiting.find? u = some w → u < s.nextTicket) :
    Queued { s with locks } :=
  ⟨⟨rowOf, hlines.enter fun _ hx => absurd hx Bool.false_ne_true⟩, h.open_lt, hlt⟩

theorem ofSameRest (h : Queued s) (hrest : SameRest s s') : Queued s' := by
  refine LocksOK.congr h hrest.locks (fun t => ?_) (fun _ => Iff.rfl) (fun t ht => .inl ?_) ?_
  · exact congrArg Transaction.held (hrest.transaction t)
  · unfold Store.IsOpen at ht ⊢
    rw [← hrest.transactions]
    exact ht
  · exact Nat.le_of_eq hrest.nextTicket.symm

/-- Asking for a lock leaves the lines in order, and whoever gets it waits no longer. -/
theorem lockRow (h : Queued s) (ht : s.IsOpen t) (hask : s.MayAsk t id) :
    Queued (s.lockRow t id).2 ∧
      ((s.lockRow t id).1 = true → (s.lockRow t id).2.locks.waiting.find? t = none) := by
  have hrows := lockRow_rows s ∅ t id
  have hstate : (Store.lockRow { s with rows := ∅ } t id).2
      = { (s.lockRow t id).2 with rows := ∅ } := congrArg Prod.snd hrows
  have hres : (Store.lockRow { s with rows := ∅ } t id).1 = (s.lockRow t id).1 := by rw [hrows]
  have hlocks : (Store.lockRow { s with rows := ∅ } t id).2.locks = (s.lockRow t id).2.locks := by
    rw [hstate]
  unfold Queued
  rw [← hstate, ← hres, ← hlocks]
  rcases LocksOK.lockRow_cases h ht hask with ⟨l, hlock, hmem⟩ | ⟨l, locks, hlock, hnone, -, hok⟩ |
    ⟨l, locks, hlock, -, -, -, hok⟩
  · rw [hlock]
    exact ⟨h, fun _ => LocksOK.waiting_eq_none_of_held h hask hmem⟩
  · rw [hlock]
    exact ⟨hok, fun _ => hnone⟩
  · rw [hlock]
    exact ⟨hok, fun hfalse => by cases hfalse⟩

theorem forgetLockIfAbsent (h : Queued s) (id : MatchId) : Queued (s.forgetLockIfAbsent id) := by
  unfold Store.forgetLockIfAbsent
  split
  · exact h
  · exact LocksOK.forgetLockIfAbsent h id

theorem readLocked (h : Queued s) (ht : s.IsOpen t) : Queued (s.readLocked t id).2 := by
  unfold Store.readLocked
  split
  · exact h
  · have hfreed : Queued (s.unlockRow t id) := LocksOK.unlockRow h ht id
    exact hfreed.forgetLockIfAbsent id

theorem stageUpdate (h : Queued s) (ht : s.IsOpen t) (status : Status) (driver passenger : Bool)
    (now : Time.Instant) : Queued (s.stageUpdate t id status driver passenger now).2 := by
  unfold Store.stageUpdate
  split
  · exact h
  · split
    · exact h
    · exact LocksOK.stage h ht _

theorem withLock {α : Type} (h : Queued s) (ht : s.IsOpen t) (hask : s.MayAsk t id)
    {f : Store → Except StoreError α × Store}
    (hf : ∀ {s'}, Queued s' → s'.IsOpen t → Queued (f s').2) : Queued (s.withLock t id f).state := by
  unfold Store.withLock
  split
  · exact h
  · have hlock := (h.lockRow ht hask).1
    have hopen : (s.lockRow t id).2.IsOpen t := isOpen_lockRow ht
    rcases hres : s.lockRow t id with ⟨_ | _, s₁⟩
    · rw [hres] at hlock
      exact hlock
    · rw [hres] at hlock hopen
      exact hf hlock hopen

theorem updateRow (h : Queued s) (hopen : ¬ s.IsOpen t) (hlt : t < s.nextTicket)
    (hask : s.MayAsk t id) (m : Moment) (status : Status) (allowed : List Status) :
    Queued (Store.perform m (.updateRow t id status allowed) s).state := by
  have hnone : s.held t = [] := s.held_of_not_isOpen hopen
  obtain ⟨rowOf, lines⟩ := h.linesOK
  have hasked := lines.request hask (by rw [hnone]; simp)
  have hwaiting : ∀ {u w}, (s.locks.request t id).2.waiting.find? u = some w → u < s.nextTicket :=
    LocksOK.waiting_lt_request h hlt id
  rw [Store.perform]
  rcases hreq : s.locks.request t id with ⟨_ | l, locks⟩
  · rw [hreq] at hasked hwaiting
    obtain ⟨-, rowOf', lines'⟩ := hasked
    rw [s.updateLocked_waits hreq]
    exact h.ofLines lines' hwaiting
  rw [hreq] at hasked hwaiting
  obtain ⟨-, rowOf', lines'⟩ := hasked
  rw [hnone, List.nil_append] at lines'
  rw [s.updateLocked_granted hreq]
  -- the lock is let go again, whether or not it has been forgotten
  have hkept : Queued { s with locks := locks.leave l t } :=
    h.ofLines (lines'.leave_only hnone) hwaiting
  have hforgotten : Queued { s with locks := (locks.forget id).leave l t } :=
    h.ofLines ((lines'.forget (not_false : ¬ (fun _ => False) id)).leave_only hnone) hwaiting
  cases hr : s.row? id with
  | none =>
      rw [updateRow_of_none (show row? { s with locks } id = none from hr), Store.forgetLockIfAbsent]
      split
      · exact hkept
      · exact hforgotten
  | some r =>
      by_cases hallowed : r.status ∈ allowed
      · rw [updateRow_of_mem (show row? { s with locks } id = some r from hr) hallowed]
        refine hkept.ofSameRest ?_
        unfold writeRow releasePair
        split <;> exact ⟨rfl, rfl, rfl, rfl⟩
      · rw [updateRow_of_not_mem (show row? { s with locks } id = some r from hr) hallowed]
        exact hkept

theorem commit (h : Queued s) (hs : Seen s) (t : Ticket) : Queued (s.commit t).2 := by
  rcases commit_shape (fun r hr => (hs.new_absent (t := t) hr).1) (hs.new_nodup t) with
    ⟨-, hres⟩ | ⟨-, ⟨-, r, -, hres⟩ | ⟨-, hres⟩⟩
  · rw [hres]
    exact LocksOK.endTransaction h t
  · rw [hres]
    exact LocksOK.endTransaction h t
  · rw [hres]
    exact LocksOK.endTransaction (h.ofSameRest (s.sameRest_written t)) t

theorem perform (h : Queued s) (hs : Seen s) {c : StoreCall} {m : Moment}
    (hadm : s.AllowsCall m c) : Queued (Store.perform m c s).state := by
  cases c with
  | begin =>
      rw [Store.perform]
      split
      · exact h
      · exact LocksOK.beginTransaction h
  | find driver passenger => exact h
  | get id => exact h
  | list actor role => exact h
  | insert t d =>
      rw [Store.perform]
      split
      · exact h
      · unfold replied stageInsert
        simp only
        split
        · exact h
        · exact LocksOK.stage h hadm.1 _
  | lock t id => exact h.withLock hadm.1 hadm.2 fun h' ht => h'.readLocked ht
  | update t id status driver passenger =>
      exact h.withLock hadm.1 hadm.2 fun h' ht => h'.stageUpdate ht status driver passenger m.now
  | commit t => exact h.commit hs t
  | rollback t => exact LocksOK.endTransaction h t
  | openBatch =>
      rw [Store.perform]
      split
      · exact h
      · exact LocksOK.openBatch h
  | updateRow t id status allowed => exact h.updateRow hadm.1 hadm.2.1 hadm.2.2 m status allowed

/-- **The lines stay in order whatever is done.** -/
theorem after (h : Queued s) (hs : Seen s) {a : Move} (hadm : s.Allows a) :
    Queued (s.after a) := by
  cases a with
  | call c m => exact h.perform hs hadm
  | withdraw t => exact LocksOK.giveUp h t
  | outage offline => exact ⟨h.lines, h.open_lt, h.waiting_lt⟩

end Queued

namespace Seen

variable {s : Store}

open Store

/-- A move does what an admitted one can do, or it is a batch update that writes a row again, with
whatever status. -/
theorem effect_or_rewrites (hs : Seen s) {a : Move} (hadm : s.Allows a) :
    Effect s (s.after a) ∨ ∃ b r, s.row? r.id = some b ∧ b.pair = r.pair ∧
      (∀ x, (s.after a).row? x = (s.writeRow r).row? x) ∧
      (∀ p, (s.after a).openPairs.find? p = (s.writeRow r).openPairs.find? p) ∧
      ∀ u, ((s.after a).transaction u).staged = (s.transaction u).staged := by
  cases a with
  | withdraw t => exact .inl (hs.effect (a := .withdraw t) trivial)
  | outage offline => exact .inl (hs.effect (a := .outage offline) trivial)
  | call c m =>
      cases c with
      | updateRow t id status allowed =>
          have hstate : (Store.perform m (.updateRow t id status allowed) s).state = _ := rfl
          rcases updateRow_writes hstate with h | ⟨b, hb, hrow, hpair, hstaged⟩
          · exact .inl h.effect
          · refine .inr ⟨b, { b with status, updatedAt := m.now }, ?_, rfl, hrow, hpair, hstaged⟩
            exact (congrArg s.row? (hs.id_eq hb)).trans hb
      | begin => exact .inl (hs.effect (a := .call .begin m) hadm)
      | find driver passenger =>
          exact .inl (hs.effect (a := .call (.find driver passenger) m) hadm)
      | get id => exact .inl (hs.effect (a := .call (.get id) m) hadm)
      | list actor role => exact .inl (hs.effect (a := .call (.list actor role) m) hadm)
      | insert t d => exact .inl (hs.effect (a := .call (.insert t d) m) hadm)
      | lock t id => exact .inl (hs.effect (a := .call (.lock t id) m) hadm)
      | update t id status driver passenger =>
          exact .inl (hs.effect (a := .call (.update t id status driver passenger) m) hadm)
      | commit t => exact .inl (hs.effect (a := .call (.commit t) m) hadm)
      | rollback t => exact .inl (hs.effect (a := .call (.rollback t) m) hadm)
      | openBatch => exact .inl (hs.effect (a := .call .openBatch m) hadm)

/-- **What transactions have seen could still be**, whatever status batch updates give. -/
theorem allowed (hs : Seen s) {a : Move} (hadm : s.Allows a) : Seen (s.after a) := by
  rcases hs.effect_or_rewrites hadm with h | ⟨b, r, hb, hbr, hrow, -, hstaged⟩
  · exact hs.of_effect h
  · exact hs.rewrites hb hbr (fun x => by rw [hrow, row?_writeRow]) hstaged

/-- A row that is in the table stays there. -/
theorem exists_after (hs : Seen s) {a : Move} (hadm : s.Allows a) {x : MatchId}
    (hx : s.Exists x) : (s.after a).Exists x := by
  obtain ⟨b, hb⟩ := Option.isSome_iff_exists.mp hx
  have hwritten : ∀ r, ((s.writeRow r).row? x).isSome = true := by
    intro r
    rw [row?_writeRow, Function.update_apply]
    split
    · rfl
    · exact hx
  unfold Store.Exists
  rcases hs.effect_or_rewrites hadm with he | ⟨-, r, -, -, hrow, -⟩
  · cases he with
    | keeps hrow hpair hstaged =>
        rw [hrow]
        exact hx
    | stages t c hc hrow hpair hstaged =>
        rw [hrow]
        exact hx
    | commits t hfree hrow hpair hstaged =>
        obtain ⟨r, hr, -⟩ := hs.pair_of_written t hb
        rw [hrow, hr]
        rfl
    | closes b r hb hbr hclosed hrow hpair hstaged =>
        rw [hrow]
        exact hwritten r
  · rw [hrow]
    exact hwritten r

end Seen

/-- What is in order in every table that calls lead to. -/
theorem Store.queued_seen_of_moves {moves : List Store.Move}
    (hallows : Run.Along Store.after Store.Allows {} moves) :
    ∀ s ∈ Run.states Store.after {} moves, Queued s ∧ Seen s :=
  Run.invariant (fun h ha => ⟨h.1.after h.2 ha, h.2.allowed ha⟩) ⟨Queued.empty, Seen.empty⟩ hallows

end Dispatch
