/-
A table for one.

A table is `Vacant` when nothing is under way with any ticket, nobody stands in a line for a lock,
and every row stands under its own identifier.  It is `Sole` to one party when the same is true of
all others: his is the only transaction, and a line is empty unless he holds the lock.  In such a
table nobody is ever made to wait, and when his transaction has ended it is vacant again.

Nothing is asked of the pairs, so the table may be one in which the pairs and the rows disagree.
What the calls do to both is said by `contents`: the rows and the pairs of a table, with all that
is under way left out.  Only commits and batch updates change them.
-/
import Dispatch.Proofs.Store.Queues

namespace Dispatch

/-! ### Locks for one -/

namespace RowLocks

/-- The locks serve one party: he alone stands in lines, at locks of his, and nobody waits. -/
structure Serves (ls : RowLocks) (t : Ticket) (mine : List LockId) : Prop where
  line : ∀ l, ls.line l = [] ∨ ls.line l = [t] ∧ l ∈ mine
  still : ∀ u, ls.waiting.find? u = none

namespace Serves

variable {ls : RowLocks} {t : Ticket} {mine : List LockId}

/-- Whoever is served gets the lock that he asks for. -/
theorem request (h : ls.Serves t mine) (x : Uuid) :
    ∃ l ls', ls.request t x = (some l, ls') ∧ ls'.Serves t (mine ++ [l]) := by
  obtain ⟨l, ls₁, hn⟩ : ∃ l ls₁, ls.named x = (l, ls₁) := ⟨_, _, rfl⟩
  have hline₁ : ∀ l', ls₁.line l' = ls.line l' := fun l' => by
    have := ls.line_named x l'
    rwa [hn] at this
  have hwait₁ : ls₁.waiting = ls.waiting := by
    have := ls.waiting_named x
    rwa [hn] at this
  have hline : ∀ l', (ls₁.join l t).line l' = if l' = l then [t] else ls.line l' := by
    intro l'
    rw [line_join, hline₁, hline₁]
    by_cases hl : l' = l
    · subst hl
      rcases h.line l' with h0 | ⟨h1, -⟩
      · simp [h0]
      · simp [h1]
    · simp [hl]
  have hholds : (ls₁.join l t).holds l t = true := by
    rw [holds, hline, if_pos rfl]
    simp
  refine ⟨l, (ls₁.join l t).stopWaiting t, ?_, fun l' => ?_, fun u => ?_⟩
  · rw [ls.request_eq ((ls.target_of_not_waiting (h.still t)).trans hn), if_pos hholds]
  · show (ls₁.join l t).line l' = [] ∨ (ls₁.join l t).line l' = [t] ∧ _
    rw [hline]
    by_cases hl : l' = l
    · simp [hl]
    · rw [if_neg hl]
      exact (h.line l').imp_right fun h1 => ⟨h1.1, List.mem_append_left _ h1.2⟩
  · show ((ls₁.join l t).waiting.erase t).find? u = none
    rw [Table.find?_erase, waiting_join, hwait₁, h.still]
    simp

theorem mono (h : ls.Serves t mine) {mine' : List LockId} (hsub : ∀ l ∈ mine, l ∈ mine') :
    ls.Serves t mine' :=
  ⟨fun l => (h.line l).imp_right fun h1 => ⟨h1.1, hsub l h1.2⟩, h.still⟩

/-- Whoever is served may leave a line. -/
theorem leave (h : ls.Serves t mine) (l : LockId) :
    (ls.leave l t).Serves t (mine.filter fun l' => l' ≠ l) := by
  refine ⟨fun l' => ?_, h.still⟩
  rw [line_leave]
  by_cases hl : l' = l
  · rw [if_pos hl]
    rcases h.line l with h0 | ⟨h1, -⟩
    · simp [h0]
    · simp [h1]
  · rw [if_neg hl]
    exact (h.line l').imp_right fun h1 => ⟨h1.1, by simpa [hl] using h1.2⟩

theorem leaveAll (h : ls.Serves t mine) (hs : List (Uuid × LockId)) (left : List LockId)
    (hleft : ∀ l ∈ mine, l ∈ hs.map Prod.snd ∨ l ∈ left) :
    (hs.foldl (fun ls h => ls.leave h.2 t) ls).Serves t left := by
  induction hs generalizing ls mine with
  | nil => exact h.mono fun l hl => (hleft l hl).resolve_left List.not_mem_nil
  | cons w rest ih =>
      refine ih (h.leave w.2) fun l hl => ?_
      obtain ⟨hmem, hne⟩ := List.mem_filter.mp hl
      refine (hleft l hmem).imp_left fun hin => ?_
      rw [List.map_cons, List.mem_cons] at hin
      exact hin.resolve_left (by simpa using hne)

/-- Whoever waits nowhere has nothing to give up. -/
theorem giveUp (h : ls.Serves t mine) : ls.giveUp t = ls := by
  rw [RowLocks.giveUp, h.still]

end Serves
end RowLocks

/-! ### What is in a table -/

namespace Store

/-- The rows and the pairs of a table, with nothing under way. -/
def contents (s : Store) : Store := { rows := s.rows, openPairs := s.openPairs }

section Contents

variable (s : Store) (r : Proposal)

@[simp] theorem row?_contents : s.contents.row? = s.row? := rfl

theorem contents_eq_iff {s s' : Store} :
    s'.contents = s.contents ↔ s'.rows = s.rows ∧ s'.openPairs = s.openPairs := by
  constructor
  · intro h
    have hrows : s'.contents.rows = s.contents.rows := by rw [h]
    have hpairs : s'.contents.openPairs = s.contents.openPairs := by rw [h]
    exact ⟨hrows, hpairs⟩
  · rintro ⟨hrows, hpairs⟩
    rw [contents, contents, hrows, hpairs]

theorem contents_forgetLockIfAbsent (id : MatchId) :
    (s.forgetLockIfAbsent id).contents = s.contents := by
  unfold forgetLockIfAbsent
  split <;> rfl

theorem rows_writeRow : (s.writeRow r).rows = s.rows.insert r.id r := by
  unfold writeRow releasePair
  split <;> rfl

theorem openPairs_writeRow : (s.writeRow r).openPairs =
    if r.status.isTerminal ∧ s.openPairs.find? r.pair = some r.id then s.openPairs.erase r.pair
    else s.openPairs := by
  unfold writeRow releasePair
  split <;> rfl

theorem contents_writeRow : (s.writeRow r).contents = s.contents.writeRow r := by
  unfold writeRow releasePair
  by_cases h : r.status.isTerminal ∧ s.openPairs.find? r.pair = some r.id
  · rw [if_pos h, if_pos (show _ ∧ s.contents.openPairs.find? r.pair = _ from h)]
    rfl
  · rw [if_neg h, if_neg (show ¬ (_ ∧ s.contents.openPairs.find? r.pair = _) from h)]
    rfl

/-- To write a row that has just been entered, and is open, changes nothing. -/
theorem writeRow_claimPair (h : r.isOpen = true) :
    (s.claimPair r).writeRow r = s.claimPair r := by
  have hopen : ¬ r.status.isTerminal = true := by simpa [Proposal.isOpen] using h
  have hrelease : (s.claimPair r).releasePair r = s.claimPair r := if_neg fun hc => hopen hc.1
  unfold writeRow
  rw [hrelease]
  show { s.claimPair r with rows := (s.rows.insert r.id r).insert r.id r } = s.claimPair r
  rw [Table.insert_insert_self]
  rfl

end Contents

/-! ### Who is at work -/

/-- Every row stands under its own identifier. -/
def Filed (s : Store) : Prop := ∀ id r, s.row? id = some r → r.id = id

/-- Nobody is at work: nothing is under way with any ticket, and no lock is held. -/
structure Vacant (s : Store) : Prop where
  idle : ∀ t, s.Idle t
  free : ∀ l, s.locks.line l = []
  filed : s.Filed

/-- One party is at work with a transaction that has staged some changes, and nobody else. -/
structure Sole (s : Store) (t : Ticket) (changes : List Staged) : Prop where
  staged : (s.transaction t).staged = changes
  alone : s.Alone t
  locks : s.locks.Serves t ((s.held t).map Prod.snd)
  filed : s.Filed

variable {s : Store} {t : Ticket} {changes : List Staged} {id : MatchId} {r : Proposal}

theorem Filed.update {s' : Store} (h : s.Filed)
    (hrow : s'.row? = Function.update s.row? r.id (some r)) : s'.Filed := by
  intro id r' hr'
  rw [hrow, Function.update_apply] at hr'
  split at hr'
  · rename_i hid
    rw [← Option.some.inj hr', hid]
  · exact h id r' hr'

namespace Vacant

/-- If everybody stands in the lines of his own locks only, nobody does who is not at work. -/
theorem of_idle (hq : Queued s) (hs : Seen s) (h : ∀ t, s.Idle t) : s.Vacant where
  idle := h
  free l := by
    obtain ⟨rowOf, lines⟩ := hq.linesOK
    exact List.eq_nil_iff_forall_not_mem.mpr fun t ht => (h t).not_inLine (lines.known ht)
  filed _ _ hr := hs.id_eq hr

theorem outage (h : s.Vacant) (offline : Bool) : Vacant { s with offline } :=
  ⟨h.idle, h.free, h.filed⟩

theorem serves (h : s.Vacant) (t : Ticket) : s.locks.Serves t [] :=
  ⟨fun l => Or.inl (h.free l), fun u => (h.idle u).2⟩

/-- Where nobody is at work anybody may begin. -/
theorem sole (h : s.Vacant) (t : Ticket) : s.Sole t [] where
  staged := by rw [s.transaction_of_not_isOpen (h.idle t).1]
  alone u _ := h.idle u
  locks := (h.serves t).mono fun _ => nofun
  filed := h.filed

theorem openBatch (h : s.Vacant) : s.openBatch.2.Vacant := ⟨h.idle, h.free, h.filed⟩

end Vacant

/-- **A table is vacant whenever nothing is under way**, whatever has been done at it before. -/
theorem vacant_of_moves {moves : List Move} (hallows : Run.Along after Allows {} moves)
    (hidle : ∀ t, (moves.foldl after {}).Idle t) : (moves.foldl after {}).Vacant := by
  obtain ⟨hqueued, hseen⟩ := queued_seen_of_moves hallows _ (Run.foldl_mem_states _ moves)
  exact .of_idle hqueued hseen hidle

namespace Sole

theorem outage (h : s.Sole t changes) (offline : Bool) : Sole { s with offline } t changes :=
  ⟨h.staged, h.alone, h.locks, h.filed⟩

theorem setTransaction (h : s.Sole t changes) {x : Transaction} {locks : RowLocks}
    (hl : locks.Serves t (x.held.map Prod.snd)) :
    ({ s with locks }.setTransaction t x).Sole t x.staged where
  staged := by rw [transaction_setTransaction, if_pos rfl]
  alone u hu := (Spares.setTransaction { s with locks } t x).idle hu ⟨(h.alone u hu).1, hl.still u⟩
  locks := by
    rw [held_setTransaction, Function.update_self]
    exact hl
  filed := h.filed

theorem ofSameRest {s' : Store} (h : s.Sole t changes) (hrest : SameRest s s') (hfiled : s'.Filed) :
    s'.Sole t changes where
  staged := by rw [hrest.transaction, h.staged]
  alone u hu := (Spares.ofSameRest hrest t).idle hu (h.alone u hu)
  locks := by
    unfold held
    rw [hrest.locks, hrest.transaction]
    exact h.locks
  filed := hfiled

theorem stage (h : s.Sole t changes) (change : Staged) :
    (s.setTransaction t { s.transaction t with staged := changes ++ [change] }).Sole t
      (changes ++ [change]) :=
  h.setTransaction h.locks

theorem forgetLockIfAbsent (h : s.Sole t changes) (id : MatchId) :
    (s.forgetLockIfAbsent id).Sole t changes := by
  unfold Store.forgetLockIfAbsent
  split
  · exact h
  · exact ⟨h.staged, h.alone, ⟨h.locks.line, h.locks.still⟩, h.filed⟩

/-- When the transaction has ended nobody is at work. -/
theorem endTransaction (h : s.Sole t changes) : (s.endTransaction t).Vacant where
  idle u := by
    by_cases hu : u = t
    · subst hu
      exact ⟨fun ho => ((s.isOpen_endTransaction u u).1 ho).1 rfl,
        by rw [s.waiting_endTransaction, if_pos rfl]⟩
    · exact (Spares.endTransaction s t).idle hu (h.alone u hu)
  free l := by
    have hserves : (s.endTransaction t).locks.Serves t [] := by
      show ((s.held t).foldl (fun ls h => ls.leave h.2 t) (s.locks.giveUp t)).Serves t []
      rw [h.locks.giveUp]
      exact h.locks.leaveAll (s.held t) [] fun l hl => Or.inl hl
    exact (hserves.line l).resolve_right fun hl => List.not_mem_nil hl.2
  filed := h.filed

/-- What the transaction sees of the rows. -/
theorem current? (h : s.Sole t changes) (id : MatchId) :
    s.current? t id = overlay s.row? (changes.map Staged.row) id := by
  rw [Store.current?_eq, h.staged]

/-! ### Locking a row -/

theorem lockRow (h : s.Sole t changes) (id : MatchId) : ∃ s', s.lockRow t id = (true, s') ∧
    s'.Sole t changes ∧ s'.contents = s.contents := by
  unfold Store.lockRow
  by_cases hlocked : (s.transaction t).hasLocked id = true
  · exact ⟨s, if_pos hlocked, h, rfl⟩
  · obtain ⟨l, locks, hreq, hserves⟩ := h.locks.request id
    rw [if_neg hlocked, hreq]
    refine ⟨_, rfl, ?_, rfl⟩
    rw [← h.staged]
    refine h.setTransaction ?_
    rw [List.map_append]
    exact hserves

/-- A call for a row gets the lock. -/
theorem withLock {α : Type} (h : s.Sole t changes) (hon : s.offline = false) (id : MatchId)
    (f : Store → Except StoreError α × Store) : ∃ s', s.withLock t id f = replied (f s') ∧
      s'.Sole t changes ∧ s'.contents = s.contents := by
  obtain ⟨s', hlock, hs', hcontents⟩ := h.lockRow id
  refine ⟨s', ?_, hs', hcontents⟩
  rw [Store.withLock, if_neg (by simp [hon]), hlock]

/-- The lock of one row is let go. -/
theorem unlockRow (h : s.Sole t changes) (id : MatchId) : (s.unlockRow t id).Sole t changes := by
  have hfreed := h.locks.leaveAll ((s.held t).filter fun w => w.1 == id)
    (((s.held t).filter fun w => w.1 != id).map Prod.snd) fun l hl => by
      obtain ⟨w, hw, rfl⟩ := List.mem_map.mp hl
      by_cases hid : w.1 = id
      · exact Or.inl (List.mem_map_of_mem (List.mem_filter.mpr ⟨hw, by simpa using hid⟩))
      · exact Or.inr (List.mem_map_of_mem (List.mem_filter.mpr ⟨hw, by simpa using hid⟩))
  rw [← h.staged]
  exact h.setTransaction hfreed

end Sole

/-! ### The calls

While the table cannot be reached every call is refused, apart from dropping a transaction and from
going on with a batch update; a transaction ends all the same when it is to be committed.
-/

section Refused

variable {s : Store} (m : Moment) (hoff : s.offline = true)
include hoff

theorem find_offline (driver passenger : ActorId) :
    perform m (.find driver passenger) s = .answer (.error .offline) s := by
  rw [perform, guarded, if_pos hoff]

theorem get_offline (id : MatchId) : perform m (.get id) s = .answer (.error .offline) s := by
  rw [perform, guarded, if_pos hoff]

theorem list_offline (actor : ActorId) (role : Role) :
    perform m (.list actor role) s = .answer (.error .offline) s := by
  rw [perform, guarded, if_pos hoff]

theorem begin_offline : perform m .begin s = .answer (.error .offline) s := if_pos hoff

theorem insert_offline (t : Ticket) (d : Draft) :
    perform m (.insert t d) s = .answer (.error .offline) s := if_pos hoff

theorem openBatch_offline : perform m .openBatch s = .answer (.error .offline) s := if_pos hoff

theorem commit_offline (t : Ticket) :
    perform m (.commit t) s = .answer (.error .offline) (s.endTransaction t) := by
  rw [perform, commit, if_pos hoff]
  rfl

/-- Asking for a lock is refused too, if one is not waiting for it. -/
theorem Sole.withLock_offline {α : Type} (h : s.Sole t changes) (id : MatchId)
    (f : Store → Except StoreError α × Store) :
    s.withLock t id f = .answer (.error .offline) s := by
  have hwait : s.locks.waitsFor t id = false := by rw [RowLocks.waitsFor, h.locks.still]
  rw [Store.withLock, if_pos ⟨hoff, hwait⟩]

end Refused

section Answered

variable (m : Moment)

theorem find_online (hon : s.offline = false) (driver passenger : ActorId) :
    perform m (.find driver passenger) s = .answer (.ok (s.openProposal? (driver, passenger))) s := by
  rw [perform, guarded, if_neg (by simp [hon])]

theorem get_online (hon : s.offline = false) (id : MatchId) : perform m (.get id) s
    = .answer (match s.row? id with | some r => .ok r | none => .error (.notFound id)) s := by
  rw [perform, guarded, if_neg (by simp [hon])]
  rfl

theorem list_online (hon : s.offline = false) (actor : ActorId) (role : Role) :
    perform m (.list actor role) s = .answer (.ok (s.rowsOf actor role)) s := by
  rw [perform, guarded, if_neg (by simp [hon])]

theorem openBatch_online (hon : s.offline = false) :
    perform m .openBatch s = .answer (.ok s.nextTicket) s.openBatch.2 := by
  rw [perform, if_neg (by simp [hon])]
  rfl

theorem Vacant.begin (h : s.Vacant) (hon : s.offline = false) : ∃ t s',
    perform m .begin s = .answer (.ok t) s' ∧ s'.Sole t [] ∧ s'.contents = s.contents := by
  have hsole : (s.setTransaction s.nextTicket {}).Sole s.nextTicket [] :=
    (h.sole s.nextTicket).setTransaction (h.serves s.nextTicket)
  refine ⟨s.nextTicket, s.beginTransaction.2, ?_, ?_, rfl⟩
  · rw [perform, if_neg (by simp [hon])]
    rfl
  · exact ⟨hsole.staged, hsole.alone, hsole.locks, hsole.filed⟩

theorem Sole.insert (h : s.Sole t []) (hon : s.offline = false) {d : Draft}
    (hfree : s.openPairs.contains d.pair = false) : ∃ s',
    perform m (.insert t d) s = .answer (.ok (d.toProposal m.freshId m.now)) s' ∧
      s'.Sole t [.insert (d.toProposal m.freshId m.now)] ∧ s'.contents = s.contents := by
  refine ⟨_, ?_, h.stage (.insert (d.toProposal m.freshId m.now)), rfl⟩
  rw [perform, if_neg (by simp [hon]), stageInsert, h.staged, if_neg (by simp [hfree])]
  rfl

theorem insert_taken (hon : s.offline = false) {d : Draft}
    (htaken : s.openPairs.contains d.pair = true) :
    perform m (.insert t d) s = .answer (.error (.pairTaken d.pair)) s := by
  rw [perform, if_neg (by simp [hon]), stageInsert, if_pos (Or.inr htaken)]
  rfl

theorem Sole.read (h : s.Sole t changes) (hon : s.offline = false)
    (hr : overlay s.row? (changes.map Staged.row) id = some r) : ∃ s',
    perform m (.lock t id) s = .answer (.ok r) s' ∧ s'.Sole t changes ∧
      s'.contents = s.contents := by
  obtain ⟨s', hlock, hs', hc⟩ := h.withLock hon id fun s => s.readLocked t id
  have hcur : s'.current? t id = some r := by
    rw [hs'.current?, ← row?_contents, hc, row?_contents, hr]
  refine ⟨s', ?_, hs', hc⟩
  rw [perform, hlock, readLocked, hcur]
  rfl

theorem Sole.read_missing (h : s.Sole t changes) (hon : s.offline = false)
    (hr : overlay s.row? (changes.map Staged.row) id = none) : ∃ s',
    perform m (.lock t id) s = .answer (.error (.notFound id)) s' ∧ s'.Sole t changes ∧
      s'.contents = s.contents := by
  obtain ⟨s', hlock, hs', hc⟩ := h.withLock hon id fun s => s.readLocked t id
  have hcur : s'.current? t id = none := by
    rw [hs'.current?, ← row?_contents, hc, row?_contents, hr]
  refine ⟨_, ?_, (hs'.unlockRow id).forgetLockIfAbsent id, ?_⟩
  · rw [perform, hlock, readLocked, hcur]
    rfl
  · rw [contents_forgetLockIfAbsent]
    exact hc

theorem Sole.update (h : s.Sole t changes) (hon : s.offline = false)
    (hr : overlay s.row? (changes.map Staged.row) id = some r) (hopen : r.isOpen = true)
    (status : Status) (driver passenger : Bool) : ∃ s',
    perform m (.update t id status driver passenger) s = .answer (.ok (1 : Nat)) s' ∧
      s'.Sole t (changes ++ [.update { r with
        status, driverConfirmed := driver, passengerConfirmed := passenger,
        updatedAt := m.now }]) ∧ s'.contents = s.contents := by
  obtain ⟨s', hlock, hs', hc⟩ := h.lockRow id
  have hcur : s'.current? t id = some r := by
    rw [hs'.current?, ← row?_contents, hc, row?_contents, hr]
  have hstage : s'.stageUpdate t id status driver passenger m.now = (1, s'.setTransaction t
      { s'.transaction t with staged := changes ++ [.update { r with
          status, driverConfirmed := driver, passengerConfirmed := passenger,
          updatedAt := m.now }] }) := by
    have hterm : ¬ r.status.isTerminal = true := by simpa [Proposal.isOpen] using hopen
    simp only [stageUpdate, hcur, if_neg hterm, hs'.staged]
  refine ⟨_, ?_, hs'.stage _, hc⟩
  rw [perform, Store.withLock, if_neg (by simp [hon]), hlock]
  simp only [hstage]
  rfl

theorem Sole.commit_insert (h : s.Sole t [.insert r]) (hon : s.offline = false)
    (hopen : r.isOpen = true) (hfree : s.openPairs.contains r.pair = false) : ∃ s',
    perform m (.commit t) s = .answer (.ok ()) s' ∧ s'.Vacant ∧
      s'.contents = s.contents.claimPair r := by
  have hclaim : s.claimStaged t = (.ok (), s.claimPair r) := by
    rw [claimStaged, h.staged]
    show claimAll [] [r] s = _
    rw [claimAll, if_neg (by simp [hfree])]
    rfl
  have hwrite : (s.claimPair r).writeStaged t = s.claimPair r := by
    rw [writeStaged, (sameRest_claimPair s r).transaction, h.staged]
    exact writeRow_claimPair s r hopen
  have hclaimed := h.ofSameRest (sameRest_claimPair s r) (h.filed.update (row?_claimPair s r))
  refine ⟨_, ?_, hclaimed.endTransaction, rfl⟩
  rw [perform, commit, if_neg (by simp [hon]), hclaim]
  simp only [hwrite]
  rfl

theorem Sole.commit_update (h : s.Sole t [.update r]) (hon : s.offline = false) : ∃ s',
    perform m (.commit t) s = .answer (.ok ()) s' ∧ s'.Vacant ∧
      s'.contents = s.contents.writeRow r := by
  have hclaim : s.claimStaged t = (.ok (), s) := by
    rw [claimStaged, h.staged]
    rfl
  have hwrite : s.writeStaged t = s.writeRow r := by
    rw [writeStaged, h.staged]
    rfl
  have hwritten := h.ofSameRest (sameRest_writeRow s r) (h.filed.update (row?_writeRow s r))
  refine ⟨_, ?_, hwritten.endTransaction, s.contents_writeRow r⟩
  rw [perform, commit, if_neg (by simp [hon]), hclaim]
  simp only [hwrite]
  rfl

theorem Vacant.updateRow (h : s.Vacant) (hr : s.row? id = some r) {allowed : List Status}
    (hmem : r.status ∈ allowed) (t : Ticket) (status : Status) : ∃ s',
    perform m (.updateRow t id status allowed) s = .answer true s' ∧ s'.Vacant ∧
      s'.contents = s.contents.writeRow { r with status, updatedAt := m.now } := by
  obtain ⟨l, locks, hreq, hserves⟩ := (h.serves t).request id
  let s₁ : Store := { s with locks }
  let r' : Proposal := { r with status, updatedAt := m.now }
  have hupdate : s₁.updateRow id status allowed m.now = (true, s₁.writeRow r') := by
    rw [Store.updateRow, show s₁.row? id = some r from hr]
    exact if_pos hmem
  have hrest := sameRest_writeRow s₁ r'
  have hleft : (locks.leave l t).Serves t [] := (hserves.leave l).mono fun l' => by simp
  have hvacant : Vacant { s₁.writeRow r' with locks := locks.leave l t } := by
    refine ⟨fun u => ⟨fun ho => (h.idle u).1 ?_, hleft.still u⟩, fun l' => ?_, ?_⟩
    · unfold IsOpen at ho
      rwa [hrest.transactions] at ho
    · exact (hleft.line l').resolve_right fun hl => List.not_mem_nil hl.2
    · exact Filed.update h.filed (row?_writeRow s₁ r')
  refine ⟨_, ?_, hvacant, contents_writeRow s₁ r'⟩
  rw [perform, updateLocked, hreq]
  simp only [s₁, hupdate]
  rw [hrest.locks]
  rfl

end Answered

end Store
end Dispatch
