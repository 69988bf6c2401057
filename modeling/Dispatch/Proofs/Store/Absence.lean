/-
The table in the absence of one party.

Beside a run stands the one in which all is done but what `t` does (`Store.Shadow`).  The two tables
have the same rows and the same open pairs, entry for entry, and the others have staged the same
changes; locks have other numbers, and tickets that are drawn after `t` are lower by one.

Whatever one of the others does, he is answered in the same way, and the tables stay beside each
other (`Shadow.perform`); nor do they part by what `t` does himself (`Shadow.own`), as long as no
commit of his succeeds.
-/
import Dispatch.Proofs.Store.Queues
import Dispatch.Proofs.Store.Shadow

namespace Dispatch

/-! ### Calls with other tickets -/

namespace StoreCall

/-- The ticket that a call is made with. -/
def ticket? : StoreCall → Option Ticket
  | begin | find _ _ | get _ | list _ _ | openBatch => none
  | insert t _ | lock t _ | update t _ _ _ _ | commit t | rollback t | updateRow t _ _ _ => some t

/-- The same call with another ticket. -/
def mapTickets (f : Ticket → Ticket) : StoreCall → StoreCall
  | begin => begin
  | find driver passenger => find driver passenger
  | get id => get id
  | list actor role => list actor role
  | insert t d => insert (f t) d
  | lock t id => lock (f t) id
  | update t id status driver passenger => update (f t) id status driver passenger
  | commit t => commit (f t)
  | rollback t => rollback (f t)
  | openBatch => openBatch
  | updateRow t id status allowed => updateRow (f t) id status allowed

/-- The same reply.  Only tickets that are drawn are other ones. -/
def mapReply (f : Ticket → Ticket) : (c : StoreCall) → c.Reply → (c.mapTickets f).Reply
  | begin, r | openBatch, r => Except.map f r
  | find _ _, r | get _, r | list _ _, r | insert _ _, r | lock _ _, r | update _ _ _ _ _, r
  | commit _, r | rollback _, r | updateRow _ _ _ _, r => r

end StoreCall

/-- The transaction with other locks. -/
def Transaction.relock (g : LockId → LockId) (x : Transaction) : Transaction :=
  { x with held := x.held.map (RowLocks.relabel g) }

namespace Transaction

variable (g : LockId → LockId) (x : Transaction)

@[simp] theorem staged_relock : (x.relock g).staged = x.staged := rfl
@[simp] theorem newRows_relock : (x.relock g).newRows = x.newRows := rfl
@[simp] theorem held_relock : (x.relock g).held = x.held.map (RowLocks.relabel g) := rfl

@[simp] theorem hasLocked_relock (id : MatchId) : (x.relock g).hasLocked id = x.hasLocked id := by
  unfold hasLocked
  rw [held_relock, List.any_map]
  rfl

theorem relock_congr {g g' : LockId → LockId} {x : Transaction}
    (h : ∀ w ∈ x.held, g' w.2 = g w.2) : x.relock g' = x.relock g := by
  unfold relock
  congr 1
  refine List.map_congr_left fun w hw => ?_
  rw [RowLocks.relabel, RowLocks.relabel, h w hw]

end Transaction

namespace Store

/-- Writing a row, or finding none, moves nobody in a line. -/
theorem line_updateRow (s : Store) (id : MatchId) (status : Status)
    (allowed : List Status) (now : Time.Instant) (l : LockId) :
    (s.updateRow id status allowed now).2.locks.line l = s.locks.line l := by
  cases hr : s.row? id with
  | none =>
      rw [updateRow_of_none hr, Store.forgetLockIfAbsent]
      split
      · rfl
      · rfl
  | some r =>
      by_cases hallowed : r.status ∈ allowed
      · rw [updateRow_of_mem hr hallowed, (sameRest_writeRow _ _).locks]
      · rw [updateRow_of_not_mem hr hallowed]

/-- One party holds the lock that another one waits at. -/
def Hinders (s : Store) (t u : Ticket) : Bool :=
  (s.locks.waiting.find? u).any fun w => s.locks.holds w.2 t

/-- The table of a run in which `t` does nothing, beside that of the run in which he does what he
does. -/
structure Shadow (t : Ticket) (g : LockId → LockId) (s s' : Store) : Prop where
  rows : s'.rows = s.rows
  openPairs : s'.openPairs = s.openPairs
  offline : s'.offline = s.offline
  nextTicket : s'.nextTicket = closeUp t s.nextTicket
  locks : RowLocks.Shadow t g s.locks s'.locks
  transactions : ClosedUp t (Transaction.relock g) s.transactions s'.transactions

/-- The same comes of a call in both runs: both wait, or both are answered alike. -/
def Matches (t : Ticket) {ρ ρ' : Type} (f : ρ → ρ') : Turn Store ρ → Turn Store ρ' → Prop
  | .answer r s, .answer r' s' => r' = f r ∧ ∃ g, Shadow t g s s'
  | .wait s, .wait s' => ∃ g, Shadow t g s s'
  | _, _ => False

namespace Shadow

variable {t u : Ticket} {g : LockId → LockId} {s s' : Store} {id : MatchId}

/-! ### What the others find -/

theorem row? (h : Shadow t g s s') (id : MatchId) : s'.row? id = s.row? id := by
  unfold Store.row?
  rw [h.rows]

theorem transaction (h : Shadow t g s s') (hu : u ≠ t) :
    s'.transaction (closeUp t u) = (s.transaction u).relock g := by
  unfold Store.transaction
  rw [h.transactions u hu]
  cases s.transactions.find? u with
  | none => rfl
  | some x => rfl

theorem current? (h : Shadow t g s s') (hu : u ≠ t) (id : MatchId) :
    s'.current? (closeUp t u) id = s.current? u id := by
  unfold Store.current? Transaction.stagedRow?
  rw [h.transaction hu, h.row?]
  rfl

theorem guarded {α : Type} (h : Shadow t g s s') (a : Except StoreError α) :
    s'.guarded a = s.guarded a := by
  unfold Store.guarded
  rw [h.offline]

theorem openProposal? (h : Shadow t g s s') (p : Pair) : s'.openProposal? p = s.openProposal? p := by
  unfold Store.openProposal?
  rw [h.openPairs]
  cases s.openPairs.find? p with
  | none => rfl
  | some id =>
      show (s'.row? id).filter Proposal.isOpen = (s.row? id).filter Proposal.isOpen
      rw [h.row?]

theorem rowsOf (h : Shadow t g s s') (actor : ActorId) (role : Role) :
    s'.rowsOf actor role = s.rowsOf actor role := by
  unfold Store.rowsOf
  rw [h.rows]

theorem isOpen (h : Shadow t g s s') (hu : u ≠ t) : s'.IsOpen (closeUp t u) ↔ s.IsOpen u := by
  unfold Store.IsOpen
  rw [h.transactions u hu, Option.isSome_map]

theorem mayAsk (h : Shadow t g s s') (hu : u ≠ t) (hask : s.MayAsk u id) :
    s'.MayAsk (closeUp t u) id := by
  intro w hw
  rw [h.locks.waiting u hu] at hw
  obtain ⟨w₀, hw₀, rfl⟩ := Option.map_eq_some_iff.mp hw
  exact hask w₀ hw₀

theorem waiting_eq_none (h : Shadow t g s s') (hu : u ≠ t) (hw : s.locks.waiting.find? u = none) :
    s'.locks.waiting.find? (closeUp t u) = none := by
  rw [h.locks.waiting u hu, hw]
  rfl

theorem waitsFor (h : Shadow t g s s') (hu : u ≠ t) (id : MatchId) :
    s'.locks.waitsFor (closeUp t u) id = s.locks.waitsFor u id := by
  unfold RowLocks.waitsFor
  rw [h.locks.waiting u hu]
  cases s.locks.waiting.find? u with
  | none => rfl
  | some w => rfl

theorem unused (h : Shadow t g s s') (hid : s.Unused id) : s'.Unused id := by
  refine ⟨(h.row? id).trans hid.1, fun v r hr => ?_⟩
  obtain ⟨u, hu, rfl⟩ := exists_closeUp t v
  rw [h.transaction hu] at hr
  exact hid.2 u r hr

/-- What one of the others can call, he can call without `t`. -/
theorem allowsCall (h : Shadow t g s s') {c : StoreCall} {m : Moment} (hc : c.ticket? ≠ some t)
    (hadm : s.AllowsCall m c) : s'.AllowsCall m (c.mapTickets (closeUp t)) := by
  have hne : ∀ {u}, c.ticket? = some u → u ≠ t := by
    rintro u hu rfl
    exact hc hu
  cases c with
  | begin => trivial
  | find driver passenger => trivial
  | get id => trivial
  | list actor role => trivial
  | insert u d =>
      have hu : u ≠ t := hne rfl
      exact ⟨(h.isOpen hu).2 hadm.1, h.waiting_eq_none hu hadm.2.1, h.unused hadm.2.2⟩
  | lock u id =>
      have hu : u ≠ t := hne rfl
      exact ⟨(h.isOpen hu).2 hadm.1, h.mayAsk hu hadm.2⟩
  | update u id status driver passenger =>
      have hu : u ≠ t := hne rfl
      exact ⟨(h.isOpen hu).2 hadm.1, h.mayAsk hu hadm.2⟩
  | commit u =>
      have hu : u ≠ t := hne rfl
      exact ⟨(h.isOpen hu).2 hadm.1, h.waiting_eq_none hu hadm.2⟩
  | rollback u => trivial
  | openBatch => trivial
  | updateRow u id status allowed =>
      have hu : u ≠ t := hne rfl
      refine ⟨fun hopen => hadm.1 ((h.isOpen hu).1 hopen), ?_, h.mayAsk hu hadm.2.2⟩
      rw [h.nextTicket]
      exact closeUp_lt hu hadm.2.1

/-! ### Rows and pairs -/

theorem claimPair (h : Shadow t g s s') (r : Proposal) :
    Shadow t g (s.claimPair r) (s'.claimPair r) :=
  { h with
    rows := congrArg (Table.insert · r.id r) h.rows
    openPairs := congrArg (Table.insert · r.pair r.id) h.openPairs }

theorem unclaimPair (h : Shadow t g s s') (r : Proposal) :
    Shadow t g (s.unclaimPair r) (s'.unclaimPair r) where
  rows := congrArg (Table.erase · r.id) h.rows
  openPairs := by
    unfold Store.unclaimPair
    rw [h.openPairs]
  offline := h.offline
  nextTicket := h.nextTicket
  locks := h.locks
  transactions := h.transactions

theorem releasePair (h : Shadow t g s s') (r : Proposal) :
    Shadow t g (s.releasePair r) (s'.releasePair r) := by
  unfold Store.releasePair
  rw [h.openPairs]
  split
  · exact { h with openPairs := rfl }
  · exact h

theorem writeRow (h : Shadow t g s s') (r : Proposal) : Shadow t g (s.writeRow r) (s'.writeRow r) :=
  { h.releasePair r with rows := congrArg (Table.insert · r.id r) (h.releasePair r).rows }

theorem foldl {f : Store → Proposal → Store}
    (hf : ∀ {s s' : Store}, Shadow t g s s' → ∀ r, Shadow t g (f s r) (f s' r))
    (h : Shadow t g s s') (rs : List Proposal) : Shadow t g (rs.foldl f s) (rs.foldl f s') := by
  induction rs generalizing s s' with
  | nil => exact h
  | cons r rest ih => exact ih (hf h r)

theorem claimAll (h : Shadow t g s s') (claimed new : List Proposal) :
    (Store.claimAll claimed new s').1 = (Store.claimAll claimed new s).1 ∧
      Shadow t g (Store.claimAll claimed new s).2 (Store.claimAll claimed new s').2 := by
  induction new generalizing s s' claimed with
  | nil => exact ⟨rfl, h⟩
  | cons r rest ih =>
      rw [Store.claimAll, Store.claimAll, h.openPairs]
      split
      · exact ⟨rfl, foldl unclaimPair h claimed⟩
      · exact ih (h.claimPair r) _

/-! ### Locks and transactions -/

theorem setTransaction (h : Shadow t g s s') (hu : u ≠ t) (x : Transaction) :
    Shadow t g (s.setTransaction u x) (s'.setTransaction (closeUp t u) (x.relock g)) :=
  { h with transactions := h.transactions.insert hu x }

theorem ofLocks (h : Shadow t g s s') {locks locks' : RowLocks}
    (hl : RowLocks.Shadow t g locks locks') :
    Shadow t g { s with locks } { s' with locks := locks' } :=
  { h with locks := hl }

theorem forgetLockIfAbsent (h : Shadow t g s s') (id : MatchId) :
    Shadow t g (s.forgetLockIfAbsent id) (s'.forgetLockIfAbsent id) := by
  have hrows : s'.rows.contains id = s.rows.contains id := by rw [h.rows]
  unfold Store.forgetLockIfAbsent
  rw [hrows]
  split
  · exact h
  · exact h.ofLocks (h.locks.forget id)

theorem unlockRow (h : Shadow t g s s') (hq : Queued s) (hu : u ≠ t) (id : MatchId) :
    Shadow t g (s.unlockRow u id) (s'.unlockRow (closeUp t u) id) := by
  obtain ⟨rowOf, ok⟩ := hq.linesOK
  have hlocks := h.locks.leaveAll_held ok hu
    (List.filter_sublist (p := fun w => w.1 == id) (l := s.held u))
  have hkept := (h.ofLocks hlocks).setTransaction hu
    { s.transaction u with held := (s.transaction u).held.filter fun w => w.1 != id }
  unfold Store.unlockRow
  rw [h.transaction hu]
  simp only [Transaction.held_relock, List.filter_map]
  exact hkept

theorem endTransaction (h : Shadow t g s s') (hq : Queued s) (hu : u ≠ t) :
    Shadow t g (s.endTransaction u) (s'.endTransaction (closeUp t u)) := by
  obtain ⟨rowOf, ok⟩ := hq.linesOK
  have hlocks := (h.locks.giveUp ok hu).leaveAll_held (ok.giveUp u) hu
    (List.Sublist.refl (s.held u))
  have hheld : (s'.transaction (closeUp t u)).held = (s.held u).map (RowLocks.relabel g) :=
    congrArg Transaction.held (h.transaction hu)
  unfold Store.endTransaction
  rw [hheld]
  exact { h with locks := hlocks, transactions := h.transactions.erase hu }

/-- Locks that somebody holds keep their numbers when locks at which nobody else stands get others. -/
theorem relock (h : Shadow t g s s') (hq : Queued s) {g₁ : LockId → LockId}
    (hg : ∀ l, s.locks.Crowded t l → g₁ l = g l) :
    ClosedUp t (Transaction.relock g₁) s.transactions s'.transactions := by
  obtain ⟨rowOf, ok⟩ := hq.linesOK
  refine h.transactions.congr fun v x hv hx => Transaction.relock_congr fun w hw => hg _ ?_
  have hheld : w ∈ s.held v := by
    unfold held Store.transaction
    rw [hx]
    exact hw
  exact RowLocks.crowded_of_mem (ok.mem_line (Or.inl hheld)) hv

/-! ### Asking for a lock -/

/-- Somebody else asks for a lock that he has not got. -/
theorem request (h : Shadow t g s s') (hq : Queued s) (hq' : Queued s') (hu : u ≠ t)
    (hask : s.MayAsk u id) (hheld : ∀ w ∈ s.held u, w.1 ≠ id)
    (hfree : (Store.Hinders { s with locks := (s.locks.request u id).2 } t u) = false) :
    ∃ g₁, (s'.locks.request (closeUp t u) id).1 = (s.locks.request u id).1.map g₁ ∧
      (∀ l, s.locks.Crowded t l → g₁ l = g l) ∧
      Shadow t g₁ { s with locks := (s.locks.request u id).2 }
        { s' with locks := (s'.locks.request (closeUp t u) id).2 } := by
  obtain ⟨rowOf, ok⟩ := hq.linesOK
  obtain ⟨rowOf', ok'⟩ := hq'.linesOK
  obtain ⟨g₁, hg, hlocks, hres⟩ := h.locks.request ok ok' hu hask hheld fun w hw => by
    unfold Hinders at hfree
    rw [hw] at hfree
    exact hfree
  exact ⟨g₁, hres, hg, { h with locks := hlocks, transactions := h.relock hq hg }⟩

/-- Somebody else asks for the lock of a row, which he may have got. -/
theorem lockRow (h : Shadow t g s s') (hq : Queued s) (hq' : Queued s') (hu : u ≠ t)
    (hask : s.MayAsk u id) (hfree : (s.lockRow u id).2.Hinders t u = false) :
    (s'.lockRow (closeUp t u) id).1 = (s.lockRow u id).1 ∧
      ∃ g₁, Shadow t g₁ (s.lockRow u id).2 (s'.lockRow (closeUp t u) id).2 := by
  unfold Store.lockRow at hfree ⊢
  have htr := h.transaction hu
  by_cases hhas : (s.transaction u).hasLocked id = true
  · have hhas' : (s'.transaction (closeUp t u)).hasLocked id = true := by
      rw [htr, Transaction.hasLocked_relock, hhas]
    simp only [if_pos hhas, if_pos hhas', true_and]
    exact ⟨g, h⟩
  have hhas' : ¬ (s'.transaction (closeUp t u)).hasLocked id = true := by
    rw [htr, Transaction.hasLocked_relock]
    exact hhas
  have hheld : ∀ w ∈ s.held u, w.1 ≠ id := by
    rintro ⟨x, l⟩ hmem rfl
    exact hhas ((s.hasLocked_iff u _).2 ⟨l, hmem⟩)
  simp only [if_neg hhas] at hfree
  simp only [if_neg hhas, if_neg hhas']
  have hreq := h.request hq hq' hu hask hheld
  rcases hr : s.locks.request u id with ⟨_ | l, locks⟩
  · rw [hr] at hfree hreq
    obtain ⟨g₁, hres, -, hs⟩ := hreq hfree
    rcases hr' : s'.locks.request (closeUp t u) id with ⟨_ | l', locks'⟩
    · rw [hr'] at hs
      exact ⟨rfl, g₁, hs⟩
    · rw [hr'] at hres
      cases hres
  · rw [hr] at hfree hreq
    obtain ⟨g₁, hres, -, hs⟩ := hreq hfree
    rcases hr' : s'.locks.request (closeUp t u) id with ⟨_ | l', locks'⟩
    · rw [hr'] at hres
      cases hres
    · rw [hr'] at hres hs
      obtain rfl : l' = g₁ l := Option.some.inj hres
      have htr₁ : s'.transaction (closeUp t u) = (s.transaction u).relock g₁ := hs.transaction hu
      have hset := hs.setTransaction hu
        { s.transaction u with held := (s.transaction u).held ++ [(id, l)] }
      unfold Transaction.relock at hset
      rw [List.map_append] at hset
      rw [htr₁]
      exact ⟨rfl, g₁, hset⟩

/-! ### Single calls -/

theorem readLocked (h : Shadow t g s s') (hq : Queued s) (hu : u ≠ t)
    (id : MatchId) : (s'.readLocked (closeUp t u) id).1 = (s.readLocked u id).1 ∧
      Shadow t g (s.readLocked u id).2 (s'.readLocked (closeUp t u) id).2 := by
  unfold Store.readLocked
  rw [h.current? hu]
  cases s.current? u id with
  | some r => exact ⟨rfl, h⟩
  | none => exact ⟨rfl, (h.unlockRow hq hu id).forgetLockIfAbsent id⟩

theorem stageUpdate (h : Shadow t g s s') (hu : u ≠ t) (id : MatchId) (status : Status)
    (driver passenger : Bool) (now : Time.Instant) :
    (s'.stageUpdate (closeUp t u) id status driver passenger now).1
        = (s.stageUpdate u id status driver passenger now).1 ∧
      Shadow t g (s.stageUpdate u id status driver passenger now).2
        (s'.stageUpdate (closeUp t u) id status driver passenger now).2 := by
  unfold Store.stageUpdate
  rw [h.current? hu, h.transaction hu]
  cases s.current? u id with
  | none => exact ⟨rfl, h⟩
  | some r =>
      by_cases hterm : r.status.isTerminal = true
      · simp only [if_pos hterm, true_and]
        exact h
      · simp only [if_neg hterm, true_and]
        exact h.setTransaction hu _

theorem stageInsert (h : Shadow t g s s') (hu : u ≠ t) (d : Draft) (id : MatchId)
    (now : Time.Instant) :
    (s'.stageInsert (closeUp t u) d id now).1 = (s.stageInsert u d id now).1 ∧
      Shadow t g (s.stageInsert u d id now).2 (s'.stageInsert (closeUp t u) d id now).2 := by
  have hsame : (((s'.transaction (closeUp t u)).staged.filterMap Staged.inserted?).any
        (fun r => r.pair == d.pair) ∨ s'.openPairs.contains d.pair) ↔
      (((s.transaction u).staged.filterMap Staged.inserted?).any
        (fun r => r.pair == d.pair) ∨ s.openPairs.contains d.pair) := by
    rw [h.transaction hu, h.openPairs]
    rfl
  unfold Store.stageInsert
  by_cases htaken : ((s.transaction u).staged.filterMap Staged.inserted?).any
      (fun r => r.pair == d.pair) ∨ s.openPairs.contains d.pair
  · simp only [if_pos htaken, if_pos (hsame.2 htaken), true_and]
    exact h
  · simp only [if_neg htaken, if_neg fun hc => htaken (hsame.1 hc), true_and]
    rw [h.transaction hu]
    exact h.setTransaction hu _

theorem writeStaged (h : Shadow t g s s') (hu : u ≠ t) :
    Shadow t g (s.writeStaged u) (s'.writeStaged (closeUp t u)) := by
  unfold Store.writeStaged
  rw [h.transaction hu, Transaction.staged_relock]
  exact h.foldl writeRow _

theorem commit (h : Shadow t g s s') (hq : Queued s) (hu : u ≠ t) :
    (s'.commit (closeUp t u)).1 = (s.commit u).1 ∧
      Shadow t g (s.commit u).2 (s'.commit (closeUp t u)).2 := by
  have hclaims : ∀ (s : Store) u, s.claimStaged u
      = Store.claimAll [] (s.transaction u).newRows s := fun _ _ => rfl
  unfold Store.commit
  rw [h.offline, hclaims, hclaims, h.transaction hu, Transaction.newRows_relock]
  by_cases hoff : s.offline = true
  · simp only [if_pos hoff, true_and]
    exact h.endTransaction hq hu
  simp only [if_neg hoff]
  obtain ⟨hres, hs⟩ := h.claimAll [] (s.transaction u).newRows
  have hrest := s.sameRest_claimAll [] (s.transaction u).newRows
  generalize Store.claimAll [] (s.transaction u).newRows s = c at hres hs hrest
  generalize Store.claimAll [] (s.transaction u).newRows s' = c' at hres hs
  obtain ⟨res, s₁⟩ := c
  obtain ⟨res', s₁'⟩ := c'
  obtain rfl : res' = res := hres
  cases res' with
  | error e => exact ⟨rfl, hs.endTransaction (hq.ofSameRest hrest) hu⟩
  | ok _ =>
      have hwritten := SameRest.foldl sameRest_writeRow ((s₁.transaction u).staged.map Staged.row) s₁
      exact ⟨rfl, (hs.writeStaged hu).endTransaction ((hq.ofSameRest hrest).ofSameRest hwritten) hu⟩

/-! ### Calls that wait for a lock -/

theorem withLock {α : Type} (h : Shadow t g s s') (hq : Queued s) (hq' : Queued s') (hu : u ≠ t)
    (ht : s.IsOpen u) (hask : s.MayAsk u id) {f f' : Store → Except StoreError α × Store}
    (hf : ∀ {s₁ s₁' : Store} {g₁}, Shadow t g₁ s₁ s₁' → Queued s₁ → (f' s₁').1 = (f s₁).1 ∧
      Shadow t g₁ (f s₁).2 (f' s₁').2)
    (hfree : (s.withLock u id f).state.Hinders t u = false) :
    Matches t (fun r => r) (s.withLock u id f) (s'.withLock (closeUp t u) id f') := by
  obtain ⟨hq₁, hgranted⟩ := hq.lockRow ht hask
  unfold Store.withLock at hfree ⊢
  rw [h.offline, h.waitsFor hu]
  by_cases hoff : s.offline = true ∧ s.locks.waitsFor u id = false
  · simp only [if_pos hoff]
    exact ⟨rfl, g, h⟩
  simp only [if_neg hoff] at hfree ⊢
  -- whoever has got the lock is not hindered any more
  have hfree₁ : (s.lockRow u id).2.Hinders t u = false := by
    rcases hl : s.lockRow u id with ⟨_ | _, s₁⟩
    · rw [hl] at hfree
      exact hfree
    · rw [hl] at hgranted
      unfold Hinders
      rw [hgranted rfl]
      rfl
  obtain ⟨hres, g₁, hs⟩ := h.lockRow hq hq' hu hask hfree₁
  generalize s.lockRow u id = a at hq₁ hres hs
  generalize s'.lockRow (closeUp t u) id = a' at hres hs
  obtain ⟨granted, s₁⟩ := a
  obtain ⟨granted', s₁'⟩ := a'
  obtain rfl : granted' = granted := hres
  cases granted' with
  | false => exact ⟨g₁, hs⟩
  | true =>
      obtain ⟨hreply, hs'⟩ := hf hs hq₁
      exact ⟨hreply, g₁, hs'⟩

/-! ### Batch updates -/

theorem updateRow (h : Shadow t g s s') (id : MatchId) (status : Status) (allowed : List Status)
    (now : Time.Instant) :
    (s'.updateRow id status allowed now).1 = (s.updateRow id status allowed now).1 ∧
      Shadow t g (s.updateRow id status allowed now).2 (s'.updateRow id status allowed now).2 := by
  unfold Store.updateRow
  rw [h.row?]
  cases s.row? id with
  | none => exact ⟨rfl, h.forgetLockIfAbsent id⟩
  | some r =>
      by_cases hr : r.status ∈ allowed
      · simp only [if_pos hr, true_and]
        exact h.writeRow _
      · simp only [if_neg hr, true_and]
        exact h

/-- One row of a batch update of somebody else. -/
theorem updateLocked (h : Shadow t g s s') (hq : Queued s) (hq' : Queued s') (hu : u ≠ t)
    (hopen : ¬ s.IsOpen u) (hask : s.MayAsk u id) {status : Status} {allowed : List Status}
    {now : Time.Instant}
    (hfree : (s.updateLocked u id status allowed now).state.Hinders t u = false) :
    Matches t (fun r => r) (s.updateLocked u id status allowed now)
      (s'.updateLocked (closeUp t u) id status allowed now) := by
  have hnone : s.held u = [] := s.held_of_not_isOpen hopen
  have hheld : ∀ w ∈ s.held u, w.1 ≠ id := by
    rw [hnone]
    intro w hw
    cases hw
  obtain ⟨rowOf, ok⟩ := hq.linesOK
  have hasked := ok.request hask hheld
  have hreq := h.request hq hq' hu hask hheld
  unfold Store.updateLocked at hfree ⊢
  rcases hr : s.locks.request u id with ⟨_ | l, locks⟩
  all_goals rw [hr] at hasked hreq hfree
  · obtain ⟨g₁, hres, -, hs⟩ := hreq hfree
    rcases hr' : s'.locks.request (closeUp t u) id with ⟨_ | l', locks'⟩
    · rw [hr'] at hs
      exact ⟨g₁, hs⟩
    · rw [hr'] at hres
      cases hres
  · obtain ⟨hwait, rowOf', ok'⟩ := hasked
    have hfree₁ : Store.Hinders { s with locks } t u = false := by
      unfold Hinders
      rw [hwait]
      rfl
    obtain ⟨g₁, hres, -, hs⟩ := hreq hfree₁
    rcases hr' : s'.locks.request (closeUp t u) id with ⟨_ | l', locks'⟩
    · rw [hr'] at hres
      cases hres
    · rw [hr'] at hres hs
      obtain rfl : l' = g₁ l := Option.some.inj hres
      obtain ⟨hchanged, hs₁⟩ := hs.updateRow id status allowed now
      have hin : u ∈ locks.line l := by
        refine ok'.mem_line (x := id) (Or.inl ?_)
        rw [Function.update_self, hnone]
        exact List.mem_singleton_self _
      refine ⟨hchanged, g₁, hs₁.ofLocks (hs₁.locks.leave hu ?_)⟩
      rw [line_updateRow]
      exact hin

/-! ### Drawing tickets -/

/-- The next ticket is drawn by somebody else. -/
theorem draw (h : Shadow t g s s') (hn : s.nextTicket ≠ t) :
    Shadow t g { s with nextTicket := s.nextTicket + 1 }
      { s' with nextTicket := s'.nextTicket + 1 } where
  rows := h.rows
  openPairs := h.openPairs
  offline := h.offline
  nextTicket := by
    show s'.nextTicket + 1 = closeUp t (s.nextTicket + 1)
    rw [h.nextTicket, closeUp_succ hn]
  locks := h.locks
  transactions := h.transactions

theorem beginTransaction (h : Shadow t g s s') (hn : s.nextTicket ≠ t) :
    Shadow t g s.beginTransaction.2 s'.beginTransaction.2 := by
  have hset := (h.draw hn).setTransaction hn {}
  unfold Store.beginTransaction
  rw [h.nextTicket] at hset ⊢
  exact hset

/-! ### Every call of somebody else -/

/-- **Somebody else is answered as he would be without `t`**, unless he has to wait at a lock of
his. -/
theorem perform (h : Shadow t g s s') (hq : Queued s) (hq' : Queued s') {c : StoreCall} {m : Moment}
    (hadm : s.AllowsCall m c) (hc : c.ticket? ≠ some t)
    (hbegin : c = .begin ∨ c = .openBatch → s.offline = true ∨ s.nextTicket ≠ t)
    (hfree : ∀ u ∈ c.ticket?, (Store.perform m c s).state.Hinders t u = false) :
    Matches t (c.mapReply (closeUp t)) (Store.perform m c s)
      (Store.perform m (c.mapTickets (closeUp t)) s') := by
  have hne : ∀ {u}, c.ticket? = some u → u ≠ t := by
    rintro u hu rfl
    exact hc hu
  cases c with
  | begin =>
      simp only [StoreCall.mapTickets, Store.perform, h.offline]
      by_cases hoff : s.offline = true
      · simp only [if_pos hoff]
        exact ⟨rfl, g, h⟩
      · simp only [if_neg hoff]
        have hn : s.nextTicket ≠ t := (hbegin (Or.inl rfl)).resolve_left hoff
        exact ⟨congrArg Except.ok h.nextTicket, g, h.beginTransaction hn⟩
  | find driver passenger =>
      refine ⟨?_, g, h⟩
      rw [h.guarded, h.openProposal?]
      rfl
  | get id =>
      refine ⟨?_, g, h⟩
      rw [h.guarded, h.row?]
      rfl
  | list actor role =>
      refine ⟨?_, g, h⟩
      rw [h.guarded, h.rowsOf]
      rfl
  | insert u d =>
      have hu : u ≠ t := hne rfl
      simp only [StoreCall.mapTickets, Store.perform, h.offline]
      by_cases hoff : s.offline = true
      · simp only [if_pos hoff]
        exact ⟨rfl, g, h⟩
      · simp only [if_neg hoff]
        obtain ⟨hres, hs⟩ := h.stageInsert hu d m.freshId m.now
        exact ⟨hres, g, hs⟩
  | lock u id =>
      have hu : u ≠ t := hne rfl
      exact h.withLock hq hq' hu hadm.1 hadm.2
        (fun hs hq₁ => hs.readLocked hq₁ hu id) (hfree u rfl)
  | update u id status driver passenger =>
      have hu : u ≠ t := hne rfl
      refine h.withLock hq hq' hu hadm.1 hadm.2 (fun hs hq₁ => ?_) (hfree u rfl)
      obtain ⟨hn, hs'⟩ := hs.stageUpdate hu id status driver passenger m.now
      exact ⟨congrArg Except.ok hn, hs'⟩
  | commit u =>
      have hu : u ≠ t := hne rfl
      obtain ⟨hres, hs⟩ := h.commit hq hu
      exact ⟨hres, g, hs⟩
  | rollback u =>
      have hu : u ≠ t := hne rfl
      exact ⟨rfl, g, h.endTransaction hq hu⟩
  | openBatch =>
      simp only [StoreCall.mapTickets, Store.perform, h.offline]
      by_cases hoff : s.offline = true
      · simp only [if_pos hoff]
        exact ⟨rfl, g, h⟩
      · simp only [if_neg hoff]
        have hn : s.nextTicket ≠ t := (hbegin (Or.inr rfl)).resolve_left hoff
        exact ⟨congrArg Except.ok h.nextTicket, g, h.draw hn⟩
  | updateRow u id status allowed =>
      have hu : u ≠ t := hne rfl
      exact h.updateLocked hq hq' hu hadm.1 hadm.2.2 (hfree u rfl)

end Shadow

/-! ### What the party that is left out does -/

/-- One party has staged something, locked rows or let them go. -/
structure OwnDoing (t : Ticket) (s s₁ : Store) : Prop where
  rows : s₁.rows = s.rows
  openPairs : s₁.openPairs = s.openPairs
  offline : s₁.offline = s.offline
  nextTicket : s₁.nextTicket = s.nextTicket
  locks : RowLocks.OwnDoing t s.locks s₁.locks
  transactions : ∀ u, u ≠ t → s₁.transactions.find? u = s.transactions.find? u

namespace OwnDoing

variable {t : Ticket} {s s₁ s₂ : Store} {id : MatchId}

theorem refl (t : Ticket) (s : Store) : OwnDoing t s s :=
  ⟨rfl, rfl, rfl, rfl, .refl t s.locks, fun _ _ => rfl⟩

theorem trans (h : OwnDoing t s s₁) (h' : OwnDoing t s₁ s₂) : OwnDoing t s s₂ where
  rows := h'.rows.trans h.rows
  openPairs := h'.openPairs.trans h.openPairs
  offline := h'.offline.trans h.offline
  nextTicket := h'.nextTicket.trans h.nextTicket
  locks := h.locks.trans h'.locks
  transactions u hu := (h'.transactions u hu).trans (h.transactions u hu)

theorem ofLocks {locks : RowLocks} (h : RowLocks.OwnDoing t s.locks locks) :
    OwnDoing t s { s with locks } :=
  ⟨rfl, rfl, rfl, rfl, h, fun _ _ => rfl⟩

theorem setTransaction (s : Store) (t : Ticket) (x : Transaction) :
    OwnDoing t s (s.setTransaction t x) :=
  ⟨rfl, rfl, rfl, rfl, .refl t s.locks, fun _ hu => Table.find?_insert_of_ne _ _ hu⟩

theorem endTransaction (s : Store) (t : Ticket) : OwnDoing t s (s.endTransaction t) where
  rows := rfl
  openPairs := rfl
  offline := rfl
  nextTicket := rfl
  locks := (RowLocks.OwnDoing.giveUp t s.locks).trans (.leaveAll t (s.transaction t).held _)
  transactions u hu := by
    show (s.transactions.erase t).find? u = _
    rw [Table.find?_erase, if_neg hu]

theorem forgetLockIfAbsent (s : Store) (t : Ticket) (id : MatchId) :
    OwnDoing t s (s.forgetLockIfAbsent id) := by
  unfold Store.forgetLockIfAbsent
  split
  · exact refl t s
  · exact ofLocks (.forget t s.locks id)

theorem readLocked (s : Store) (t : Ticket) (id : MatchId) : OwnDoing t s (s.readLocked t id).2 := by
  unfold Store.readLocked
  split
  · exact refl t s
  · have hfreed : OwnDoing t s (s.unlockRow t id) :=
      (ofLocks (.leaveAll t _ s.locks)).trans (setTransaction _ t _)
    exact hfreed.trans (forgetLockIfAbsent _ t id)

theorem stageUpdate (s : Store) (t : Ticket) (id : MatchId) (status : Status)
    (driver passenger : Bool) (now : Time.Instant) :
    OwnDoing t s (s.stageUpdate t id status driver passenger now).2 := by
  unfold Store.stageUpdate
  split
  · exact refl t s
  · split
    · exact refl t s
    · exact setTransaction s t _

theorem stageInsert (s : Store) (t : Ticket) (d : Draft) (id : MatchId) (now : Time.Instant) :
    OwnDoing t s (s.stageInsert t d id now).2 := by
  unfold Store.stageInsert
  simp only
  split
  · exact refl t s
  · exact setTransaction s t _

theorem lockRow (hq : Queued s) (t : Ticket) (id : MatchId) : OwnDoing t s (s.lockRow t id).2 := by
  obtain ⟨rowOf, ok⟩ := hq.linesOK
  have hreq := RowLocks.OwnDoing.request ok t id
  unfold Store.lockRow
  simp only
  split
  · exact refl t s
  · rcases hr : s.locks.request t id with ⟨_ | l, locks⟩
    · rw [hr] at hreq
      exact ofLocks hreq
    · rw [hr] at hreq
      exact (ofLocks hreq).trans (setTransaction _ t _)

theorem withLock {α : Type} (hq : Queued s) (t : Ticket) (id : MatchId)
    {f : Store → Except StoreError α × Store} (hf : ∀ s₁, OwnDoing t s₁ (f s₁).2) :
    OwnDoing t s (s.withLock t id f).state := by
  have hlock := lockRow hq t id
  unfold Store.withLock
  split
  · exact refl t s
  · rcases hl : s.lockRow t id with ⟨_ | _, s₁⟩
    · rw [hl] at hlock
      exact hlock
    · rw [hl] at hlock
      exact hlock.trans (hf s₁)

/-- A commit that fails does no more than to end the transaction. -/
theorem commit (hs : Seen s) (hfail : (s.commit t).1.isOk = false) :
    OwnDoing t s (s.commit t).2 := by
  rcases commit_shape (fun r hr => (hs.new_absent (t := t) hr).1) (hs.new_nodup t) with
    ⟨-, hres⟩ | ⟨-, ⟨-, r, -, hres⟩ | ⟨-, hres⟩⟩
  · rw [hres]
    exact endTransaction s t
  · rw [hres]
    exact endTransaction s t
  · rw [hres] at hfail
    cases hfail

/-- Nothing that a transaction does concerns the others, but for a commit that succeeds. -/
theorem perform (hq : Queued s) (hs : Seen s) {c : StoreCall} {m : Moment} (hc : c.ticket? = some t)
    (hbatch : ∀ id status allowed, c ≠ .updateRow t id status allowed)
    (hfail : c = .commit t → (s.commit t).1.isOk = false) :
    OwnDoing t s (Store.perform m c s).state := by
  cases c with
  | begin => cases hc
  | find driver passenger => cases hc
  | get id => cases hc
  | list actor role => cases hc
  | openBatch => cases hc
  | insert u d =>
      obtain rfl : u = t := Option.some.inj hc
      rw [Store.perform]
      split
      · exact refl u s
      · exact stageInsert s u d m.freshId m.now
  | lock u id =>
      obtain rfl : u = t := Option.some.inj hc
      exact withLock hq u id fun s₁ => readLocked s₁ u id
  | update u id status driver passenger =>
      obtain rfl : u = t := Option.some.inj hc
      exact withLock hq u id fun s₁ => stageUpdate s₁ u id status driver passenger m.now
  | commit u =>
      obtain rfl : u = t := Option.some.inj hc
      exact commit hs (hfail rfl)
  | rollback u =>
      obtain rfl : u = t := Option.some.inj hc
      exact endTransaction s u
  | updateRow u id status allowed =>
      obtain rfl : u = t := Option.some.inj hc
      exact absurd rfl (hbatch id status allowed)

end OwnDoing

namespace Shadow

variable {t : Ticket} {g : LockId → LockId} {s s₁ s' : Store}

/-- **What `t` does is not seen**, as long as he makes nothing forgotten at which somebody else
stands. -/
theorem own (h : Shadow t g s s') (ho : OwnDoing t s s₁)
    (hkept : ∀ x l, s.locks.names.find? x = some l → s.locks.Crowded t l →
      s₁.locks.names.find? x = some l) : Shadow t g s₁ s' where
  rows := h.rows.trans ho.rows.symm
  openPairs := h.openPairs.trans ho.openPairs.symm
  offline := h.offline.trans ho.offline.symm
  nextTicket := by rw [h.nextTicket, ho.nextTicket]
  locks := h.locks.own ho.locks hkept
  transactions := h.transactions.own ho.transactions

/-- The transaction that is left out begins, and the other run does nothing. -/
theorem ownBegin (h : Shadow s.nextTicket g s s') :
    Shadow s.nextTicket g s.beginTransaction.2 s' where
  rows := h.rows
  openPairs := h.openPairs
  offline := h.offline
  nextTicket := by
    show s'.nextTicket = closeUp s.nextTicket (s.nextTicket + 1)
    rw [closeUp_succ_self, h.nextTicket]
  locks := h.locks
  transactions := h.transactions.own fun _ hu => Table.find?_insert_of_ne _ _ hu

end Shadow
end Store
end Dispatch
